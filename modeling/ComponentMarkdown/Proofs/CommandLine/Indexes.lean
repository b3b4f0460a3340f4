import ComponentMarkdown.CommandLine.Modules
import ComponentMarkdown.Proofs.Text.Order

/-!
# The indexes of directories

Every directory with a Markdown file gets one index. The file has:

* `DirectoryIndex.isOrder_names`, the order of directories;
* `DirectoryIndex.Ordered`: the indexes stand in the order of their directories, one for each;
* `DirectoryIndex.modules_perm`: what an index exports are the modules of its directory.
-/

namespace ComponentMarkdown

theorem GeneratedModule.insert_perm (added : GeneratedModule) (modules : List GeneratedModule) :
    (insert added modules).Perm (added :: modules) := by
  induction modules with
  | nil => exact .refl _
  | cons other others ih =>
    rw [insert]
    split
    · exact .refl _
    · exact (ih.cons other).trans (.swap added other others)

namespace DirectoryIndex

variable {directory : Text} {added : GeneratedModule} {indexes : List DirectoryIndex}
  {index : DirectoryIndex} {paths : List Text} {path : Text}

theorem isOrder_names : IsOrder namesBefore := by
  have same : namesBefore = listBefore textBefore := by
    funext as bs
    induction as generalizing bs with
    | nil => cases bs <;> rfl
    | cons a as ih =>
      cases bs with
      | nil => rfl
      | cons b bs => rw [namesBefore, listBefore, ih]
  exact same ▸ isOrder_text.lists

/-! ## One index for each directory -/

/-- Two indexes in this order. -/
structure Precedes (index other : DirectoryIndex) : Prop where
  apart : index.directory ≠ other.directory
  inOrder : namesBefore (Path.names other.directory) (Path.names index.directory) = false

/-- The indexes stand in the order of their directories, and none is empty. -/
structure Ordered (indexes : List DirectoryIndex) : Prop where
  precede : indexes.Pairwise Precedes
  notEmpty : ∀ index ∈ indexes, index.modules ≠ []

theorem directory_of_mem_insert (member : index ∈ insert directory added indexes) :
    index.directory = directory ∨ ∃ other ∈ indexes, other.directory = index.directory := by
  induction indexes with
  | nil =>
    cases List.mem_singleton.mp member
    exact .inl rfl
  | cons first others ih =>
    rw [insert] at member
    split at member
    · rcases List.mem_cons.mp member with rfl | member
      · exact .inr ⟨first, List.mem_cons_self .., rfl⟩
      · exact .inr ⟨index, List.mem_cons_of_mem _ member, rfl⟩
    · split at member
      · rcases List.mem_cons.mp member with rfl | member
        · exact .inl rfl
        · exact .inr ⟨index, member, rfl⟩
      · rcases List.mem_cons.mp member with rfl | member
        · exact .inr ⟨index, List.mem_cons_self .., rfl⟩
        · exact (ih member).imp_right fun ⟨other, isOther, same⟩ =>
            ⟨other, List.mem_cons_of_mem _ isOther, same⟩

theorem Precedes.congr {index other index' other' : DirectoryIndex}
    (precedes : Precedes index other) (same : index'.directory = index.directory)
    (same' : other'.directory = other.directory) : Precedes index' other' :=
  ⟨same ▸ same' ▸ precedes.apart, same ▸ same' ▸ precedes.inOrder⟩

/-- A module is added to the index of its directory, or to a new one in its place. -/
theorem Ordered.insert (ordered : Ordered indexes) :
    Ordered (insert directory added indexes) := by
  induction indexes with
  | nil =>
    exact ⟨List.pairwise_singleton _ _, List.forall_mem_singleton.mpr (List.cons_ne_nil _ _)⟩
  | cons index others ih =>
    obtain ⟨first, behind⟩ := List.pairwise_cons.mp ordered.precede
    obtain ⟨notEmpty, othersNotEmpty⟩ := List.forall_mem_cons.mp ordered.notEmpty
    rw [DirectoryIndex.insert]
    split
    · refine ⟨List.pairwise_cons.mpr ⟨fun other member => (first other member).congr rfl rfl,
        behind⟩, List.forall_mem_cons.mpr ⟨?_, othersNotEmpty⟩⟩
      intro (nothing : GeneratedModule.insert added index.modules = [])
      have perm := GeneratedModule.insert_perm added index.modules
      exact List.cons_ne_nil _ _ (List.nil_perm.mp (nothing ▸ perm))
    · next apart =>
      have apart := ne_of_beq_false (Bool.eq_false_iff.mpr apart)
      split
      · next before =>
        have inOrder : ∀ other ∈ index :: others,
            namesBefore (Path.names other.directory) (Path.names index.directory) = false :=
          List.forall_mem_cons.mpr ⟨isOrder_names.irrefl _, fun other member =>
            (first other member).inOrder⟩
        -- What were before the new index would be before the first one.
        have goesBefore : ∀ other ∈ index :: others, Precedes ⟨directory, [added]⟩ other := by
          intro other member
          constructor
          · rintro rfl
            exact Bool.false_ne_true ((inOrder other member).symm.trans before)
          · refine Bool.eq_false_iff.mpr fun otherBefore => ?_
            have both := isOrder_names.trans otherBefore before
            exact Bool.false_ne_true ((inOrder other member).symm.trans both)
        exact ⟨List.pairwise_cons.mpr ⟨goesBefore, ordered.precede⟩,
          List.forall_mem_cons.mpr ⟨List.cons_ne_nil _ _, ordered.notEmpty⟩⟩
      · next notBefore =>
        obtain ⟨precede, notEmpty'⟩ := ih ⟨behind, othersNotEmpty⟩
        refine ⟨List.pairwise_cons.mpr ⟨fun other member => ?_, precede⟩,
          List.forall_mem_cons.mpr ⟨notEmpty, notEmpty'⟩⟩
        rcases directory_of_mem_insert member with same | ⟨known, isKnown, same⟩
        · exact ⟨same ▸ apart, same ▸ Bool.eq_false_iff.mpr notBefore⟩
        · exact (first known isKnown).congr rfl same.symm

theorem ordered_ofPaths (paths : List Text) : Ordered (ofPaths paths) := by
  have all : ∀ indexes, Ordered indexes → Ordered (paths.foldl (fun indexes path =>
      insert (Path.parent path) (GeneratedModule.ofPath path) indexes) indexes) := by
    induction paths with
    | nil => exact fun _ ordered => ordered
    | cons path paths ih => exact fun indexes ordered => ih _ ordered.insert
  exact all [] ⟨List.Pairwise.nil, List.forall_mem_nil _⟩

/-! ## What an index exports -/

/-- The modules that are exported for a directory. -/
def exported (indexes : List DirectoryIndex) (directory : Text) : List GeneratedModule :=
  indexes.flatMap fun index => if index.directory = directory then index.modules else []

theorem exported_insert_perm (looked : Text) :
    (exported (insert directory added indexes) looked).Perm
      ((if directory = looked then [added] else []) ++ exported indexes looked) := by
  induction indexes with
  | nil => exact .refl _
  | cons index others ih =>
    rw [insert]
    split
    · next same =>
      have same := beq_iff_eq.mp same
      unfold exported
      rw [List.flatMap_cons, List.flatMap_cons, ← List.append_assoc]
      refine List.Perm.append_right _ ?_
      dsimp only
      rw [same]
      split
      · exact GeneratedModule.insert_perm added index.modules
      · exact .refl _
    · split
      · exact .refl _
      · unfold exported at ih ⊢
        rw [List.flatMap_cons, List.flatMap_cons]
        exact (ih.append_left _).trans (List.perm_append_comm_assoc ..)

theorem exported_ofPaths_perm (paths : List Text) (looked : Text) :
    (exported (ofPaths paths) looked).Perm
      ((paths.filter (Path.parent · = looked)).map GeneratedModule.ofPath) := by
  have all : ∀ indexes, (exported (paths.foldl (fun indexes path =>
      insert (Path.parent path) (GeneratedModule.ofPath path) indexes) indexes) looked).Perm
        ((paths.filter (Path.parent · = looked)).map GeneratedModule.ofPath ++
          exported indexes looked) := by
    induction paths with
    | nil => exact fun _ => .refl _
    | cons path paths ih =>
      intro indexes
      refine (ih _).trans (((exported_insert_perm looked).append_left _).trans ?_)
      refine (List.perm_append_comm_assoc ..).trans ?_
      rw [← List.append_assoc]
      refine List.Perm.append_right _ ?_
      by_cases here : Path.parent path = looked
      · rw [if_pos here, List.filter_cons_of_pos (by simpa using here)]
        exact .refl _
      · rw [if_neg here, List.filter_cons_of_neg (by simpa using here)]
        exact .refl _
  exact (all []).trans (List.append_nil _ ▸ .refl _)

theorem exported_of_mem (ordered : Ordered indexes) (member : index ∈ indexes) :
    exported indexes index.directory = index.modules := by
  induction indexes with
  | nil => cases member
  | cons first others ih =>
    obtain ⟨precede, behind⟩ := List.pairwise_cons.mp ordered.precede
    unfold exported at ih ⊢
    rw [List.flatMap_cons]
    rcases List.mem_cons.mp member with rfl | member
    · rw [if_pos rfl, List.flatMap_eq_nil_iff.mpr, List.append_nil]
      exact fun other isOther => if_neg (precede other isOther).apart.symm
    · rw [if_neg (precede index member).apart, List.nil_append]
      exact ih ⟨behind, (List.forall_mem_cons.mp ordered.notEmpty).2⟩ member

/-- What an index exports are the modules of its directory. -/
theorem modules_perm (member : index ∈ ofPaths paths) :
    index.modules.Perm
      ((paths.filter (Path.parent · = index.directory)).map GeneratedModule.ofPath) := by
  rw [← exported_of_mem (ordered_ofPaths paths) member]
  exact exported_ofPaths_perm paths _

/-- Every index is that of the directory of a Markdown file. -/
theorem exists_path (member : index ∈ ofPaths paths) :
    ∃ path ∈ paths, Path.parent path = index.directory := by
  obtain ⟨m, isModule⟩ := List.exists_mem_of_ne_nil _ ((ordered_ofPaths paths).notEmpty _ member)
  obtain ⟨path, isPath, -⟩ := List.mem_map.mp ((modules_perm member).mem_iff.mp isModule)
  have found := List.mem_filter.mp isPath
  exact ⟨path, found.1, of_decide_eq_true found.2⟩

/-- The directory of a Markdown file has an index. -/
theorem exists_index (member : path ∈ paths) :
    ∃ index ∈ ofPaths paths, index.directory = Path.parent path := by
  have isModule : GeneratedModule.ofPath path ∈ exported (ofPaths paths) (Path.parent path) :=
    (exported_ofPaths_perm paths _).mem_iff.mpr
      (List.mem_map_of_mem (List.mem_filter.mpr ⟨member, decide_eq_true rfl⟩))
  obtain ⟨index, isIndex, found⟩ := List.mem_flatMap.mp isModule
  split at found
  · next here => exact ⟨index, isIndex, here⟩
  · cases found

end DirectoryIndex

end ComponentMarkdown
