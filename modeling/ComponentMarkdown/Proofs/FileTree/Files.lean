import Mathlib.Data.List.Nodup
import ComponentMarkdown.Proofs.FileTree.Paths
import ComponentMarkdown.Proofs.Text.Order

/-!
# Files that are written and found

The file has:

* `FileTree.Fits`, a place where a file can be written, and what stands where then;
* `FileTree.writeAll`: files that are written to different places are all there at the end;
* `FileTree.FileAt`, a file in a directory, and the files that are found below a directory, each
  once.
-/

namespace ComponentMarkdown.FileTree

variable {tree later : FileTree} {place reached : Place} {path content : Text}

/-! ## One file -/

/-- A file can be written here: the place is in a directory, and is none itself. -/
structure Fits (tree : FileTree) (place : Place) : Prop where
  inDirectory : ∃ front name, place = front ++ [name] ∧ tree.entry? front = some .directory
  notDirectory : tree.entry? place ≠ some .directory

theorem find?_setEntry (place : Place) (entry : Entry) (entries : List (Place × Entry))
    (looked : Place) :
    (setEntry place entry entries).find? (·.1 == looked) =
      if looked = place then some (place, entry) else entries.find? (·.1 == looked) := by
  induction entries with
  | nil =>
    rw [setEntry, List.find?_singleton]
    by_cases here : looked = place
    · rw [if_pos here, if_pos (beq_iff_eq.mpr here.symm)]
    · rw [if_neg here, if_neg (by simpa using Ne.symm here)]
      rfl
  | cons other others ih =>
    rw [setEntry]
    by_cases same : other.1 = place
    · rw [if_pos (beq_iff_eq.mpr same), List.find?_cons, List.find?_cons, same]
      by_cases here : looked = place
      · rw [if_pos here, beq_iff_eq.mpr here.symm]
      · rw [if_neg here, beq_eq_false_iff_ne.mpr (Ne.symm here)]
    · rw [if_neg (by simpa using same), List.find?_cons, List.find?_cons, ih]
      by_cases here : looked = place
      · rw [if_pos here, if_pos here, here, beq_eq_false_iff_ne.mpr same]
      · rw [if_neg here, if_neg here]

theorem mem_setEntry {entry : Entry} {entries : List (Place × Entry)} {other : Place} :
    other ∈ (setEntry place entry entries).map (·.1) ↔
      other = place ∨ other ∈ entries.map (·.1) := by
  induction entries with
  | nil => simp [setEntry]
  | cons first others ih =>
    rw [setEntry]
    split
    · next same => simp [beq_iff_eq.mp same]
    · rw [List.map_cons, List.map_cons, List.mem_cons, List.mem_cons, ih]
      exact or_left_comm

/-- The tree with a file at a place. -/
def withFile (tree : FileTree) (place : Place) (content : Text) : FileTree :=
  { tree with entries := setEntry place (.file (.text content)) tree.entries }

theorem write_of_locate (located : tree.locate path = .ok place) :
    tree.write path content =
      if tree.entry? place = some .directory then .error .isDirectory
      else .ok (tree.withFile place content) := by
  unfold write
  rw [located]
  show (if tree.entry? place = some .directory then _ else _) = _
  split <;> rfl

theorem write_eq_ok :
    tree.write path content = .ok later ↔
      ∃ place, tree.locate path = .ok place ∧ tree.entry? place ≠ some .directory ∧
        later = tree.withFile place content := by
  cases located : tree.locate path with
  | error fault =>
    rw [write, located]
    exact ⟨nofun, nofun⟩
  | ok place =>
    rw [write_of_locate located]
    simp only [Except.ok.injEq, exists_eq_left']
    split
    · next isDirectory => exact ⟨nofun, fun written => absurd isDirectory written.1⟩
    · next notDirectory =>
      rw [Except.ok.injEq, eq_comm]
      exact (and_iff_right notDirectory).symm

/-- Does the place lead to an entry, or to where the program works? -/
def Leads (tree : FileTree) (place : Place) : Prop :=
  ∃ other ∈ tree.workingDirectory :: tree.entries.map (·.1), place <+: other

theorem any_isPrefixOf {places : List Place} :
    places.any place.isPrefixOf = true ↔ ∃ other ∈ places, place <+: other := by
  simp only [List.any_eq_true, List.isPrefixOf_iff_prefix]

theorem leads_of_directory (isDirectory : tree.entry? place = some .directory) :
    tree.Leads place := by
  unfold entry? at isDirectory
  split at isDirectory
  · next other entry found =>
    have member := List.mem_of_find?_eq_some found
    obtain rfl : other = place := beq_iff_eq.mp (List.find?_some found :)
    exact ⟨other, List.mem_cons_of_mem _ (List.mem_map_of_mem member), List.prefix_refl _⟩
  · split at isDirectory
    · next leads => exact any_isPrefixOf.mp leads
    · cases isDirectory

/-- What stands where when a file was written. -/
theorem entry?_withFile (fits : tree.Fits place) (looked : Place) :
    FileTree.entry? (tree.withFile place content) looked =
      if looked = place then some (.file (.text content)) else tree.entry? looked := by
  obtain ⟨front, name, rfl, isDirectory⟩ := fits.inDirectory
  unfold entry? withFile
  dsimp only
  rw [find?_setEntry]
  by_cases here : looked = front ++ [name]
  · rw [if_pos here, if_pos here]
  · rw [if_neg here, if_neg here]
    cases found : tree.entries.find? (·.1 == looked) with
    | some entry => rfl
    | none =>
      dsimp only
      -- What leads to the new file leads to its directory, which was there.
      have alike : (tree.workingDirectory :: (setEntry (front ++ [name])
            (.file (.text content)) tree.entries).map (·.1)).any looked.isPrefixOf =
          (tree.workingDirectory :: tree.entries.map (·.1)).any looked.isPrefixOf := by
        rw [Bool.eq_iff_iff, any_isPrefixOf, any_isPrefixOf]
        simp only [List.mem_cons, mem_setEntry]
        constructor
        · rintro ⟨other, isWorking | rfl | member, leads⟩
          · exact ⟨other, .inl isWorking, leads⟩
          · have inFront := (List.prefix_concat_iff.mp leads).resolve_left here
            obtain ⟨other, member, behind⟩ := leads_of_directory isDirectory
            exact ⟨other, List.mem_cons.mp member, inFront.trans behind⟩
          · exact ⟨other, .inr member, leads⟩
        · rintro ⟨other, isWorking | member, leads⟩
          · exact ⟨other, .inl isWorking, leads⟩
          · exact ⟨other, .inr (.inr member), leads⟩
      rw [alike]

/-! ## Many files -/

/-- The later tree has the same directories as the earlier one. -/
structure Grown (tree later : FileTree) : Prop where
  workingDirectory : later.workingDirectory = tree.workingDirectory
  directories : ∀ place, later.entry? place = some .directory ↔ tree.entry? place = some .directory

theorem Grown.refl (tree : FileTree) : tree.Grown tree :=
  ⟨rfl, fun _ => Iff.rfl⟩

theorem Grown.trans {last : FileTree} (first : tree.Grown later) (second : later.Grown last) :
    tree.Grown last :=
  ⟨second.workingDirectory.trans first.workingDirectory,
    fun place => (second.directories place).trans (first.directories place)⟩

theorem grown_withFile (fits : tree.Fits place) : tree.Grown (tree.withFile place content) := by
  refine ⟨rfl, fun looked => ?_⟩
  rw [entry?_withFile fits]
  split
  · next here => exact ⟨nofun, fun isDirectory => absurd (here ▸ isDirectory) fits.notDirectory⟩
  · exact Iff.rfl

namespace Grown

variable (grown : tree.Grown later)
include grown

theorem fits (fits : tree.Fits place) : later.Fits place := by
  obtain ⟨front, name, same, isDirectory⟩ := fits.inDirectory
  exact ⟨⟨front, name, same, (grown.directories front).mpr isDirectory⟩,
    fun isDirectory => fits.notDirectory ((grown.directories place).mp isDirectory)⟩

/-- A path leads where it led. -/
theorem follow {names : List Text} (found : tree.follow place names = .ok reached) :
    later.follow place names = .ok reached := by
  induction names generalizing place with
  | nil => exact found
  | cons name names ih =>
    cases here : tree.entry? place with
    | none => rw [FileTree.follow, here] at found; cases found
    | some entry =>
      cases entry with
      | file => rw [FileTree.follow, here] at found; cases found
      | directory =>
        rw [FileTree.follow, here] at found
        rw [FileTree.follow, (grown.directories place).mpr here]
        dsimp only at found ⊢
        split at found
        · next stays => exact (if_pos stays).trans (ih found)
        · next moves =>
          rw [if_neg moves]
          split at found
          · next goesBack => exact (if_pos goesBack).trans (ih found)
          · next goesOn => exact (if_neg goesOn).trans (ih found)

theorem locate (found : tree.locate path = .ok reached) : later.locate path = .ok reached := by
  rw [FileTree.locate, grown.workingDirectory]
  exact grown.follow found

end Grown

/-- Writes one file after the other; what cannot be written is left out. -/
def writeAll (tree : FileTree) (files : List (Text × Text)) : FileTree :=
  files.foldl (fun tree file => (tree.write file.1 file.2).toOption.getD tree) tree

/-- Files can be written if each path leads to a place for a file. -/
def AllFit (tree : FileTree) (files : List (Text × Text)) : Prop :=
  ∀ file ∈ files, ∃ place, tree.locate file.1 = .ok place ∧ tree.Fits place

/-- What stands where after all files were written. -/
theorem writeAll_spec {files : List (Text × Text)} (fit : tree.AllFit files) :
    tree.Grown (tree.writeAll files) ∧
      (∀ place, (∀ file ∈ files, tree.locate file.1 ≠ .ok place) →
        FileTree.entry? (tree.writeAll files) place = tree.entry? place) ∧
      ((files.map fun file => tree.locate file.1).Nodup →
        ∀ file ∈ files, ∀ place, tree.locate file.1 = .ok place →
          FileTree.entry? (tree.writeAll files) place = some (.file (.text file.2))) := by
  induction files generalizing tree with
  | nil => exact ⟨.refl tree, fun _ _ => rfl, fun _ => List.forall_mem_nil _⟩
  | cons file files ih =>
    obtain ⟨⟨place, located, fits⟩, others⟩ := List.forall_mem_cons.mp fit
    have written : tree.writeAll (file :: files) =
        (tree.withFile place file.2).writeAll files := by
      rw [writeAll, List.foldl_cons, write_eq_ok.mpr ⟨place, located, fits.notDirectory, rfl⟩]
      rfl
    have grown : tree.Grown (tree.withFile place file.2) := grown_withFile fits
    -- The other paths lead where they led before the file was written.
    have same : ∀ other ∈ files, (tree.withFile place file.2).locate other.1 =
        tree.locate other.1 := by
      intro other member
      obtain ⟨reached, found, -⟩ := others other member
      rw [found, grown.locate found]
    have othersFit : (tree.withFile place file.2).AllFit files := by
      intro other member
      obtain ⟨reached, found, fits⟩ := others other member
      exact ⟨reached, grown.locate found, grown.fits fits⟩
    obtain ⟨grows, elsewhere, written'⟩ := ih othersFit
    rw [written]
    refine ⟨grown.trans grows, fun looked apart => ?_, fun nodup => ?_⟩
    · obtain ⟨first, behind⟩ := List.forall_mem_cons.mp apart
      have other : looked ≠ place := fun here => first (here ▸ located)
      rw [elsewhere looked fun file member => same file member ▸ behind file member,
        entry?_withFile fits, if_neg other]
    · rw [List.map_cons, List.nodup_cons, located] at nodup
      refine List.forall_mem_cons.mpr ⟨fun looked found => ?_, fun other member looked found => ?_⟩
      · rw [located] at found
        cases found
        rw [elsewhere place, entry?_withFile fits, if_pos rfl]
        intro other member found
        exact nodup.1 (List.mem_map.mpr ⟨other, member, same other member ▸ found⟩)
      · refine written' ?_ other member looked (same other member ▸ found)
        rw [List.map_congr_left same]
        exact nodup.2

theorem read_of_entry (located : tree.locate path = .ok place)
    (found : tree.entry? place = some (.file (.text content))) : tree.read path = .ok content := by
  simp only [read, look, located, bind, Except.bind, found]
  rfl

/-- Files that are written to different places are all there at the end. -/
theorem read_writeAll {files : List (Text × Text)} (fit : tree.AllFit files)
    (apart : (files.map fun file => tree.locate file.1).Nodup) {file : Text × Text}
    (member : file ∈ files) : (tree.writeAll files).read file.1 = .ok file.2 := by
  obtain ⟨grown, -, written⟩ := writeAll_spec fit
  obtain ⟨place, located, -⟩ := fit file member
  exact read_of_entry (grown.locate located) (written apart file member place located)

/-! ## The files below a directory -/

/-- Every name in the tree is one that a file can have. -/
def IsNamed (tree : FileTree) : Prop :=
  ∀ entry ∈ tree.entries, ∀ name ∈ entry.1, IsFileName name

/-- A file of this name stands in a directory, and the path of the directory leads there. -/
structure FileAt (tree : FileTree) (directory : Text) (place : Place) (name : Text) : Prop where
  notEmpty : directory ≠ []
  located : tree.locate directory = .ok place
  isDirectory : tree.entry? place = some .directory
  isFileName : IsFileName name
  isFile : ∃ content, tree.entry? (place ++ [name]) = some (.file content)

/-- The path of a directory below another one. -/
def below (directory : Text) (names : List Text) : Text :=
  names.foldl Path.join directory

theorem isFileName_of_mem (named : tree.IsNamed) {name : Text}
    (member : name ∈ tree.namesIn place) : IsFileName name := by
  obtain ⟨⟨other, entry⟩, isEntry, found⟩ := List.mem_filterMap.mp (TextSet.mem_ofList.mp member)
  dsimp only at found
  split at found
  · exact named _ isEntry name (List.mem_of_getElem? found)
  · cases found

/-- Every path that is found is that of a file below the directory. -/
theorem fileAt_of_mem (named : tree.IsNamed) (depth : Nat) {directory : Text}
    (notEmpty : directory ≠ []) (located : tree.locate directory = .ok place)
    (isDirectory : tree.entry? place = some .directory)
    (member : path ∈ tree.filesUpTo depth directory place) :
    ∃ names name, path = Path.join (below directory names) name ∧
      tree.FileAt (below directory names) (place ++ names) name := by
  induction depth generalizing directory place with
  | zero => cases member
  | succ depth ih =>
    obtain ⟨name, inDirectory, found⟩ := List.mem_flatMap.mp member
    have isFileName := isFileName_of_mem named inDirectory
    cases here : tree.entry? (place ++ [name]) with
    | none => rw [here] at found; cases found
    | some entry =>
      rw [here] at found
      cases entry with
      | file content =>
        cases List.mem_singleton.mp found
        refine ⟨[], name, rfl, ?_⟩
        rw [List.append_nil]
        exact ⟨notEmpty, located, isDirectory, isFileName, content, here⟩
      | directory =>
        obtain ⟨names, last, same, fileAt⟩ := ih (Path.join_ne_nil notEmpty name)
          (locate_join notEmpty located isDirectory isFileName) here found
        refine ⟨name :: names, last, same, ?_⟩
        rwa [List.append_assoc] at fileAt

theorem locate_fileAt {directory name : Text} (fileAt : tree.FileAt directory place name) :
    tree.locate (Path.join directory name) = .ok (place ++ [name]) :=
  locate_join fileAt.notEmpty fileAt.located fileAt.isDirectory fileAt.isFileName

/-- The paths that are found through a name of the directory. -/
def filesIn (tree : FileTree) (depth : Nat) (directory : Text) (place : Place) (name : Text) :
    List Text :=
  match tree.entry? (place ++ [name]) with
  | some .directory => tree.filesUpTo depth (Path.join directory name) (place ++ [name])
  | some (.file _) => [Path.join directory name]
  | none => []

/-- They lead through the place of the name. -/
theorem locate_of_mem_filesIn (named : tree.IsNamed) {depth : Nat} {directory name : Text}
    (notEmpty : directory ≠ []) (located : tree.locate directory = .ok place)
    (isDirectory : tree.entry? place = some .directory) (inDirectory : name ∈ tree.namesIn place)
    (member : path ∈ tree.filesIn depth directory place name) :
    ∃ more, tree.locate path = .ok (place ++ name :: more) := by
  have isFileName := isFileName_of_mem named inDirectory
  have joined := locate_join notEmpty located isDirectory isFileName
  unfold filesIn at member
  split at member
  · next here =>
    obtain ⟨names, last, rfl, fileAt⟩ :=
      fileAt_of_mem named depth (Path.join_ne_nil notEmpty name) joined here member
    refine ⟨names ++ [last], ?_⟩
    rw [locate_fileAt fileAt]
    simp only [List.append_assoc, List.cons_append, List.nil_append]
  · cases List.mem_singleton.mp member
    exact ⟨[], joined⟩
  · cases member

/-- Every file is found once. -/
theorem nodup_filesUpTo (named : tree.IsNamed) (depth : Nat) {directory : Text}
    (notEmpty : directory ≠ []) (located : tree.locate directory = .ok place)
    (isDirectory : tree.entry? place = some .directory) :
    (tree.filesUpTo depth directory place).Nodup := by
  induction depth generalizing directory place with
  | zero => exact List.nodup_nil
  | succ depth ih =>
    show ((tree.namesIn place).flatMap (tree.filesIn depth directory place)).Nodup
    refine List.nodup_flatMap.mpr ⟨fun name inDirectory => ?_, ?_⟩
    · have isFileName := isFileName_of_mem named inDirectory
      unfold filesIn
      split
      · next here =>
        exact ih (Path.join_ne_nil notEmpty name)
          (locate_join notEmpty located isDirectory isFileName) here
      · exact List.nodup_singleton _
      · exact List.nodup_nil
    · refine (TextSet.nodup_ofList _).pairwise_of_forall_ne ?_
      intro name inDirectory other otherIn apart path member inOther
      obtain ⟨more, leads⟩ :=
        locate_of_mem_filesIn named notEmpty located isDirectory inDirectory member
      obtain ⟨more', leads'⟩ :=
        locate_of_mem_filesIn named notEmpty located isDirectory otherIn inOther
      have same := List.append_cancel_left (Except.ok.inj (leads.symm.trans leads'))
      exact apart (List.cons.inj same).1

end ComponentMarkdown.FileTree
