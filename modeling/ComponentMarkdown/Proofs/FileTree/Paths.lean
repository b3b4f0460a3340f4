import ComponentMarkdown.CommandLine.Modules
import ComponentMarkdown.FileTree
import ComponentMarkdown.Proofs.Render.Indent

/-!
# Where paths lead

A path is a text, and a place is a list of names. The file has:

* `IsFileName` for the names of files and directories, and what the functions on paths make of a
  name in a directory;
* `FileTree.locate_join`: the path of a name in a directory leads to the name in its place;
* `FileTree.locate_parent`: the parent of that path leads to the directory.
-/

namespace ComponentMarkdown

/-- A name that a file or a directory can have. -/
structure IsFileName (name : Text) : Prop where
  notEmpty : name ≠ []
  noSlash : '/' ∉ name
  notDot : name ≠ ['.']
  notDots : name ≠ ['.', '.']

instance (name : Text) : Decidable (IsFileName name) :=
  decidable_of_iff (name ≠ [] ∧ '/' ∉ name ∧ name ≠ ['.'] ∧ name ≠ ['.', '.'])
    ⟨fun ⟨notEmpty, noSlash, notDot, notDots⟩ => ⟨notEmpty, noSlash, notDot, notDots⟩,
      fun ⟨notEmpty, noSlash, notDot, notDots⟩ => ⟨notEmpty, noSlash, notDot, notDots⟩⟩

/-! ## Texts of paths -/

namespace Path

variable {directory name : Text}

theorem names_append (path more : Text) : names (path ++ '/' :: more) = names path ++ names more :=
  Text.splitWhere_append rfl path more

theorem names_of_isFileName (isName : IsFileName name) : names name = [name] :=
  Text.splitWhere_singleton fun c member => by
    rw [beq_eq_false_iff_ne]
    rintro rfl
    exact isName.noSlash member

/-- A directory with a slash behind it. -/
def slashed (directory : Text) : Text :=
  if directory.getLast? = some '/' then directory else directory ++ ['/']

theorem join_eq (notEmpty : directory ≠ []) (name : Text) :
    join directory name = slashed directory ++ name := by
  unfold join slashed
  cases last : directory.getLast? with
  | none => exact absurd (List.getLast?_eq_none_iff.mp last) notEmpty
  | some c =>
    dsimp only
    by_cases isSlash : c = '/'
    · rw [isSlash]; rfl
    · rw [if_neg (by simpa using isSlash), if_neg (by simpa using isSlash), List.append_assoc]
      rfl

/-- A directory ends with a slash then. -/
theorem exists_slashed (directory : Text) :
    ∃ front, slashed directory = front ++ ['/'] ∧
      (directory = front ∨ directory = front ++ ['/']) := by
  unfold slashed
  split
  · next ends =>
    obtain ⟨front, rfl⟩ := List.getLast?_eq_some_iff.mp ends
    exact ⟨front, rfl, .inr rfl⟩
  · exact ⟨directory, rfl, .inl rfl⟩

theorem join_ne_nil (notEmpty : directory ≠ []) (name : Text) : join directory name ≠ [] := by
  obtain ⟨front, ends, -⟩ := exists_slashed directory
  rw [join_eq notEmpty, ends, List.append_assoc]
  exact List.append_ne_nil_of_right_ne_nil _ (List.cons_ne_nil _ _)

theorem takeWhile_reverse_slashed (directory : Text) (noSlash : '/' ∉ name) :
    (slashed directory ++ name).reverse.takeWhile (· != '/') = name.reverse ∧
      (slashed directory ++ name).reverse.dropWhile (· != '/') = (slashed directory).reverse := by
  obtain ⟨front, ends, -⟩ := exists_slashed directory
  have passes : ∀ c ∈ name.reverse, (c != '/') = true := by
    intro c member
    rw [bne_iff_ne]
    rintro rfl
    exact noSlash (List.mem_reverse.mp member)
  rw [ends, List.reverse_append, List.takeWhile_append_of_pos passes,
    List.dropWhile_append_of_pos passes, List.reverse_append]
  exact ⟨List.append_nil _, rfl⟩

theorem fileName_join (notEmpty : directory ≠ []) (noSlash : '/' ∉ name) :
    fileName (join directory name) = name := by
  rw [join_eq notEmpty, fileName, (takeWhile_reverse_slashed directory noSlash).1,
    List.reverse_reverse]

theorem beforeName_join (notEmpty : directory ≠ []) (noSlash : '/' ∉ name) :
    beforeName (join directory name) = slashed directory := by
  rw [join_eq notEmpty, beforeName, (takeWhile_reverse_slashed directory noSlash).2,
    List.reverse_reverse]

theorem parent_join (notEmpty : directory ≠ []) (noSlash : '/' ∉ name) :
    parent (join directory name) = (trimReversed (slashed directory).reverse).reverse := by
  rw [join_eq notEmpty, parent, (takeWhile_reverse_slashed directory noSlash).2]

theorem stem_join (notEmpty : directory ≠ []) (noSlash : '/' ∉ name) :
    stem (join directory name) = (splitExtension name).1 := by
  rw [stem, fileName_join notEmpty noSlash]

theorem withExtension_join (notEmpty : directory ≠ []) (noSlash : '/' ∉ name) (extension : Text) :
    withExtension (join directory name) extension =
      join directory ((splitExtension name).1 ++ '.' :: extension) := by
  rw [withExtension, beforeName_join notEmpty noSlash, stem_join notEmpty noSlash,
    join_eq notEmpty, List.append_assoc]

end Path

/-! ## Following names -/

namespace FileTree

variable {tree : FileTree} {place reached : Place} {directory name : Text}

theorem follow_append (tree : FileTree) (place : Place) (names more : List Text) :
    tree.follow place (names ++ more) = (tree.follow place names).bind (tree.follow · more) := by
  induction names generalizing place with
  | nil => rfl
  | cons name names ih =>
    rw [List.cons_append, follow, follow]
    split
    · rfl
    · rfl
    · simp only [ih]
      split
      · rfl
      · split <;> rfl

/-- An empty name and a single dot stay in a directory. -/
theorem follow_stays (stays : name = [] ∨ name = ['.']) :
    tree.follow place [name] = .ok reached ↔
      tree.entry? place = some .directory ∧ reached = place := by
  have same : (name.isEmpty || name == ['.']) = true := by
    rcases stays with rfl | rfl <;> rfl
  rw [follow]
  cases tree.entry? place with
  | none => exact ⟨nofun, nofun⟩
  | some entry =>
    cases entry with
    | file content => exact ⟨nofun, nofun⟩
    | directory =>
      dsimp only
      rw [same, if_pos rfl]
      constructor
      · intro found
        cases found
        exact ⟨rfl, rfl⟩
      · rintro ⟨-, rfl⟩
        rfl

/-- A name leads on from a directory. -/
theorem follow_name (isName : IsFileName name) (isDirectory : tree.entry? place = some .directory) :
    tree.follow place [name] = .ok (place ++ [name]) := by
  rw [follow, isDirectory]
  dsimp only
  rw [if_neg (by simp [isName.notEmpty, isName.notDot]), if_neg (by simp [isName.notDots])]
  rfl

/-- Where a path begins. -/
def start (tree : FileTree) (path : Text) : Place :=
  if Path.isAbsolute path then [] else tree.workingDirectory

theorem locate_eq (tree : FileTree) (path : Text) :
    tree.locate path = tree.follow (tree.start path) (Path.names path) := rfl

theorem start_append (tree : FileTree) {path : Text} (notEmpty : path ≠ []) (more : Text) :
    tree.start (path ++ more) = tree.start path := by
  cases path with
  | nil => exact absurd rfl notEmpty
  | cons c path => rfl

/-- A path with a last name that stays leads where the others lead, which is a directory. -/
theorem locate_stays {front : Text} (stays : name = [] ∨ name = ['.']) :
    tree.locate (front ++ '/' :: name) = .ok reached ↔
      tree.follow (tree.start (front ++ ['/'])) (Path.names front) = .ok reached ∧
        tree.entry? reached = some .directory := by
  have names : Path.names name = [name] := by
    rcases stays with rfl | rfl <;> rfl
  have begins : tree.start (front ++ '/' :: name) = tree.start (front ++ ['/']) := by
    have whole := tree.start_append (List.append_ne_nil_of_right_ne_nil front
      (List.cons_ne_nil '/' [])) name
    rwa [List.append_assoc] at whole
  rw [locate_eq, Path.names_append, begins, follow_append, names]
  cases tree.follow (tree.start (front ++ ['/'])) (Path.names front) with
  | error fault => exact ⟨nofun, nofun⟩
  | ok found =>
    show tree.follow found [name] = .ok reached ↔ _
    rw [follow_stays stays, Except.ok.injEq]
    constructor
    · rintro ⟨isDirectory, rfl⟩
      exact ⟨rfl, isDirectory⟩
    · rintro ⟨rfl, isDirectory⟩
      exact ⟨isDirectory, rfl⟩

/-- A slash behind a directory makes no difference. -/
theorem locate_slashed (notEmpty : directory ≠ []) (found : tree.locate directory = .ok place)
    (isDirectory : tree.entry? place = some .directory) :
    tree.locate (Path.slashed directory) = .ok place := by
  obtain ⟨front, ends, same⟩ := Path.exists_slashed directory
  rcases same with rfl | same
  · rw [ends, locate_stays (.inl rfl), tree.start_append notEmpty]
    exact ⟨found, isDirectory⟩
  · rw [ends, ← same]
    exact found

/-- The path of a name in a directory leads to the name there. -/
theorem locate_join (notEmpty : directory ≠ []) (found : tree.locate directory = .ok place)
    (isDirectory : tree.entry? place = some .directory) (isName : IsFileName name) :
    tree.locate (Path.join directory name) = .ok (place ++ [name]) := by
  obtain ⟨front, ends, -⟩ := Path.exists_slashed directory
  have slashed := locate_slashed notEmpty found isDirectory
  rw [ends, locate_stays (.inl rfl)] at slashed
  have begins : tree.start (front ++ ['/'] ++ name) = tree.start (front ++ ['/']) :=
    tree.start_append (List.append_ne_nil_of_right_ne_nil front (List.cons_ne_nil _ _)) name
  rw [Path.join_eq notEmpty, ends, locate_eq, begins, List.append_assoc, List.singleton_append,
    Path.names_append, Path.names_of_isFileName isName, follow_append, slashed.1]
  exact follow_name isName isDirectory

/-- What is dropped from a reversed path does not change where it leads. -/
theorem locate_trimReversed (path : Text) (found : tree.locate path.reverse = .ok place) :
    tree.locate (Path.trimReversed path).reverse = .ok place := by
  induction path using Path.trimReversed.induct with
  | case1 => exact found
  | case2 rest notAll ih =>
    have notEmpty : rest.reverse ≠ [] := fun nothing =>
      notAll (List.reverse_eq_nil_iff.mp nothing)
    rw [Path.trimReversed]
    · refine ih ?_
      rw [List.reverse_cons, locate_stays (.inl rfl), tree.start_append notEmpty] at found
      exact found.1
    · exact notAll
  | case3 rest ih =>
    rw [Path.trimReversed]
    refine ih ?_
    rw [List.reverse_cons, List.reverse_cons, List.append_assoc] at found
    rw [List.reverse_cons, locate_stays (.inl rfl)]
    exact (locate_stays (.inr rfl)).mp found
  | case4 path notAll noSlash noDot =>
    rw [Path.trimReversed]
    · exact found
    · exact notAll
    · exact noSlash
    · exact noDot

/-- The parent of the path of a name leads to the directory. -/
theorem locate_parent (notEmpty : directory ≠ []) (found : tree.locate directory = .ok place)
    (isDirectory : tree.entry? place = some .directory) (isName : IsFileName name) :
    tree.locate (Path.parent (Path.join directory name)) = .ok place := by
  rw [Path.parent_join notEmpty isName.noSlash]
  refine locate_trimReversed _ ?_
  rw [List.reverse_reverse]
  exact locate_slashed notEmpty found isDirectory

end FileTree

end ComponentMarkdown
