import ComponentMarkdown.FileTree.Path
import ComponentMarkdown.Text.Order

/-!
# File trees

A file tree says what stands at which place. A path is followed from the root or from the directory
that the program works in, and every name on its way has to be a directory. The file has:

* what files hold, and why one cannot be used;
* looking paths up, reading and writing;
* the files below a directory.
-/

namespace ComponentMarkdown

/-- What a file holds: text, or bytes that are no text. -/
inductive Content where
  | text (content : Text)
  | bytes
deriving DecidableEq, Repr

/-- The text of the contents, if they are text. -/
def Content.text? : Content → Option Text
  | text content => some content
  | bytes => none

/-- The contents that bytes are. -/
def Content.ofBytes (data : ByteArray) : Content :=
  match String.fromUTF8? data with
  | some content => text content.toList
  | none => bytes

/-- What stands at a place. -/
inductive Entry where
  | file (content : Content)
  | directory
deriving DecidableEq, Repr

/-- The names on the way from the root. -/
abbrev Place := List Text

/-- What stands where. Whatever lies above an entry is a directory. -/
structure FileTree where
  entries : List (Place × Entry)
  /-- The directory in which relative paths begin. -/
  workingDirectory : Place := []
deriving Repr

/-- Why a file cannot be used. -/
inductive FileFault where
  | missing
  | notDirectory
  | isDirectory
  | notText
deriving DecidableEq, Repr

/-- The wording of a fault. -/
def FileFault.message : FileFault → Text
  | missing => "No such file or directory (os error 2)".toList
  | notDirectory => "Not a directory (os error 20)".toList
  | isDirectory => "Is a directory (os error 21)".toList
  | notText => "stream did not contain valid UTF-8".toList

namespace FileTree

/-! ## Looking up -/

/-- What stands at a place. -/
def entry? (tree : FileTree) (place : Place) : Option Entry :=
  match tree.entries.find? (·.1 == place) with
  | some (_, entry) => some entry
  | none =>
    if (tree.workingDirectory :: tree.entries.map (·.1)).any place.isPrefixOf then some .directory
    else none

/-- The place that names lead to. -/
def follow (tree : FileTree) (place : Place) : List Text → Except FileFault Place
  | [] => .ok place
  | name :: names =>
    match tree.entry? place with
    | none => .error .missing
    | some (.file _) => .error .notDirectory
    | some .directory =>
      if name.isEmpty || name == ['.'] then tree.follow place names
      else if name == ['.', '.'] then tree.follow place.dropLast names
      else tree.follow (place ++ [name]) names

/-- The place that a path leads to. -/
def locate (tree : FileTree) (path : Text) : Except FileFault Place :=
  tree.follow (if Path.isAbsolute path then [] else tree.workingDirectory) (Path.names path)

/-- What stands at the end of a path. -/
def look (tree : FileTree) (path : Text) : Except FileFault Entry := do
  match tree.entry? (← tree.locate path) with
  | some entry => return entry
  | none => throw .missing

/-- The text of a file. -/
def read (tree : FileTree) (path : Text) : Except FileFault Text := do
  match ← tree.look path with
  | .directory => throw .isDirectory
  | .file .bytes => throw .notText
  | .file (.text content) => return content

/-! ## Writing -/

/-- Puts an entry in the place of the one that there is. -/
def setEntry (place : Place) (entry : Entry) : List (Place × Entry) → List (Place × Entry)
  | [] => [(place, entry)]
  | other :: others =>
    if other.1 == place then (place, entry) :: others else other :: setEntry place entry others

/-- Writes a file, which may be there already. -/
def write (tree : FileTree) (path content : Text) : Except FileFault FileTree := do
  let place ← tree.locate path
  if tree.entry? place = some .directory then throw .isDirectory
  return { tree with entries := setEntry place (.file (.text content)) tree.entries }

/-- The entries that are new or differ since an earlier tree. -/
def changesSince (later earlier : FileTree) : List (Place × Entry) :=
  later.entries.filter fun (place, entry) => earlier.entry? place != some entry

/-! ## Directories -/

/-- The names in a directory, in order. -/
def namesIn (tree : FileTree) (place : Place) : List Text :=
  TextSet.ofList (tree.entries.filterMap fun (other, _) =>
    if place.isPrefixOf other then other[place.length]? else none)

/-- The paths of the files below a directory, with subdirectories at most `depth` deep. -/
def filesUpTo (tree : FileTree) : Nat → Text → Place → List Text
  | 0, _, _ => []
  | depth + 1, path, place =>
    (tree.namesIn place).flatMap fun name =>
      match tree.entry? (place ++ [name]) with
      | some .directory => tree.filesUpTo depth (Path.join path name) (place ++ [name])
      | some (.file _) => [Path.join path name]
      | none => []

/-- A bound for how deep directories are nested. -/
def depth (tree : FileTree) : Nat :=
  tree.entries.foldl (fun most entry => max most entry.1.length) 0

/-- The paths of all files below a directory: name by name in order, and what lies in a
subdirectory in the place of its name. -/
def filesBelow (tree : FileTree) (path : Text) : List Text :=
  match tree.locate path with
  | .ok place => tree.filesUpTo tree.depth path place
  | .error _ => []

end FileTree

end ComponentMarkdown
