import ComponentMarkdown.Text.Basic

/-!
# Paths

A path is a text of names with slashes between them. The functions take it apart at its last slash
and its last dot, and leave all else as it is written.
-/

namespace ComponentMarkdown.Path

/-- The name behind the last slash. -/
def fileName (path : Text) : Text :=
  (path.reverse.takeWhile (· != '/')).reverse

/-- What stands before the name, the slash included. -/
def beforeName (path : Text) : Text :=
  (path.reverse.dropWhile (· != '/')).reverse

/-- The parts of a file name before and behind its last dot, unless it begins with that dot. -/
def splitExtension (name : Text) : Text × Option Text :=
  match name.reverse.dropWhile (· != '.') with
  | '.' :: c :: rest => ((c :: rest).reverse, some (name.reverse.takeWhile (· != '.')).reverse)
  | _ => (name, none)

/-- The name of a file without its extension. -/
def stem (path : Text) : Text :=
  (splitExtension (fileName path)).1

def extension? (path : Text) : Option Text :=
  (splitExtension (fileName path)).2

/-- The path with another extension in the place of its own. -/
def withExtension (path extension : Text) : Text :=
  beforeName path ++ stem path ++ '.' :: extension

/-- The path of a name in a directory. -/
def join (directory name : Text) : Text :=
  match directory.getLast? with
  | none => name
  | some last => if last == '/' then directory ++ name else directory ++ '/' :: name

/-- Drops slashes, and dots behind a slash, from a reversed path, but not a slash that is all of
it. -/
def trimReversed : Text → Text
  | ['/'] => ['/']
  | '/' :: rest => trimReversed rest
  | '.' :: '/' :: rest => trimReversed ('/' :: rest)
  | path => path

/-- The path of the directory that holds a file. -/
def parent (path : Text) : Text :=
  (trimReversed (path.reverse.dropWhile (· != '/'))).reverse

/-- The names of a path in order; those between two slashes are empty. -/
def names (path : Text) : List Text :=
  path.splitWhere (· == '/')

/-- The way that names lead if each is a directory: empty names and single dots stay where they
are, and two dots lead one step back. -/
def way (names : List Text) : List Text :=
  names.foldl (fun way name =>
    if name.isEmpty || name == ['.'] then way
    else if name == ['.', '.'] then way.dropLast
    else way ++ [name]) []

/-- A path that begins with a slash begins at the root. -/
def isAbsolute (path : Text) : Bool :=
  path.head? == some '/'

end ComponentMarkdown.Path
