import ComponentMarkdown.Component
import ComponentMarkdown.FileTree.Path
import ComponentMarkdown.Text.Order

/-!
# Generated modules

A Markdown file becomes a module beside it. The index of a directory exports every module that was
generated in it by the name of its component.
-/

namespace ComponentMarkdown

/-- Is the file a Markdown file, by its extension? -/
def isMarkdownFile (path : Text) : Bool :=
  match Path.extension? path with
  | some extension => extension == "md".toList || extension == "mdx".toList
  | none => false

/-- The path of the module for a Markdown file. -/
def modulePath (path : Text) : Text :=
  Path.withExtension path "js".toList

/-- The name of the component of a file, which is its own name if no other one is given. -/
def componentName (path : Text) (given : Option Text) : Text :=
  pascalCase (given.getD (Path.stem path))

/-- A module that was generated: the name of its component and of its file. -/
structure GeneratedModule where
  component : Text
  file : Text
deriving DecidableEq, Repr

namespace GeneratedModule

/-- The module that a Markdown file of a directory becomes. -/
def ofPath (path : Text) : GeneratedModule :=
  ⟨componentName path none, Path.fileName (modulePath path)⟩

/-- Modules are listed by the names of their components, then by their files. -/
def before (a b : GeneratedModule) : Bool :=
  textBefore a.component b.component || (a.component == b.component && textBefore a.file b.file)

/-- Adds a module where it belongs. -/
def insert (added : GeneratedModule) : List GeneratedModule → List GeneratedModule
  | [] => [added]
  | other :: others =>
    if before added other then added :: other :: others else other :: insert added others

/-- The line of an index that exports a module. -/
def exportLine (m : GeneratedModule) : Text :=
  "export \x7b default as ".toList ++ m.component ++ " \x7d from './".toList ++ m.file ++
    "'\n".toList

end GeneratedModule

/-- The modules of a directory. -/
structure DirectoryIndex where
  directory : Text
  modules : List GeneratedModule
deriving DecidableEq, Repr

namespace DirectoryIndex

/-- The path of the index. -/
def path (index : DirectoryIndex) : Text :=
  Path.join index.directory "index.js".toList

/-- The text of the index. -/
def content (index : DirectoryIndex) : Text :=
  index.modules.flatMap (·.exportLine)

/-- Is a list of names before another one? A directory is before what lies in it. -/
def namesBefore : List Text → List Text → Bool
  | _, [] => false
  | [], _ :: _ => true
  | a :: as, b :: bs => textBefore a b || (a == b && namesBefore as bs)

/-- Adds a module to the index of its directory; the indexes are in the order of their
directories. -/
def insert (directory : Text) (added : GeneratedModule) :
    List DirectoryIndex → List DirectoryIndex
  | [] => [⟨directory, [added]⟩]
  | index :: indexes =>
    if index.directory == directory then
      { index with modules := GeneratedModule.insert added index.modules } :: indexes
    else if namesBefore (Path.names directory) (Path.names index.directory) then
      ⟨directory, [added]⟩ :: index :: indexes
    else index :: insert directory added indexes

/-- The indexes for the modules of Markdown files. -/
def ofPaths (paths : List Text) : List DirectoryIndex :=
  paths.foldl (fun indexes path =>
    insert (Path.parent path) (GeneratedModule.ofPath path) indexes) []

end DirectoryIndex

end ComponentMarkdown
