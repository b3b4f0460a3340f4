import ComponentMarkdown.CommandLine.Modules
import ComponentMarkdown.CommandLine.Request
import ComponentMarkdown.FileTree
import ComponentMarkdown.Options.Settings
import ComponentMarkdown.Compiler
import ComponentMarkdown.Token.Json

/-!
# The command line

What the program does for its arguments is planned before anything is done: a plan lists what is
printed and written, in order, and the exit status. The file has:

* what a plan consists of, and why a run fails;
* the options of a run;
* a document from standard input;
* files and directories.
-/

namespace ComponentMarkdown

/-! ## Plans -/

/-- One thing that the program does. -/
inductive Action where
  /-- Prints to standard output. -/
  | print (text : Text)
  /-- Reports a line to standard error. -/
  | report (line : Text)
  | write (path content : Text)
  /-- Reports how many files were generated. -/
  | summarize (count : Nat)
deriving DecidableEq, Repr

/-- What the program does, and its exit status. -/
structure Plan where
  actions : List Action
  status : Nat
deriving DecidableEq, Repr

/-- How many files were generated, in words. -/
def summaryLine (count : Nat) : Text :=
  "✨ Generated ".toList ++ Text.ofNat count ++ (if count = 1 then " file" else " files").toList

/-- The lines on standard error. -/
def Action.reported : Action → List Text
  | report line => [line]
  | summarize count => [[], summaryLine count]
  | _ => []

/-- The text on standard output. -/
def Action.printed : Action → Text
  | print text => text
  | _ => []

/-- Why a run fails. -/
inductive Failure where
  | file (path : Text) (fault : FileFault)
  | config (path : Text)
  | notMarkdown (path : Text)
  | noSuchPath (path : Text)
  | nothingFound (directory : Text)
deriving DecidableEq, Repr

/-- The path at which something went wrong, and what it was. -/
def faultAt (path message : Text) : Text :=
  path ++ ':' :: ' ' :: message

/-- The line that reports a failure. -/
def Failure.line : Failure → Text
  | file path fault => "Error: ".toList ++ faultAt path fault.message
  | config path => "Error: invalid config ".toList ++ path
  | notMarkdown path => "Error: ".toList ++ path ++ " is not a .md or .mdx file".toList
  | noSuchPath path => "Error: ".toList ++ path ++ " does not exist".toList
  | nothingFound directory => "No .md or .mdx files found in ".toList ++ directory

/-- A run that is being planned: it adds actions, and it may fail. -/
abbrev Run := ExceptT Failure (StateM (List Action))

namespace Run

/-- Does one more thing. -/
def act (action : Action) : Run Unit :=
  modify (· ++ [action])

/-- A step that may fail because of the file at a path. -/
def atPath {α : Type} (path : Text) (step : Except FileFault α) : Run α :=
  match step with
  | .ok result => return result
  | .error fault => throw (.file path fault)

/-- Writes a file and says so. -/
def writeFile (tree : FileTree) (path content : Text) : Run Unit := do
  discard <| atPath path (tree.write path content)
  act (.write path content)
  act (.report ("  ✓ ".toList ++ path))

/-- The plan for a run. -/
def plan (run : Run Unit) : Plan :=
  match StateT.run (ExceptT.run run) [] with
  | (.ok (), actions) => ⟨actions, 0⟩
  | (.error failure, actions) => ⟨actions ++ [.report failure.line], 1⟩

end Run

namespace CommandLine

/-! ## Options -/

/-- The options of the settings file, if there is one. -/
def configured (tree : FileTree) : Option Text → Run Options
  | none => return {}
  | some path => do
    match Options.ofSettings? (← Run.atPath path (tree.read path)) with
    | some options => return options
    | none => throw (.config path)

/-- The options for a request. The arguments win over the settings file, and rendering starts no
further left than the body of a component. -/
def options (request : Request) (tree : FileTree) : Run Options := do
  let options ← configured tree request.config
  return { options with
    breaks := options.breaks || request.breaks
    langPrefix := request.langPrefix.getD options.langPrefix
    initialIndent := max options.initialIndent 4 }

/-! ## Standard input -/

/-- What is printed for a document: its tokens, its code, or a component. -/
def printed (request : Request) (compiler : Compiler) (source : Text) : Text :=
  if request.tokens then (Token.allToJson (compiler.parse source)).pretty ++ ['\n']
  else
    let rendered := compiler.compile source
    if request.json then rendered.toJson.compact ++ ['\n']
    else componentModule (request.name.getD "Document".toList) rendered

/-- Prints what becomes of the document on standard input. -/
def fromInput (request : Request) (compiler : Compiler) (input : Content) : Run Unit :=
  match input.text? with
  | some source => Run.act (.print (printed request compiler source))
  | none => throw (.file "<stdin>".toList .notText)

/-! ## Files -/

/-- The module for a Markdown document. -/
def moduleText (compiler : Compiler) (component source : Text) : Text :=
  componentModule component (compiler.compile source)

/-- Generates the module for a Markdown file. -/
def fileRun (tree : FileTree) (compiler : Compiler) (name : Option Text) (path : Text) :
    Run Unit := do
  let source ← Run.atPath path (tree.read path)
  Run.writeFile tree (modulePath path) (moduleText compiler (componentName path name) source)

/-- The Markdown files below a directory. -/
def markdownFiles (tree : FileTree) (directory : Text) : List Text :=
  (tree.filesBelow directory).filter isMarkdownFile

/-- Generates the modules for all Markdown files below a directory, and an index for every
directory with such a file. -/
def directoryRun (tree : FileTree) (compiler : Compiler) (directory : Text) : Run Unit := do
  let paths := markdownFiles tree directory
  paths.forM (fileRun tree compiler none)
  if paths.isEmpty then throw (.nothingFound directory)
  (DirectoryIndex.ofPaths paths).forM fun index => Run.writeFile tree index.path index.content
  Run.act (.summarize paths.length)

/-- Generates what a path asks for. -/
def pathRun (tree : FileTree) (compiler : Compiler) (name : Option Text) (path : Text) :
    Run Unit := do
  match tree.look path with
  | .ok (.file _) =>
    if !isMarkdownFile path then throw (.notMarkdown path)
    fileRun tree compiler name path
    Run.act (.summarize 1)
  | .ok .directory => directoryRun tree compiler path
  | .error _ => throw (.noSuchPath path)

/-! ## Runs -/

/-- What is done for a request. -/
def run (request : Request) (input : Content) (tree : FileTree) : Run Unit := do
  let compiler := Compiler.standard (← options request tree)
  if request.stdin then fromInput request compiler input
  else request.path.forM (pathRun tree compiler request.name)

/-- What the program does. Arguments that make no sense are answered by the exit status alone. -/
def plan (arguments : List Text) (input : Content) (tree : FileTree) : Plan :=
  match Request.ofArguments? arguments with
  | some request => (run request input tree).plan
  | none => ⟨[], 2⟩

/-- The files after a plan was carried out. -/
def carryOut (tree : FileTree) (plan : Plan) : FileTree :=
  plan.actions.foldl (fun tree action =>
    match action with
    | .write path content => (tree.write path content).toOption.getD tree
    | _ => tree) tree

end CommandLine

end ComponentMarkdown
