import ComponentMarkdown.CommandLine

/-!
# The program

The files that the arguments name are loaded, the run is planned, and the plan is carried out. What
cannot be done when it comes to it is reported like any other failure.
-/

namespace ComponentMarkdown.Program

/-! ## Loading -/

/-- The place of a path among the names of the file system. -/
def placeOf (path : String) : IO Place := do
  let here := (← IO.currentDir) / path
  return Path.way (Path.names here.toString.toList)

/-- What stands at a path, unless there is nothing. The contents of a file are read if `wanted`. -/
def load (wanted : Bool) (path : String) : IO (List (Place × Entry)) := do
  let here := (← IO.currentDir) / path
  let place ← placeOf path
  if ← here.isDir then return [(place, .directory)]
  if !(← here.pathExists) then return []
  if !wanted then return [(place, .file .bytes)]
  return [(place, .file (Content.ofBytes (← IO.FS.readBinFile here)))]

/-- What stands at a path and below it. Only the contents of Markdown files are read below it. -/
partial def loadBelow (path : String) : IO (List (Place × Entry)) := do
  let entries ← load (isMarkdownFile path.toList) path
  if entries.all (·.2 != .directory) then return entries
  let mut all := entries
  for child in ← ((← IO.currentDir) / path).readDir do
    let below ← loadBelow (String.ofList (Path.join path.toList child.fileName.toList))
    all := all ++ below
  return all

/-- What stands at a path and on the way to it. -/
def loadWay (path : Text) : IO (List (Place × Entry)) := do
  let mut all := []
  let mut way : Text := []
  for name in Path.names path do
    way := if way.isEmpty && !Path.isAbsolute path then name else Path.join way name
    all := all ++ (← load true (String.ofList way))
  return all

/-- The files that a request is about. -/
def loadTree (request : Request) : IO FileTree := do
  let mut entries := []
  for path in request.config.toList ++ request.path.toList do
    entries := entries ++ (← loadWay path)
  if !request.stdin then
    for path in request.path do
      entries := entries ++ (← loadBelow (String.ofList path))
  return { entries, workingDirectory := ← placeOf "" }

/-- The document on standard input, if a request asks for it. -/
def loadInput (request : Request) : IO Content := do
  if request.stdin then return Content.ofBytes (← (← IO.getStdin).readBinToEnd)
  return .text []

/-! ## Carrying out -/

/-- A time in words. -/
def duration (milliseconds : Nat) : String :=
  if milliseconds < 1000 then s!"{milliseconds}ms" else s!"{milliseconds / 1000}s"

/-- Does one thing. -/
def perform (start : Nat) (action : Action) : IO Unit := do
  match action with
  | .print text => (← IO.getStdout).putStr (String.ofList text)
  | .write path content => IO.FS.writeFile (String.ofList path) (String.ofList content)
  | .report line => IO.eprintln (String.ofList line)
  | .summarize count =>
    let elapsed := (← IO.monoMsNow) - start
    IO.eprintln ""
    IO.eprintln s!"{String.ofList (summaryLine count)} in {duration elapsed}"

/-- Carries out what a request asks for. -/
def carryOut (request : Request) (arguments : List Text) : IO UInt32 := do
  let start ← IO.monoMsNow
  let plan := CommandLine.plan arguments (← loadInput request) (← loadTree request)
  plan.actions.forM (perform start)
  return plan.status.toUInt32

end ComponentMarkdown.Program

open ComponentMarkdown

def main (arguments : List String) : IO UInt32 := do
  let arguments := arguments.map String.toList
  match Request.ofArguments? arguments with
  | none => return 2
  | some request =>
    try Program.carryOut request arguments
    catch error =>
      IO.eprintln s!"Error: {error}"
      return 1
