import ComponentMarkdown.Text.Basic

/-!
# Requests

The arguments of the program: the command `generate`, switches, settings with a value, and a path.
Each may be given once. Arguments that make no sense are refused as a whole.
-/

namespace ComponentMarkdown

/-- What the arguments ask for. -/
structure Request where
  /-- A file or a directory. -/
  path : Option Text := none
  /-- Is the document read from standard input? -/
  stdin : Bool := false
  /-- Is the rendered code printed as JSON? -/
  json : Bool := false
  /-- Are the tokens printed as JSON? -/
  tokens : Bool := false
  /-- Are soft line breaks rendered? -/
  breaks : Bool := false
  /-- The path of a settings file. -/
  config : Option Text := none
  langPrefix : Option Text := none
  /-- The name of the component. -/
  name : Option Text := none
deriving DecidableEq, Repr

namespace Request

/-! ## Arguments -/

/-- Takes the path, which must not be empty. -/
def withPath (request : Request) (path : Text) : Option Request :=
  if path.isEmpty || request.path.isSome then none else some { request with path := some path }

/-- A switch by its name. -/
def withSwitch (request : Request) (name : String) : Option Request :=
  match name with
  | "stdin" => if request.stdin then none else some { request with stdin := true }
  | "json" => if request.json then none else some { request with json := true }
  | "tokens" => if request.tokens then none else some { request with tokens := true }
  | "breaks" => if request.breaks then none else some { request with breaks := true }
  | _ => none

/-- A setting by its name. -/
def withSetting (request : Request) (name : String) (value : Text) : Option Request :=
  match name with
  | "config" =>
    if value.isEmpty || request.config.isSome then none
    else some { request with config := some value }
  | "lang-prefix" =>
    if request.langPrefix.isSome then none else some { request with langPrefix := some value }
  | "name" => if request.name.isSome then none else some { request with name := some value }
  | _ => none

/-- Does the name stand for a setting? -/
def isSetting (name : String) : Bool :=
  ["config", "lang-prefix", "name"].contains name

/-- Does an argument begin with a dash? A single dash is a name like any other. -/
def isDashed (argument : Text) : Bool :=
  argument.head? == some '-' && argument.length != 1

/-! ## Reading -/

/-- Reads arguments one after the other. -/
def readArguments (request : Request) : List Text → Option Request
  | [] => some request
  | argument :: rest =>
    match Text.dropPrefix? ['-', '-'] argument with
    | none =>
      if isDashed argument then none
      else do (← request.withPath argument).readArguments rest
    | some [] => rest.foldlM withPath request
    | some body =>
      let name := String.ofList (body.takeWhile (· != '='))
      match body.dropWhile (· != '='), rest with
      | _ :: value, rest => do (← request.withSetting name value).readArguments rest
      | [], rest =>
        if isSetting name then
          match rest with
          | value :: rest =>
            if isDashed value then none
            else do (← request.withSetting name value).readArguments rest
          | [] => none
        else do (← request.withSwitch name).readArguments rest

/-- What the arguments of the program ask for. There is either a path or standard input. -/
def ofArguments? : List Text → Option Request
  | [] => none
  | command :: arguments => do
    guard (command == "generate".toList)
    let request ← readArguments {} arguments
    guard (request.path.isSome || request.stdin)
    return request

end Request

end ComponentMarkdown
