import ComponentMarkdown.Text.Quoted

/-!
# Properties

The properties of an element are written as one object literal, or, if there are spreads among
them, as `Object.assign` of literals and spreads in their order.
-/

namespace ComponentMarkdown.Factory

/-- A property: a key with its value, or an object whose properties are all taken. -/
inductive Property where
  | field (key value : Text)
  | spread (code : Text)
deriving DecidableEq, Repr

/-- An argument of `Object.assign`. -/
inductive PropertyGroup where
  | literal (fields : List (Text × Text))
  | spread (code : Text)
deriving DecidableEq, Repr

/-- A group of fields, unless there are none. -/
def literalGroup (fields : List (Text × Text)) : List PropertyGroup :=
  if fields.isEmpty then [] else [.literal fields]

/-- Groups adjacent fields; `fields` are those read since the last spread. -/
def groupFrom (fields : List (Text × Text)) : List Property → List PropertyGroup
  | [] => literalGroup fields
  | .field key value :: rest => groupFrom (fields ++ [(key, value)]) rest
  | .spread code :: rest => literalGroup fields ++ .spread code :: groupFrom [] rest

/-- The groups of properties. The first one is a literal, so that no spread object is changed. -/
def groupProperties (properties : List Property) : List PropertyGroup :=
  match groupFrom [] properties with
  | .spread code :: rest => .literal [] :: .spread code :: rest
  | groups => groups

/-- An object literal. -/
def objectLiteral (fields : List (Text × Text)) : Text :=
  if fields.isEmpty then ['{', '}']
  else
    let written := fields.map fun (key, value) => key ++ [':', ' '] ++ value
    ['{', ' '] ++ Text.join [',', ' '] written ++ [' ', '}']

def PropertyGroup.write : PropertyGroup → Text
  | literal fields => objectLiteral fields
  | spread code => code

/-- The argument that holds the properties of an element. -/
def writeProperties (properties : List Property) : Text :=
  match groupProperties properties with
  | [] => "null".toList
  | [.literal fields] => objectLiteral fields
  | groups =>
    "Object.assign(".toList ++ Text.join [',', ' '] (groups.map (·.write)) ++ [')']

end ComponentMarkdown.Factory
