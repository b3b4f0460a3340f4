import ComponentMarkdown.JsonValue
import ComponentMarkdown.Render

/-!
# Tokens and rendered code as JSON

Fields that are empty or false are left out, but for the few that every token has.
-/

namespace ComponentMarkdown

/-- The value of an attribute together with its kind. -/
def AttributeValue.toJson (value : AttributeValue) : JsonValue :=
  let kind := match value with
    | text _ => "text"
    | expression _ => "expression"
  .object [("kind".toList, .string kind.toList), ("value".toList, .string value.content)]

/-- Attributes as pairs of name and value. -/
def Attributes.toJson (attrs : Attributes) : JsonValue :=
  .array (attrs.map fun (name, value) => .array [.string name, value.toJson])

namespace Token

/-- A field that is left out if `present` is false. -/
def optionalField (present : Bool) (name : String) (value : JsonValue) :
    List (Text × JsonValue) :=
  if present then [(name.toList, value)] else []

/-- A field with text, which is left out if there is none. -/
def textField (name : String) (value : Text) : List (Text × JsonValue) :=
  optionalField (!value.isEmpty) name (.string value)

/-- The lines of a block. -/
def mapJson : Option (Nat × Nat) → JsonValue
  | some (first, stop) => .array [.number first, .number stop]
  | none => .array []

mutual

/-- A token as an object. -/
def toJson : Token → JsonValue
  | ⟨kind, tag, nesting, attrs, map, level, children, content, markup, info, block, hidden⟩ =>
    .object <|
      [("type".toList, .string kind.name.toList), ("tag".toList, .string tag)] ++
      optionalField (!attrs.isEmpty) "attrs" attrs.toJson ++
      optionalField map.isSome "map" (mapJson map) ++
      [("nesting".toList, .string nesting.name.toList), ("level".toList, .number level)] ++
      optionalField (!children.isEmpty) "children" (.array (listJson children)) ++
      textField "content" content ++ textField "markup" markup ++ textField "info" info ++
      [("block".toList, .bool block)] ++
      optionalField hidden "hidden" (.bool hidden)

def listJson : List Token → List JsonValue
  | [] => []
  | token :: tokens => toJson token :: listJson tokens

end

/-- Tokens as an array. -/
def allToJson (tokens : List Token) : JsonValue :=
  .array (listJson tokens)

end Token

/-- Rendered code with the names of its elements. -/
def Rendered.toJson (rendered : Rendered) : JsonValue :=
  .object [("code".toList, .string rendered.code),
    ("tags".toList, .array (rendered.tags.map .string))]

end ComponentMarkdown
