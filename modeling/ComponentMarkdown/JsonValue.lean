import ComponentMarkdown.Text.Quoted

/-!
# Values of JSON

A value has two written forms: the compact one without any white space, and the pretty one, where
every element and every field stands on a line of its own, two columns further right than what
encloses it.
-/

namespace ComponentMarkdown

/-- A value of JSON; fields keep their order. -/
inductive JsonValue where
  | bool (value : Bool)
  | number (value : Nat)
  | string (value : Text)
  | array (items : List JsonValue)
  | object (fields : List (Text × JsonValue))
deriving Repr

namespace JsonValue

/-- Values that have no parts, written. -/
def boolText (value : Bool) : Text :=
  (if value then "true" else "false").toList

/-! ## The compact form -/

mutual

/-- The compact form of a value. -/
def compact : JsonValue → Text
  | bool value => boolText value
  | number value => Text.ofNat value
  | string value => Quoted.quote value
  | array items => '[' :: Text.join [','] (compactItems items) ++ [']']
  | object fields => '\x7b' :: Text.join [','] (compactFields fields) ++ ['\x7d']

def compactItems : List JsonValue → List Text
  | [] => []
  | item :: items => compact item :: compactItems items

def compactFields : List (Text × JsonValue) → List Text
  | [] => []
  | (name, value) :: fields =>
    (Quoted.quote name ++ ':' :: compact value) :: compactFields fields

end

/-! ## The pretty form -/

/-- Parts on lines of their own between brackets, given the column of the closing one. -/
def block (column : Nat) (opening closing : Char) (parts : List Text) : Text :=
  if parts.isEmpty then [opening, closing]
  else
    let line := fun part => '\n' :: Text.spaces (column + 2) ++ part
    opening :: Text.join [','] (parts.map line) ++ '\n' :: Text.spaces column ++ [closing]

mutual

/-- The pretty form of a value that begins on a line indented to `column`. -/
def prettyAt (column : Nat) : JsonValue → Text
  | bool value => boolText value
  | number value => Text.ofNat value
  | string value => Quoted.quote value
  | array items => block column '[' ']' (prettyItems (column + 2) items)
  | object fields => block column '\x7b' '\x7d' (prettyFields (column + 2) fields)

def prettyItems (column : Nat) : List JsonValue → List Text
  | [] => []
  | item :: items => prettyAt column item :: prettyItems column items

def prettyFields (column : Nat) : List (Text × JsonValue) → List Text
  | [] => []
  | (name, value) :: fields =>
    (Quoted.quote name ++ ':' :: ' ' :: prettyAt column value) :: prettyFields column fields

end

/-- The pretty form of a value. -/
def pretty (value : JsonValue) : Text :=
  prettyAt 0 value

end JsonValue

end ComponentMarkdown
