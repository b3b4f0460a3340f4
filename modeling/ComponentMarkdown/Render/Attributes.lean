import ComponentMarkdown.Text.Quoted
import ComponentMarkdown.Text.Uppercase
import ComponentMarkdown.Token

/-!
# Names and attributes in rendered code
-/

namespace ComponentMarkdown

/-- Drops each underscore and puts the character behind it in upper case. -/
def camelCase : Text → Text
  | '_' :: c :: rest =>
    if c == '\n' then '_' :: camelCase (c :: rest) else upperChar c ++ camelCase rest
  | c :: rest => c :: camelCase rest
  | [] => []

/-- The name of an attribute in code; `class` is a word of the language. -/
def attrKey (name : Text) : Text :=
  if name = "class".toList then "className".toList else name

/-- A value as code. -/
def AttributeValue.render : AttributeValue → Text
  | text value => Quoted.quote value
  | expression code => code

/-- Attributes as an object literal. -/
def Attributes.objectLiteral (attrs : Attributes) : Text :=
  let fields := attrs.map fun (name, value) =>
    Quoted.quote (attrKey name) ++ [':', ' '] ++ value.render
  ['{'] ++ Text.join [',', ' '] fields ++ ['}']

end ComponentMarkdown
