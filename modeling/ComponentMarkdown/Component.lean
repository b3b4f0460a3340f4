import ComponentMarkdown.LineBuffer
import ComponentMarkdown.Render

/-!
# Components

A component is a module with one function that returns the rendered document. Each element that the
document calls is bound to a factory, which the caller may replace.
-/

namespace ComponentMarkdown

/-! ## Names -/

/-- The characters that separate the words of a file name. -/
def separatesWords (c : Char) : Bool :=
  c == '_' || c == '-' || c == ' ' || c == '.'

/-- A word with its first character in upper case. -/
def capitalize : Text → Text
  | [] => []
  | c :: rest => upperChar c ++ rest

/-- Can an identifier begin with the character? -/
def startsIdentifier (c : Char) : Bool :=
  c.isAlpha || c == '_' || c == '$'

/-- The name of a component: the words of a name, capitalized and written together. -/
def pascalCase (name : Text) : Text :=
  match ((name.splitWhere separatesWords).map capitalize).flatten with
  | [] => "Document".toList
  | c :: rest => if startsIdentifier c then c :: rest else '_' :: c :: rest

/-! ## Modules -/

/-- The line that makes a factory for an element. -/
def elementFactory : Text :=
  ("  const element = (type) => factories[type] || " ++
    "((props, ...children) => createElement(type, props, ...children))").toList

/-- The line that binds the factory of an element. -/
def binding (tag : Text) : Text :=
  "  const ".toList ++ tag ++ " = element(".toList ++ Quoted.quote tag ++ [')']

/-- The line that begins the function of a component. -/
def componentHead (name : Text) : Text :=
  "export default function ".toList ++ pascalCase name ++
    "(\x7b createElement, factories = \x7b\x7d \x7d) \x7b".toList

/-- The lines that return what was rendered. -/
def componentBody (code : Text) : List Text :=
  if code.isEmpty then ["  return []".toList]
  else ["  return [".toList, code, "  ]".toList]

/-- The module of a component; its code is to be rendered at column four. -/
def componentModule (name : Text) (rendered : Rendered) : Text :=
  let lines := componentHead name :: elementFactory :: rendered.tags.map binding ++
    componentBody rendered.code ++ [['\x7d']]
  (lines.foldl LineBuffer.addLine {}).text

end ComponentMarkdown
