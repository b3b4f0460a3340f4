import ComponentMarkdown.Factory.MarkupText
import ComponentMarkdown.Factory.Props
import ComponentMarkdown.Script
import ComponentMarkdown.Transformer

/-!
# Factory calls

`Transformer.factory` turns an element into nested calls of a factory function with the name, the
properties and the children of the element, and gives a single expression in braces as it is. The
file has:

* names, keys and values;
* calls and their layout;
* elements;
* the expression of a script.
-/

namespace ComponentMarkdown.Factory

open Script

/-! ## Names, keys and values -/

/-- An identifier of ASCII characters. -/
def isIdentifier : Text → Bool
  | [] => false
  | c :: rest =>
    (c.isAlpha || c == '_' || c == '$') &&
      rest.all fun c => c.isAlphanum || c == '_' || c == '$'

/-- Intrinsic elements are those in lower case and those whose name is no variable. -/
def isIntrinsic (name : Text) : Bool :=
  !name.contains '.' && (name.head?.any Char.isLower || !isIdentifier name)

/-- The first argument of a call: a quoted name or a variable. -/
def calledName (name : Text) : Except Refusal Text :=
  if name.isEmpty then .error .fragment
  else .ok (if isIntrinsic name then Quoted.quote name else name)

/-- The key of a property. -/
def propertyKey (name : Text) : Text :=
  if isIdentifier name then name else Quoted.quote name

/-- The code of a container without its braces. -/
def containerBody (container : Container) : Text :=
  Text.trim (container.source.drop 1).dropLast

/-- The value of an attribute that is written as code. -/
def codeValue (name : Text) (container : Container) : Except Refusal Text :=
  let body := containerBody container
  if body.isEmpty then .error (.emptyAttribute name) else .ok body

/-- The property that a container without a name stands for. -/
def spreadProperty (container : Container) : Except Refusal Property :=
  match Text.dropPrefix? "...".toList (containerBody container) with
  | some code => .ok (.spread code.trim)
  | none => .error .spreadExpected

/-- The argument that a container in the body of an element stands for, if it holds code. -/
def containerChild (container : Container) : Except Refusal (List Text) :=
  match container.content with
  | .blank => .ok []
  | .spread => .error .spreadChild
  | .code => .ok [containerBody container]

/-! ## Calls -/

/-- Puts two spaces before every line. -/
def indentLines (code : Text) : Text :=
  Text.join ['\n'] (code.lines.map (' ' :: ' ' :: ·))

/-- A call of the factory; with children every argument begins on a line of its own. -/
def call (pragma name properties : Text) (children : List Text) : Text :=
  if children.isEmpty then pragma ++ ['('] ++ name ++ [',', ' '] ++ properties ++ [')']
  else
    pragma ++ ['(', '\n'] ++
      Text.join [',', '\n'] ((name :: properties :: children).map indentLines) ++ ['\n', ')']

/-! ## Elements -/

mutual

/-- The call for an element. -/
def element (pragma : Text) : Element → Except Refusal Text
  | .selfClosing name attributes => do
    let called ← calledName name
    let props ← properties pragma attributes
    return call pragma called (writeProperties props) []
  | .pair name attributes body closeName => do
    let called ← calledName name
    if name ≠ closeName then throw (.closeName name closeName)
    let props ← properties pragma attributes
    let args ← children pragma body
    return call pragma called (writeProperties props) args

/-- The properties for the attributes of a tag. -/
def properties (pragma : Text) : List Attribute → Except Refusal (List Property)
  | [] => return []
  | part :: rest => do
    let first ← property pragma part
    let others ← properties pragma rest
    return first :: others

/-- The property for an attribute. -/
def property (pragma : Text) : Attribute → Except Refusal Property
  | .flag name => return .field (propertyKey name) "true".toList
  | .text name value => return .field (propertyKey name) (Quoted.quote (attributeText value))
  | .code name value => return .field (propertyKey name) (← codeValue name value)
  | .element name value => return .field (propertyKey name) (← element pragma value)
  | .container value => spreadProperty value
  | .interrupted _ => throw .interruptedAttribute
  | .comment => throw .commentAttribute

/-- The arguments for the parts of a body. -/
def children (pragma : Text) : List Child → Except Refusal (List Text)
  | [] => return []
  | part :: rest => do
    let first ← child pragma part
    let others ← children pragma rest
    return first ++ others

/-- The arguments, at most one, for a part of a body. -/
def child (pragma : Text) : Child → Except Refusal (List Text)
  | .text raw => return (visibleText raw).toList.map Quoted.quote
  | .element value => return [← element pragma value]
  | .container value => containerChild value

end

/-! ## Scripts -/

/-- The only expression of a script, and what follows it. -/
def onlyExpression (statements : List Statement) : Except Refusal (Expression × Text) :=
  match statements with
  | [statement] =>
    match statement.expression with
    | some found => .ok found
    | none => .error (.notExpression statement.kind)
  | _ => .error (.statementCount statements.length)

/-- The only expression of a text that is to be a script. -/
def expressionOf (source : Text) : Except Refusal (Expression × Text) :=
  match parse? source with
  | some statements => onlyExpression statements
  | none => .error .malformed

/-- The expression in braces, which has to stand in parentheses as well. -/
def bracedExpression (inner : Text) : Except Refusal Text := do
  if inner.isEmpty then throw .emptyExpression
  let (found, rest) ← expressionOf ('(' :: inner ++ [')'])
  if found.kind = .parenthesized ∧ rest = [] then return inner
  throw .severalExpressions

/-- The body of a text in braces. -/
def braced? (s : Text) : Option Text :=
  match s, s.getLast? with
  | '{' :: rest@(_ :: _), some '}' => some rest.dropLast
  | _, _ => none

end ComponentMarkdown.Factory

namespace ComponentMarkdown

/-- Turns elements into calls of the function `pragma`, and braces into the expression in them. -/
def Transformer.factory (pragma : Text) : Transformer := fun source =>
  match Factory.braced? source.trim with
  | some inner => Factory.bracedExpression inner.trim
  | none => do
    let (found, _) ← Factory.expressionOf source
    match found.element with
    | some value => Factory.element pragma value
    | none => throw (.notElement found.kind)

/-- Calls `createElement`. -/
def Transformer.createElement : Transformer :=
  Transformer.factory "createElement".toList

end ComponentMarkdown
