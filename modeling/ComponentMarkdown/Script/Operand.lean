import ComponentMarkdown.Script.Members

/-!
# Operands

An operand is a literal, a name, a function, an element and the like, with the operators before it
and the calls, members and assignments behind it. The file has:

* templates, arrow functions, words and `new`;
* `primary`, which reads what stands for itself;
* the suffixes and the whole operand.
-/

namespace ComponentMarkdown.Script

/-! ## Templates -/

/-- The rest behind plain characters of a template. -/
def afterTemplateText : Text → Text
  | '$' :: '{' :: rest => '$' :: '{' :: rest
  | c :: rest => if c == '\x60' || c == '\\' then c :: rest else afterTemplateText rest
  | [] => []

/-- Reads a piece of a template: plain characters, an escape or code. -/
def templatePart (r : Rules) : Scan Unit := do
  match ← get with
  | '\\' :: rest => set rest; escapeBody
  | '$' :: '{' :: rest =>
    set rest
    discard <| r.sequence false
    afterOperand
    Scan.token "\x7d"
  | s =>
    let rest := afterTemplateText s
    guard (rest.length < s.length)
    set rest

/-- Reads a template literal. -/
def template (r : Rules) : Scan Unit := do
  Scan.token "\x60"
  discard <| Scan.many (templatePart r)
  Scan.token "\x60"

/-! ## Arrow functions -/

/-- Is an arrow ahead? -/
def arrowAhead : Scan Bool :=
  Scan.test (do afterOperand; Scan.token "=>")

/-- Reads an arrow and the body behind it: statements in braces or a value. -/
def arrowRest (r : Rules) (lineEnds : Bool) : Scan Expression := do
  afterOperand
  Scan.token "=>"
  beforeOperand
  if ← Scan.ahead "\x7b" then block r <|> discard (r.value lineEnds)
  else discard (r.value lineEnds)
  return { kind := .arrowFunction }

/-- Reads parameters of an arrow function, or a parenthesized expression. -/
def parenthesized (r : Rules) (lineEnds : Bool) : Scan Expression := do
  let found ← slots r "(" ")"
  if ← arrowAhead then
    guard (Slot.areParameters found)
    arrowRest r lineEnds
  else
    guard (found.all Slot.isOperand)
    return { kind := .parenthesized }

/-! ## Arrays -/

/-- Reads an array literal or an array pattern. -/
def array (r : Rules) : Scan Expression := do
  let found ← slots r "[" "]"
  let isValue := found.all Slot.isElement
  let isTarget := found.all Slot.isBinding
  guard (isValue || isTarget)
  return { kind := .array, isValue, isTarget }

/-! ## Words -/

/-- The words that stand for a value of their own. -/
def literalWords : List (String × ExpressionKind) :=
  [("this", .this), ("super", .super), ("null", .nullLiteral), ("true", .trueLiteral),
   ("false", .falseLiteral)]

/-- Reads on behind the word `function`. -/
def functionExpression (r : Rules) : Scan Expression := do
  let (isGenerator, _) ← functionRest r
  return { kind := if isGenerator then .generatorFunction else .functionExpression }

/-- Reads on behind an identifier, which may be the parameter of an arrow function. -/
def identifierRest (r : Rules) (lineEnds : Bool) : Scan Expression := do
  if ← arrowAhead then arrowRest r lineEnds
  else return { kind := .identifier, isTarget := true }

/-- Reads on behind the word `async`, which is an identifier unless a function follows. -/
def asyncRest (r : Rules) (lineEnds : Bool) : Scan Expression := do
  let s ← get
  afterOperand
  if ← keywordAhead "function" then
    keyword "function"
    functionExpression r
  else if ← Scan.test (do discard word; afterOperand; Scan.token "=>") then
    discard word
    arrowRest r lineEnds
  else if ← Scan.ahead "(" then
    let found ← slots r "(" ")"
    if ← arrowAhead then
      guard (Slot.areParameters found)
      arrowRest r lineEnds
    else
      guard (found.all Slot.isElement)
      return { kind := .call }
  else
    set s
    identifierRest r lineEnds

/-- Reads on behind the word `import`: a call or a member. -/
def importRest (r : Rules) : Scan Expression := do
  afterOperand
  if ← Scan.ahead "(" then
    arguments r
    return { kind := .call }
  Scan.token "."
  beforeOperand
  let name ← word
  if name == "meta".toList then return { kind := .metaProperty }
  return { kind := .member, isTarget := true }

/-- Reads an operand that begins with a word. -/
def wordOperand (r : Rules) (lineEnds : Bool) : Scan Expression := do
  let name ← word
  match literalWords.find? (·.1.toList == name) with
  | some (_, kind) => return { kind }
  | none =>
    if name == "undefined".toList then return { kind := .undefined, isTarget := true }
    else if name == "function".toList then functionExpression r
    else if name == "class".toList then
      discard <| classRest r
      return { kind := .classExpression }
    else if name == "async".toList then asyncRest r lineEnds
    else if name == "import".toList then importRest r
    else identifierRest r lineEnds

/-! ## Primary operands -/

/-- The kind of expression that an element is. -/
def elementKind : Element → ExpressionKind
  | .selfClosing .. => .selfClosingElement
  | .pair .. => .element

/-- Reads what stands for itself, without the operators around it. -/
def primary (r : Rules) (lineEnds : Bool) : Scan Expression := do
  match ← Scan.peek? with
  | none => failure
  | some '(' => parenthesized r lineEnds
  | some '[' => array r
  | some '{' => object r
  | some '"' => string '"'; return { kind := .string }
  | some '\'' => string '\''; return { kind := .string }
  | some '\x60' => template r; return { kind := .template }
  | some '/' => regex; return { kind := .regex }
  | some '<' =>
    let e ← r.element
    return { kind := elementKind e, element := e }
  | some '#' =>
    Scan.token "#"
    discard word
    guard (← Scan.test (do afterOperand; keyword "in"))
    return { kind := .privateName }
  | some '@' =>
    decorators r
    beforeOperand
    keyword "class"
    discard <| classRest r
    return { kind := .classExpression }
  | some c =>
    if c.isDigit || c == '.' then number; return { kind := .number }
    else wordOperand r lineEnds

/-! ## Suffixes -/

/-- Reads the name of a member behind its dot. -/
def memberName : Scan Unit := do
  beforeOperand
  discard <| Scan.option (Scan.token "#")
  discard word

/-- Reads an index in brackets. -/
def index (r : Rules) : Scan Unit := do
  Scan.token "["
  discard <| r.sequence false
  afterOperand
  Scan.token "]"

/-- Reads a member, an index or a template behind an expression. -/
def memberSuffix (r : Rules) (e : Expression) : Scan Expression := do
  guard e.isValue
  match ← get with
  | '.' :: rest =>
    set rest
    memberName
    return { kind := .member, isTarget := true }
  | '?' :: '.' :: rest =>
    guard !(rest.headD ' ').isDigit
    set rest
    afterOperand
    match ← Scan.peek? with
    | some '(' =>
      guard e.kind.isPrimary
      arguments r
      return { kind := .call }
    | some '[' =>
      index r
      return { kind := .subscript, isTarget := true }
    | _ =>
      memberName
      return { kind := .member, isTarget := true }
  | '[' :: _ =>
    index r
    return { kind := .subscript, isTarget := true }
  | '\x60' :: _ =>
    guard (e.kind.isPrimary || e.kind = .new)
    template r
    return { kind := .call }
  | _ => failure

/-- The operators that assign the result of a calculation. -/
def augmentedOperators : List String :=
  [">>>=", "<<=", ">>=", "**=", "&&=", "||=", "??=", "+=", "-=", "*=", "/=", "%=", "^=", "&=", "|="]

/-- May the result of a calculation be assigned to the expression? -/
def isAugmentable (e : Expression) : Bool :=
  e.kind = .identifier || e.kind = .member || e.kind = .subscript || e.kind = .parenthesized

/-- Reads an assignment operator and the value behind it. -/
def assignmentSuffix (r : Rules) (lineEnds : Bool) (e : Expression) : Scan Expression := do
  match ← get with
  | '=' :: rest =>
    guard !(rest.head? == some '=' || rest.head? == some '>')
    guard (e.isTarget || e.kind = .parenthesized)
    set rest
    discard <| r.value lineEnds
    return { kind := .assignment, isDefaulted := e.isTarget }
  | s =>
    guard (isAugmentable e)
    match augmentedOperators.findSome? fun op => Text.dropPrefix? op.toList s with
    | none => failure
    | some rest =>
      set rest
      discard <| r.value lineEnds
      return { kind := .augmentedAssignment }

/-- Reads one suffix of an operand. -/
def suffix (r : Rules) (lineEnds : Bool) (e : Expression) : Scan Expression := do
  sameStatement lineEnds
  afterOperand
  match ← get with
  | '(' :: _ =>
    guard e.isValue
    arguments r
    return { kind := .call }
  | '+' :: '+' :: rest | '-' :: '-' :: rest =>
    guard e.isValue
    set rest
    return { kind := .update }
  | _ => memberSuffix r e <|> assignmentSuffix r lineEnds e

/-- Reads at most `fuel` more parts with `step`, as long as there are any. -/
def extend (step : Expression → Scan Expression) : Nat → Expression → Scan Expression
  | 0, e => return e
  | fuel + 1, e => do
    match ← Scan.option (step e) with
    | none => return e
    | some e => extend step fuel e

/-! ## Operators before an operand -/

/-- Reads `new` with what it makes and its arguments, or `new.target`. -/
def newOperand (r : Rules) (lineEnds : Bool) : Scan Expression := do
  keyword "new"
  beforeOperand
  if ← Scan.ahead "." then
    Scan.token "."
    beforeOperand
    keyword "target"
    return { kind := .metaProperty }
  if ← keywordAhead "new" then
    discard <| r.operand lineEnds
  else
    let maker ← primary r lineEnds
    guard maker.kind.isPrimary
    discard <| extend (fun e => do afterOperand; memberSuffix r e) (← get).length maker
  discard <| Scan.option (do sameStatement lineEnds; afterOperand; arguments r)
  return { kind := .new }

/-- Reads `yield` and what it yields, which may be missing. -/
def yieldOperand (r : Rules) (lineEnds : Bool) : Scan Expression := do
  keyword "yield"
  discard <| Scan.option do
    sameStatement lineEnds
    beforeOperand
    discard <| Scan.option (Scan.token "*")
    r.value lineEnds
  return { kind := .yield }

/-- Reads an operand that has an operator before it. -/
def prefixedOperand (r : Rules) (lineEnds : Bool) (operator : Scan Unit) (kind : ExpressionKind) :
    Scan Expression := do
  operator
  let e ← r.operand lineEnds
  guard e.isValue
  return { kind }

/-- Reads an operand without its suffixes. -/
def leading (r : Rules) (lineEnds : Bool) : Scan Expression := do
  let s ← get
  match s with
  | '+' :: '+' :: _ => prefixedOperand r lineEnds (Scan.token "++") .update
  | '-' :: '-' :: _ => prefixedOperand r lineEnds (Scan.token "--") .update
  | c :: _ =>
    if c == '!' || c == '~' || c == '+' || c == '-' then
      prefixedOperand r lineEnds (discard <| Scan.one (· == c)) .unary
    else
      match ← wordAhead? with
      | none => primary r lineEnds
      | some name =>
        if name == "typeof".toList || name == "void".toList || name == "delete".toList then
          prefixedOperand r lineEnds (discard word) .unary
        else if name == "await".toList then
          prefixedOperand r lineEnds (discard word) .await
        else if name == "yield".toList then yieldOperand r lineEnds
        else if name == "new".toList then newOperand r lineEnds
        else primary r lineEnds
  | [] => failure

/-- Reads an operand. -/
def operand (r : Rules) (lineEnds : Bool) : Scan Expression := do
  beforeOperand
  let first ← leading r lineEnds
  extend (suffix r lineEnds) (← get).length first

end ComponentMarkdown.Script
