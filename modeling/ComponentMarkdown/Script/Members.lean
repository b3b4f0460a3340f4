import ComponentMarkdown.Script.Rules

/-!
# Objects and classes

The members of an object, which may be a literal or a pattern, and of a class.
-/

namespace ComponentMarkdown.Script

/-- May a property name begin with the character? -/
def startsProperty (c : Char) : Bool :=
  isWordChar c || c == '"' || c == '\'' || c == '[' || c == '#' || c == '\\' || c == '.'

/-- Reads a word that stands before a property name, and the gap behind it. -/
def modifier (name : String) (next : Char → Bool) : Scan Unit := do
  keyword name
  afterOperand
  match ← Scan.peek? with
  | some c => guard (next c)
  | none => failure

/-- Reads the modifiers of a method other than `static`; are there any? -/
def methodModifiers : Scan Bool := do
  let isAsync ← Scan.option (modifier "async" fun c => startsProperty c || c == '*')
  let accessor ← Scan.option
    (modifier "get" startsProperty <|> modifier "set" startsProperty <|>
      (do Scan.token "*"; afterOperand))
  return isAsync.isSome || accessor.isSome

/-- Reads the name of a property; is it a word? -/
def propertyName (r : Rules) : Scan Bool := do
  match ← Scan.peek? with
  | some '"' => string '"'; return false
  | some '\'' => string '\''; return false
  | some '#' => Scan.token "#"; discard word; return false
  | some '[' =>
    Scan.token "["
    discard <| r.value false
    afterOperand
    Scan.token "]"
    return false
  | some c =>
    if c.isDigit || c == '.' then number; return false
    else discard word; return true
  | none => failure

/-! ## Objects -/

/-- What a member of an object lets the object be. -/
structure Member where
  inValue : Bool
  inPattern : Bool

/-- Reads a member of an object up to the comma or brace behind it. -/
def member (r : Rules) : Scan Member := do
  beforeOperand
  match ← Scan.peek? with
  | some ',' | some '}' => return ⟨true, true⟩
  | _ =>
    if ← Scan.ahead "..." then
      Scan.token "..."
      let e ← r.expression false
      return ⟨e.isValue, e.isTarget⟩
    let isStatic ← Scan.option (modifier "static" fun c => startsProperty c || c == '*')
    let isMethod ← methodModifiers
    let plain := isStatic.isNone && !isMethod
    let isWord ← propertyName r
    afterOperand
    match ← Scan.peek? with
    | some '(' =>
      functionBody r
      return ⟨true, false⟩
    | some ':' =>
      guard plain
      Scan.token ":"
      let e ← r.expression false
      return ⟨e.isValue, e.isPattern⟩
    | some '=' =>
      guard (plain && isWord)
      Scan.token "="
      discard <| r.value false
      return ⟨false, true⟩
    | _ =>
      guard (plain && isWord)
      return ⟨true, true⟩

/-- Reads at most `fuel` members. -/
def membersUpTo (r : Rules) : Nat → Scan (List Member)
  | 0 => failure
  | fuel + 1 => do
    let first ← member r
    afterOperand
    if ← Scan.ahead "," then
      Scan.token ","
      return first :: (← membersUpTo r fuel)
    else return [first]

/-- Reads an object literal or an object pattern. -/
def object (r : Rules) : Scan Expression := do
  Scan.token "\x7b"
  let members ← membersUpTo r ((← get).length + 1)
  Scan.token "\x7d"
  let isValue := members.all (·.inValue)
  let isTarget := members.all (·.inPattern)
  guard (isValue || isTarget)
  return { kind := .object, isValue, isTarget }

/-! ## Classes -/

/-- Reads decorators: names with dots, each with arguments or without. -/
def decorators (r : Rules) : Scan Unit := do
  discard <| Scan.many do
    beforeOperand
    Scan.token "@"
    discard word
    discard <| Scan.many (do Scan.token "."; word)
    discard <| Scan.option (arguments r)

/-- Reads a field or method of a class, a static block or a semicolon. -/
def classMember (r : Rules) : Scan Unit := do
  beforeOperand
  if ← Scan.ahead ";" then
    Scan.token ";"
    return
  decorators r
  beforeOperand
  let isStatic ← Scan.option
    (modifier "static" fun c => startsProperty c || c == '*' || c == '{')
  if isStatic.isSome && (← Scan.ahead "\x7b") then
    block r
    return
  let isMethod ← methodModifiers
  discard <| propertyName r
  if ← Scan.test (do afterOperand; Scan.token "(") then
    functionBody r
  else
    guard !isMethod
    let initializer ← Scan.option do
      afterOperand
      Scan.token "="
      r.value true
    semicolon (if initializer.isSome then .operator else .operand)

/-- Reads on behind the word `class`: has the class a name? -/
def classRest (r : Rules) : Scan Bool := do
  beforeOperand
  let isNamed := match ← wordAhead? with
    | some name => name != "extends".toList
    | none => false
  if isNamed then discard word
  beforeOperand
  if ← keywordAhead "extends" then
    keyword "extends"
    discard <| r.value false
  beforeOperand
  Scan.token "\x7b"
  discard <| Scan.many (classMember r)
  beforeOperand
  Scan.token "\x7d"
  return isNamed

end ComponentMarkdown.Script
