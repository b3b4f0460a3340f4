import ComponentMarkdown.Script.Expression

/-!
# Statements

The statements of a script. A word is a keyword only where a statement may begin with it. The file
has:

* declarations;
* conditions, loops and jumps;
* imports and exports;
* `statement`, which tells the statements apart by their first word.
-/

namespace ComponentMarkdown.Script

/-- A statement of which only the kind matters. -/
def Statement.ofKind (kind : StatementKind) : Statement :=
  { kind }

/-! ## Declarations -/

/-- Reads a name or a pattern to be bound. -/
def bindingTarget (r : Rules) : Scan Unit := do
  beforeOperand
  match ← Scan.peek? with
  | some '[' => do
    let e ← array r
    guard e.isTarget
  | some '{' => do
    let e ← object r
    guard e.isTarget
  | _ => discard word

/-- Reads a bound name or pattern with the value it may have. -/
def declarator (r : Rules) : Scan Unit := do
  bindingTarget r
  discard <| Scan.option do
    afterOperand
    Scan.token "="
    r.value true

/-- Reads a declaration of variables behind its first word, semicolon included. -/
def declarationRest (r : Rules) : Scan Unit := do
  declarator r
  discard <| Scan.many do
    afterOperand
    Scan.token ","
    declarator r
  semicolon .operator

/-- Is a name or a pattern ahead, as behind `let`? -/
def bindingAhead : Scan Bool :=
  Scan.test do
    beforeOperand
    match ← Scan.peek? with
    | some '[' | some '{' => return
    | _ => discard word

/-- Reads a declaration of a named function. -/
def functionDeclaration (r : Rules) : Scan Statement := do
  discard <| Scan.option (do keyword "async"; afterOperand)
  keyword "function"
  let (isGenerator, isNamed) ← functionRest r
  guard isNamed
  return .ofKind (if isGenerator then .generator else .function)

/-- Reads a declaration of a named class. -/
def classDeclaration (r : Rules) : Scan Statement := do
  decorators r
  beforeOperand
  keyword "class"
  guard (← classRest r)
  return .ofKind .classDeclaration

/-- Reads a declaration of any sort. -/
def declaration (r : Rules) : Scan Statement :=
  functionDeclaration r <|> classDeclaration r <|>
  (do keyword "var"; declarationRest r; return .ofKind .variableDeclaration) <|>
  (do keyword "let" <|> keyword "const"; declarationRest r; return .ofKind .lexical)

/-! ## Conditions, loops and jumps -/

/-- Reads a condition in parentheses. -/
def condition (r : Rules) : Scan Unit := do
  beforeOperand
  Scan.token "("
  discard <| r.sequence false
  afterOperand
  Scan.token ")"

/-- Reads the statement of a loop or condition. -/
def body (r : Rules) : Scan Unit := do
  beforeOperand
  discard r.statement

/-- Reads on behind `if`. -/
def conditionalRest (r : Rules) : Scan Unit := do
  condition r
  body r
  discard <| Scan.option do
    beforeOperand
    keyword "else"
    body r

/-- Reads statements up to the next case of a switch. -/
def caseBody (r : Rules) : Scan Unit := do
  discard <| Scan.many do
    beforeOperand
    guard !(← keywordAhead "case")
    guard !(← keywordAhead "default")
    r.statement

/-- Reads on behind `switch`. -/
def switchRest (r : Rules) : Scan Unit := do
  condition r
  beforeOperand
  Scan.token "\x7b"
  discard <| Scan.many do
    beforeOperand
    (do keyword "case"; discard <| r.sequence false) <|> keyword "default"
    afterOperand
    Scan.token ":"
    caseBody r
  beforeOperand
  Scan.token "\x7d"

/-- Reads the parentheses of a loop over the members of something. -/
def memberLoopHeader (r : Rules) : Scan Unit := do
  Scan.token "("
  beforeOperand
  (do keyword "var" <|> keyword "let" <|> keyword "const"; bindingTarget r) <|>
  (do let e ← operand r false
      guard (e.isTarget || e.kind = .parenthesized))
  afterOperand
  keyword "in" <|> keyword "of"
  discard <| r.sequence false
  afterOperand
  Scan.token ")"

/-- Reads an expression that may be missing, and the semicolon behind it. -/
def loopPart (r : Rules) : Scan Unit := do
  discard <| Scan.option (r.sequence false)
  beforeOperand
  Scan.token ";"

/-- Reads the parentheses of a loop with a start, a condition and a step. -/
def countingLoopHeader (r : Rules) : Scan Unit := do
  Scan.token "("
  beforeOperand
  (do keyword "var" <|> keyword "let" <|> keyword "const"; declarationRest r) <|> loopPart r
  loopPart r
  discard <| Scan.option (r.sequence false)
  beforeOperand
  Scan.token ")"

/-- Reads on behind `for`. -/
def forRest (r : Rules) : Scan Statement := do
  beforeOperand
  let kind ←
    (do discard <| Scan.option (do keyword "await"; beforeOperand)
        memberLoopHeader r
        return StatementKind.forIn) <|>
    (do countingLoopHeader r; return .forLoop)
  body r
  return .ofKind kind

/-- Reads on behind `do`. -/
def doRest (r : Rules) : Scan Unit := do
  body r
  beforeOperand
  keyword "while"
  condition r
  discard <| Scan.option (semicolon .operand)

/-- Reads on behind `try`. -/
def tryRest (r : Rules) : Scan Unit := do
  block r
  discard <| Scan.option do
    beforeOperand
    keyword "catch"
    discard <| Scan.option do
      beforeOperand
      Scan.token "("
      bindingTarget r
      afterOperand
      Scan.token ")"
    block r
  discard <| Scan.option do
    beforeOperand
    keyword "finally"
    block r

/-- Reads the label behind `break` or `continue`, if there is one, and the semicolon. -/
def jumpRest : Scan Unit :=
  semicolon .operand <|> (do beforeOperand; discard word; semicolon .operand)

/-! ## Imports and exports -/

/-- Reads a string in either sort of quotes. -/
def anyString : Scan Unit := do
  beforeOperand
  string '"' <|> string '\''

/-- Reads the name of something that a module exports. -/
def exportName : Scan Unit := do
  beforeOperand
  discard word <|> anyString

/-- Reads a name and the name it gets behind `as`, if there is one. -/
def renamed : Scan Unit := do
  exportName
  discard <| Scan.option (do beforeOperand; keyword "as"; exportName)

/-- Reads names in braces. -/
def nameList : Scan Unit := do
  beforeOperand
  Scan.token "\x7b"
  discard <| Scan.option do
    renamed
    discard <| Scan.many (do beforeOperand; Scan.token ","; renamed)
    discard <| Scan.option (do beforeOperand; Scan.token ",")
  beforeOperand
  Scan.token "\x7d"

/-- Reads `from` and the name of a module. -/
def fromClause : Scan Unit := do
  beforeOperand
  keyword "from"
  anyString

/-- Reads everything that a module exports, under one name. -/
def namespaceImport : Scan Unit := do
  beforeOperand
  Scan.token "*"
  beforeOperand
  keyword "as"
  exportName

/-- Reads an import statement. -/
def importStatement (r : Rules) : Scan Statement := do
  keyword "import"
  anyString <|> do
    (namespaceImport <|> nameList) <|>
      (do beforeOperand
          discard word
          discard <| Scan.option do
            beforeOperand
            Scan.token ","
            namespaceImport <|> nameList)
    fromClause
  discard <| Scan.option (do beforeOperand; keyword "with"; beforeOperand; object r)
  semicolon .operand
  return .ofKind .imported

/-- Reads an export statement. -/
def exportStatement (r : Rules) : Scan Statement := do
  keyword "export"
  beforeOperand
  (do Scan.token "*"
      discard <| Scan.option (do beforeOperand; keyword "as"; exportName)
      fromClause
      semicolon .operand) <|>
  (do nameList
      discard <| Scan.option fromClause
      semicolon .operand) <|>
  (do keyword "default"
      beforeOperand
      discard (declaration r) <|> (do discard <| r.value true; semicolon .operator)) <|>
  discard (declaration r)
  return .ofKind .exported

/-! ## Statements -/

/-- Reads an expression that is a statement. -/
def expressionStatement (r : Rules) : Scan Statement := do
  let e ← r.sequence true
  let rest ← get
  semicolon .operator
  return { kind := .expression, expression := (e, rest) }

/-- Reads a label and the statement behind it. -/
def labeledStatement (r : Rules) : Scan Statement := do
  discard word
  afterOperand
  Scan.token ":"
  body r
  return .ofKind .labeled

/-- Reads a statement that begins with a word of its own, given what follows the word. -/
def keywordStatement (r : Rules) (name : String) : Option (Scan Statement) :=
  let rest := fun (kind : StatementKind) (scan : Scan Unit) => some do
    keyword name
    scan
    return Statement.ofKind kind
  match name with
  | "if" => rest .conditional (conditionalRest r)
  | "switch" => rest .switch (switchRest r)
  | "for" => some do keyword "for"; forRest r
  | "while" => rest .whileLoop (do condition r; body r)
  | "do" => rest .doLoop (doRest r)
  | "try" => rest .tryBlock (tryRest r)
  | "with" => rest .withBlock (do condition r; body r)
  | "break" => rest .breakOut jumpRest
  | "continue" => rest .continueOn jumpRest
  | "debugger" => rest .debugger (semicolon .operand)
  | "return" =>
    rest .returnValue (semicolon .operand <|>
      (do discard <| r.sequence true; semicolon .operator))
  | "throw" => rest .throwValue (do discard <| r.sequence true; semicolon .operator)
  | "var" => rest .variableDeclaration (declarationRest r)
  | "const" => rest .lexical (declarationRest r)
  | _ => none

/-- Is a declaration of a named function or class ahead? -/
def namedDeclarationAhead : Scan Bool :=
  Scan.test do
    discard <| Scan.option (do keyword "async"; afterOperand)
    (do keyword "function"
        beforeOperand
        discard <| Scan.option (Scan.token "*")) <|> keyword "class"
    beforeOperand
    guard !(← keywordAhead "extends")
    word

/-- Reads a statement that begins with a word. -/
def wordStatement (r : Rules) (name : Text) : Scan Statement := do
  match keywordStatement r (String.ofList name) with
  | some scan => scan
  | none =>
    if name == "let".toList && (← Scan.test (do discard word; guard (← bindingAhead))) then
      keyword "let"
      declarationRest r
      return .ofKind .lexical
    else if name == "import".toList then importStatement r <|> expressionStatement r
    else if name == "export".toList then exportStatement r <|> expressionStatement r
    else if ← namedDeclarationAhead then functionDeclaration r <|> classDeclaration r
    else if ← Scan.test (do discard word; afterOperand; Scan.token ":") then labeledStatement r
    else expressionStatement r

/-- Reads a statement. -/
def statement (r : Rules) : Scan Statement := do
  match ← Scan.peek? with
  | some ';' =>
    Scan.token ";"
    return .ofKind .empty
  | some '{' =>
    (do block r; return .ofKind .block) <|> expressionStatement r
  | some '@' => classDeclaration r <|> exportStatement r <|> expressionStatement r
  | _ =>
    match ← wordAhead? with
    | some name => wordStatement r name
    | none => expressionStatement r

end ComponentMarkdown.Script
