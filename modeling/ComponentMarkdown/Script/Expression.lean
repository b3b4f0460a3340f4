import ComponentMarkdown.Script.Operand

/-!
# Expressions

Operands with operators between them. How tightly the operators bind decides nothing that the rest
of the library needs, so they are read from left to right.
-/

namespace ComponentMarkdown.Script

/-- The operators between two operands; one that begins with another one comes first. -/
def binaryOperators : List String :=
  [">>>", "===", "!==", "**", "<<", ">>", "<=", ">=", "==", "!=", "&&", "||", "??",
   "+", "-", "*", "/", "%", "&", "^", "|", "<", ">"]

/-- Reads an operator between two operands. -/
def binaryOperator : Scan Unit := do
  let s ← get
  match binaryOperators.findSome? fun op => Text.dropPrefix? op.toList s with
  | some rest => set rest
  | none => keyword "in" <|> keyword "instanceof"

/-- Reads the question mark of a condition, which is part of no other operator. -/
def questionMark : Scan Unit := do
  match ← get with
  | '?' :: rest =>
    let other := match rest with
      | '?' :: _ => true
      | '.' :: next => !(next.headD ' ').isDigit
      | _ => false
    guard !other
    set rest
  | _ => failure

/-- Reads the two branches of a condition. -/
def branches (r : Rules) (lineEnds : Bool) : Scan Expression := do
  questionMark
  discard <| r.value false
  afterOperand
  Scan.token ":"
  discard <| r.value lineEnds
  return { kind := .ternary }

/-- Reads an operator and the operand behind it. -/
def rightOperand (r : Rules) (lineEnds : Bool) : Scan Expression := do
  binaryOperator
  let e ← operand r lineEnds
  guard e.isValue
  return { kind := .binary }

/-- Reads an expression. -/
def expression (r : Rules) (lineEnds : Bool) : Scan Expression := do
  let first ← operand r lineEnds
  let step := fun (e : Expression) => do
    guard e.isValue
    sameStatement lineEnds
    afterOperand
    branches r lineEnds <|> rightOperand r lineEnds
  extend step (← get).length first

end ComponentMarkdown.Script
