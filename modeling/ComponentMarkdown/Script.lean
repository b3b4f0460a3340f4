import ComponentMarkdown.Script.Markup
import ComponentMarkdown.Script.Statement

/-!
# Scripts

`Script.parse?` reads a whole script and lists what stands at its top: its statements, the comments
of HTML between them and a first line that begins with `#!`. A text that is no script gives nothing.
-/

namespace ComponentMarkdown.Script

/-- The rules that read constructs nested up to a given depth. -/
def rules : Nat → Rules
  | 0 => Rules.none
  | depth + 1 => {
      expression := fun lineEnds s => expression (rules depth) lineEnds s
      operand := fun lineEnds s => operand (rules depth) lineEnds s
      statement := fun s => statement (rules depth) s
      element := fun s => element (rules depth) s }

/-- Every nested construct takes a character more than what it stands in, apart from a few steps. -/
def depthFor (s : Text) : Nat :=
  3 * s.length + 3

/-- Reads at most `fuel` statements, with the comments of HTML around them. -/
def statementsUpTo (r : Rules) : Nat → Scan (List Statement)
  | 0 => failure
  | fuel + 1 => do
    let comments := ((← gap .operand).filter (· == .html)).map fun _ =>
      Statement.ofKind .htmlComment
    match ← Scan.peek? with
    | none => return comments
    | some _ =>
      let first ← r.statement
      return comments ++ first :: (← statementsUpTo r fuel)

/-- Reads a first line that begins with `#!`. -/
def hashBang : Scan (List Statement) := do
  beforeOperand
  Scan.token "#!"
  discard <| Scan.span (· != '\n')
  return [.ofKind .hashBang]

/-- What stands at the top of a script. -/
def parse? (s : Text) : Option (List Statement) :=
  let scan : Scan (List Statement) := do
    let first ← Scan.option hashBang
    let more ← statementsUpTo (rules (depthFor s)) (s.length + 1)
    return first.getD [] ++ more
  (scan s).map (·.1)

end ComponentMarkdown.Script
