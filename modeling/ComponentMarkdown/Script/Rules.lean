import ComponentMarkdown.Script.Literal
import ComponentMarkdown.Script.Semicolon
import ComponentMarkdown.Script.Tree

/-!
# Rules of the script grammar

Expressions, statements and elements contain each other. `Rules` holds a scanner for each of them,
to be used one level further inside; the scanners of this file and of those that build on it take
such rules and read one level. The file has:

* values and comma-separated sequences of them;
* lists of slots in brackets, which can be read as arguments, as an array, as parameters or as a
  parenthesized expression;
* parameters and blocks.
-/

namespace ComponentMarkdown.Script

/-- Scanners for what may be nested. The flag says whether a line end may end the expression, as at
the end of a statement. -/
structure Rules where
  expression : Bool → Scan Expression
  operand : Bool → Scan Expression
  statement : Scan Statement
  element : Scan Element

/-- Rules that read nothing. -/
def Rules.none : Rules where
  expression _ := failure
  operand _ := failure
  statement := failure
  element := failure

/-- Fails where a semicolon is inserted, if the expression may end at a line end. -/
def sameStatement (lineEnds : Bool) : Scan Unit := do
  if lineEnds then guard (!(← semicolonInserted .operator))

namespace Rules

variable (r : Rules)

/-- Reads an expression that stands for a value. -/
def value (lineEnds : Bool) : Scan Expression := do
  let e ← r.expression lineEnds
  guard e.isValue
  return e

/-- Reads values with commas between them. -/
def sequence (lineEnds : Bool) : Scan Expression := do
  let first ← r.value lineEnds
  let more ← Scan.many do
    sameStatement lineEnds
    afterOperand
    Scan.token ","
    r.value lineEnds
  return if more.isEmpty then first else { kind := .sequence }

end Rules

/-! ## Slots -/

/-- A place in a comma-separated list. -/
inductive Slot where
  | hole
  | item (e : Expression)
  | spread (e : Expression)

namespace Slot

/-- May the slot stand in arguments or in an array? -/
def isElement : Slot → Bool
  | hole => true
  | item e | spread e => e.isValue

/-- May the slot stand in an array pattern? -/
def isBinding : Slot → Bool
  | hole => true
  | item e => e.isPattern
  | spread e => e.isTarget

/-- May the slot stand in a parenthesized expression? -/
def isOperand : Slot → Bool
  | item e => e.isValue
  | _ => false

def isHole : Slot → Bool
  | hole => true
  | _ => false

/-- May the slots be parameters? There may be none, and a comma may follow the last one. -/
def areParameters (slots : List Slot) : Bool :=
  let named := match slots.getLast? with
    | some hole => slots.dropLast
    | _ => slots
  named.all fun slot => slot.isBinding && !slot.isHole

end Slot

/-- Reads a slot up to the comma or bracket behind it. -/
def slot (r : Rules) : Scan Slot := do
  beforeOperand
  match ← Scan.peek? with
  | some ',' | some ')' | some ']' => return .hole
  | _ =>
    if ← Scan.ahead "..." then
      Scan.token "..."
      return .spread (← r.expression false)
    else return .item (← r.expression false)

/-- Reads at most `fuel` slots. -/
def slotsUpTo (r : Rules) : Nat → Scan (List Slot)
  | 0 => failure
  | fuel + 1 => do
    let first ← slot r
    afterOperand
    if ← Scan.ahead "," then
      Scan.token ","
      return first :: (← slotsUpTo r fuel)
    else return [first]

/-- Reads slots between two brackets. -/
def slots (r : Rules) (open_ close : String) : Scan (List Slot) := do
  Scan.token open_
  let found ← slotsUpTo r ((← get).length + 1)
  Scan.token close
  return found

/-- Reads the arguments of a call. -/
def arguments (r : Rules) : Scan Unit := do
  let found ← slots r "(" ")"
  guard (found.all Slot.isElement)

/-! ## Functions -/

/-- Reads parameters in parentheses. -/
def parameters (r : Rules) : Scan Unit := do
  afterOperand
  let found ← slots r "(" ")"
  guard (Slot.areParameters found)

/-- Reads statements in braces. -/
def block (r : Rules) : Scan Unit := do
  beforeOperand
  Scan.token "\x7b"
  discard <| Scan.many do
    beforeOperand
    r.statement
  beforeOperand
  Scan.token "\x7d"

/-- Reads a function from its parameters on. -/
def functionBody (r : Rules) : Scan Unit := do
  parameters r
  block r

/-- Reads on behind the word `function`: is it a generator, and has it a name? -/
def functionRest (r : Rules) : Scan (Bool × Bool) := do
  beforeOperand
  let star ← Scan.option (Scan.token "*")
  beforeOperand
  let name ← Scan.option word
  functionBody r
  return (star.isSome, name.isSome)

end ComponentMarkdown.Script
