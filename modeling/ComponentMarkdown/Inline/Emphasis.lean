import ComponentMarkdown.Inline.Cursor
import ComponentMarkdown.Text.Alphanumeric

/-!
# Emphasis

A run of `*` or `_` opens emphasis, of one or two markers. The run that closes it is looked for
past whole constructs, so that one inside a code span or a link does not count.
-/

namespace ComponentMarkdown

/-- May the run of `length` markers at the cursor close emphasis? It needs something before it, and
an underscore nothing alphanumeric behind it. -/
def closesEmphasis (c : Cursor) (length : Nat) (marker : Char) : Bool :=
  c.before.any (fun b => !isBlank b) &&
    !(marker == '_' && (c.rest.drop length).head?.any isAlphanumeric)

/-- May the run of `length` markers at the cursor open emphasis? It needs something behind it, and
an underscore nothing alphanumeric before it. -/
def canOpen (c : Cursor) (length : Nat) (marker : Char) : Bool :=
  (c.rest.drop length).head?.any (fun a => !isBlank a) &&
    !(marker == '_' && c.before.any isAlphanumeric)

/-- The position of the run that closes emphasis of `count` markers whose body begins at
`bodyStart`. -/
def findCloser (skip : Skip) (marker : Char) (count bodyStart : Nat) :
    Nat → Cursor → Memoized (Option Nat)
  | 0, _ => return none
  | fuel + 1, c => do
    if c.rest.isEmpty then return none
    let run := Text.runLength marker c.rest
    if c.pos > bodyStart && 0 < run && count ≤ run && closesEmphasis c run marker then
      return some c.pos
    let skipped ← skip c
    findCloser skip marker count bodyStart fuel (c.moveTo skipped.stop)

/-- Emphasis. -/
def emphasis? (skip : Skip) (c : Cursor) : Memoized (Option Construct) := do
  match c.rest with
  | [] => return none
  | marker :: _ =>
    let run := Text.runLength marker c.rest
    if !(marker == '*' || marker == '_') || !canOpen c run marker then return none
    let count := min run 2
    let body := c.advance count
    match ← findCloser skip marker count body.pos (body.rest.length + 1) body with
    | none => return none
    | some closer =>
      return some ⟨closer + count - c.pos,
        .enclosing (.emphasis marker (count == 2)) count (closer - body.pos)⟩

end ComponentMarkdown
