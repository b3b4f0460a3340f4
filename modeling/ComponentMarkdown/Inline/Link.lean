import ComponentMarkdown.Inline.Cursor
import ComponentMarkdown.Inline.Target

/-!
# Links and images

A label in brackets with a target behind it. The bracket that closes a label is looked for past
whole constructs; brackets inside it have to be balanced.
-/

namespace ComponentMarkdown

/-- The position of the bracket that closes a label of which `depth` brackets are open. -/
def findLabelEnd (skip : Skip) : Nat → Nat → Cursor → Memoized (Option Nat)
  | 0, _, _ => return none
  | fuel + 1, depth, c => do
    match c.rest with
    | [] => return none
    | mark :: _ =>
      let depth := if mark == ']' then depth - 1 else depth
      if depth == 0 then return some c.pos
      let skipped ← skip c
      let opened := mark == '[' && !skipped.consumed && skipped.stop == c.pos + 1
      findLabelEnd skip fuel (if opened then depth + 1 else depth) (c.moveTo skipped.stop)

/-- A label whose opening bracket is the last of the first `skipped` characters, and its target:
the enclosure is made from the target. -/
def labelled? (skip : Skip) (c : Cursor) (opening : Nat) (enclosure : Target → Enclosure) :
    Memoized (Option Construct) := do
  let body := c.advance opening
  match ← findLabelEnd skip (body.rest.length + 1) 1 body with
  | none => return none
  | some labelEnd =>
    let length := labelEnd - body.pos
    match Target.read? (body.rest.drop (length + 1)) with
    | none => return none
    | some (target, rest) =>
      return some ⟨c.rest.length - rest.length, .enclosing (enclosure target) opening length⟩

/-- A link. -/
def link? (skip : Skip) (c : Cursor) : Memoized (Option Construct) := do
  match c.rest with
  | '[' :: _ => labelled? skip c 1 .link
  | _ => return none

/-- An image. -/
def image? (skip : Skip) (c : Cursor) : Memoized (Option Construct) := do
  match c.rest with
  | '!' :: '[' :: _ => labelled? skip c 2 .image
  | _ => return none

end ComponentMarkdown
