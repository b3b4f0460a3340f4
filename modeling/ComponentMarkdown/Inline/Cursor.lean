import ComponentMarkdown.Inline.Tree
import Std.Data.TreeMap

/-!
# Cursors, constructs and the memo

A cursor stands inside a window of a text. A rule that matches at a cursor gives a construct: how
many characters it takes, and either a finished piece or a body that is still to be parsed. What
skipping found at a position is remembered in a memo.
-/

namespace ComponentMarkdown

/-- A place in a text: `rest` is what lies between the place and the end of the window, and
`before` is the character in front of it, which may lie outside the window. -/
structure Cursor where
  pos : Nat
  before : Option Char
  rest : Text
deriving DecidableEq, Repr

namespace Cursor

/-- The beginning of a whole text. -/
def start (source : Text) : Cursor :=
  ⟨0, none, source⟩

/-- The window from `pos` to `stop` in a text. -/
def inside (source : Text) (pos stop : Nat) : Cursor :=
  ⟨pos, (source.take pos).getLast?, (source.take stop).drop pos⟩

/-- The position at the end of the window. -/
def stop (c : Cursor) : Nat :=
  c.pos + c.rest.length

/-- The cursor `n` characters further on. -/
def advance (c : Cursor) (n : Nat) : Cursor :=
  ⟨c.pos + n, (c.rest.take n).getLast?.or c.before, c.rest.drop n⟩

/-- The cursor at a later position. -/
def moveTo (c : Cursor) (pos : Nat) : Cursor :=
  c.advance (pos - c.pos)

/-- The window of `length` characters that begins `skip` characters further on. -/
def window (c : Cursor) (skip length : Nat) : Cursor :=
  let c := c.advance skip
  ⟨c.pos, c.before, c.rest.take length⟩

end Cursor

/-- What encloses a body that is still to be parsed. -/
inductive Enclosure where
  | emphasis (marker : Char) (strong : Bool)
  | link (target : Target)
  | image (target : Target)
  | element (code : Text)
deriving DecidableEq, Repr

/-- A construct is complete, or it encloses the `length` characters behind the first `skip`. -/
inductive Form where
  | leaf (piece : Inline)
  | enclosing (enclosure : Enclosure) (skip length : Nat)
deriving Repr

/-- What a rule matched, with the number of characters it takes. -/
structure Construct where
  length : Nat
  form : Form
deriving Repr

/-- A construct that is complete. -/
def Construct.leaf (length : Nat) (piece : Inline) : Construct :=
  ⟨length, .leaf piece⟩

/-- The outcome of skipping: the position behind what was skipped, and whether a rule took it. -/
structure Skipped where
  stop : Nat
  consumed : Bool
deriving DecidableEq, Repr

/-- The outcomes of skipping, by position. -/
abbrev Memo := Std.TreeMap Nat Skipped

/-- A computation that looks outcomes up and adds to them. -/
abbrev Memoized := StateM Memo

/-- Skips what stands at a cursor. -/
abbrev Skip := Cursor → Memoized Skipped

end ComponentMarkdown
