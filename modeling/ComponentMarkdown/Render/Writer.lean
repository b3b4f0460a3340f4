import ComponentMarkdown.Text.Order

/-!
# The writer of rendered code

The writer knows the column at which it writes and the names of the elements that were called.
-/

namespace ComponentMarkdown

/-- The column at which code is written, and the elements that it calls. -/
structure CodeWriter where
  indent : Nat
  tags : TextSet := []
deriving DecidableEq, Repr

/-- A step of rendering. -/
abbrev Render := StateM CodeWriter

namespace Render

/-- Puts `count` spaces before every line. -/
def indentBy (count : Nat) (code : Text) : Text :=
  Text.join ['\n'] (code.splitLines.map (Text.spaces count ++ ·))

/-- Code at the present column. -/
def indented (code : Text) : Render Text := do
  return indentBy (← get).indent code

/-- Moves two columns to the right. -/
def moveIn : Render Unit :=
  modify fun writer => { writer with indent := writer.indent + 2 }

/-- Moves two columns to the left, but not beyond the first one. -/
def moveOut : Render Unit :=
  modify fun writer => { writer with indent := writer.indent - 2 }

/-- Notes that an element is called. -/
def useTag (name : Text) : Render Unit :=
  modify fun writer => { writer with tags := TextSet.insert name writer.tags }

end Render

end ComponentMarkdown
