import ComponentMarkdown.Text.Basic

/-!
# Line buffers
-/

namespace ComponentMarkdown

/-- Complete lines, each with its line feed, and the line that is being written. -/
structure LineBuffer where
  lines : List Text := []
  current : Text := []
deriving DecidableEq, Repr

namespace LineBuffer

/-- Adds text to the current line. -/
def append (out : LineBuffer) (text : Text) : LineBuffer :=
  { out with current := out.current ++ text }

/-- Ends the current line. -/
def endLine (out : LineBuffer) : LineBuffer :=
  ⟨out.lines ++ [out.current ++ ['\n']], []⟩

/-- Adds text and ends the line. -/
def addLine (out : LineBuffer) (text : Text) : LineBuffer :=
  (out.append text).endLine

/-- How many lines are complete. -/
def lineCount (out : LineBuffer) : Nat :=
  out.lines.length

/-- All that was written. -/
def text (out : LineBuffer) : Text :=
  out.lines.flatten ++ out.current

end LineBuffer

end ComponentMarkdown
