import ComponentMarkdown.Text.Basic

/-!
# Inline content

What a run of text holds, as a tree. Plain characters may be spread over several adjacent literals.
-/

namespace ComponentMarkdown

/-- Where a link or an image leads, and its title. -/
structure Target where
  href : Text
  title : Option Text := none
deriving DecidableEq, Repr

/-- A piece of inline content. -/
inductive Inline where
  | literal (text : Text)
  /-- A line end; what precedes it says whether it is a hard break. -/
  | lineBreak
  /-- A line end behind a backslash. -/
  | hardBreak
  | code (ticks content : Text)
  | autolink (address href : Text)
  | embedded (code : Text)
  | emphasis (marker : Char) (strong : Bool) (body : List Inline)
  | link (target : Target) (body : List Inline)
  | image (target : Target) (label : Text) (body : List Inline)
  /-- An element around inline content: the code of its call without children. -/
  | element (code : Text) (body : List Inline)
deriving Repr

end ComponentMarkdown
