import ComponentMarkdown.Text.Basic

/-!
# Options
-/

namespace ComponentMarkdown

/-- Takes code and the language it is written in; gives markup, or nothing to keep the code. -/
abbrev Highlighter := Text → Text → Option Text

/-- Settings for parsing and rendering. -/
structure Options where
  highlight : Option Highlighter := none
  /-- Stands before the language in the class of fenced code. -/
  langPrefix : Text := "language-".toList
  /-- Are soft line breaks rendered? -/
  breaks : Bool := false
  /-- The column at which rendering starts. -/
  initialIndent : Nat := 0
  /-- How deeply blocks, and inline constructs within a block, may be nested. -/
  maxNesting : Nat := 100

end ComponentMarkdown
