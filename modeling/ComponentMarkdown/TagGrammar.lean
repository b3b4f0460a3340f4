import ComponentMarkdown.Text.Basic

/-!
# Tag grammars

A tag grammar recognises embedded tags at the beginning of a text.
-/

namespace ComponentMarkdown

/-- Who asks: block scans look at a whole line, inline scans at the rest of a run of text. -/
inductive TagContext where
  | block
  | inline
deriving DecidableEq, Repr

/-- A tag at the beginning of a text: its name and how many characters it takes. The name of an
expression in braces is empty. -/
structure FoundTag where
  name : Text
  length : Nat
deriving DecidableEq, Repr

/-- Recognisers of tags at the beginning of a text. -/
structure TagGrammar where
  /-- An open tag, a self-closing tag or an expression in braces. -/
  openTag : TagContext → Text → Option FoundTag
  closeTag : TagContext → Text → Option FoundTag
  /-- The length of a construct that needs no close tag. -/
  selfClosing : TagContext → Text → Option Nat

/-- The grammar without tags. -/
def TagGrammar.empty : TagGrammar where
  openTag _ _ := none
  closeTag _ _ := none
  selfClosing _ _ := none

end ComponentMarkdown
