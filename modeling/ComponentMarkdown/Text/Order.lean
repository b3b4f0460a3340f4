import ComponentMarkdown.Text.Basic

/-!
# The order of texts

Texts are ordered by their code points. A set of texts is a list in ascending order.
-/

namespace ComponentMarkdown

/-- Is the first text before the second one in the order of code points? -/
def textBefore : Text → Text → Bool
  | _, [] => false
  | [], _ :: _ => true
  | a :: s, b :: t => a < b || (a == b && textBefore s t)

/-- Texts in ascending order, each once. -/
abbrev TextSet := List Text

namespace TextSet

/-- Adds a text where it belongs. -/
def insert (text : Text) : TextSet → TextSet
  | [] => [text]
  | other :: others =>
    if textBefore text other then text :: other :: others
    else if text == other then other :: others
    else other :: insert text others

def ofList (texts : List Text) : TextSet :=
  texts.foldl (fun set text => set.insert text) []

end TextSet

end ComponentMarkdown
