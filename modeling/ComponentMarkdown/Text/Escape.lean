import ComponentMarkdown.Text.Reference

/-!
# Backslash escapes

A backslash before ASCII punctuation makes it literal. `unescape` first drops those backslashes
and then resolves the character references of what is left.
-/

namespace ComponentMarkdown

/-- Drops every backslash that stands before ASCII punctuation. -/
def dropEscapes : Text → Text
  | '\\' :: c :: rest =>
    if isAsciiPunctuation c then c :: dropEscapes rest else '\\' :: dropEscapes (c :: rest)
  | c :: rest => c :: dropEscapes rest
  | [] => []

/-- Resolves backslash escapes, then character references. -/
def unescape (s : Text) : Text :=
  Reference.decodeAll (dropEscapes s)

end ComponentMarkdown
