import ComponentMarkdown.Text.Basic

/-!
# Line endings

A document ends its lines with line feeds and holds no NUL; `normalize` brings any text into that
form.
-/

namespace ComponentMarkdown

/-- `CR LF` and `CR` become a line feed, NUL becomes U+FFFD. -/
def normalize : Text → Text
  | '\r' :: '\n' :: rest => '\n' :: normalize rest
  | '\r' :: rest => '\n' :: normalize rest
  | '\x00' :: rest => '\uFFFD' :: normalize rest
  | c :: rest => c :: normalize rest
  | [] => []

end ComponentMarkdown
