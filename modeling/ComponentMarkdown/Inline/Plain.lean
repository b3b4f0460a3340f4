import ComponentMarkdown.Inline.Cursor
import ComponentMarkdown.Text.Reference

/-!
# Plain text

The rules for plain characters, line ends, backslashes and character references. They take a whole
construct or nothing, and look at nothing but the text ahead.
-/

namespace ComponentMarkdown

/-- Can the character begin a construct other than plain text? -/
def isSpecial (c : Char) : Bool :=
  match c with
  | '\n' | '!' | '#' | '$' | '%' | '&' | '*' | '+' | '-' | ':' | '<' | '=' | '>' | '@' | '['
  | '\\' | ']' | '^' | '_' | '\x60' | '{' | '}' | '~' => true
  | _ => false

/-- A run of plain characters. -/
def plainRun? (s : Text) : Option Construct :=
  let run := s.takeWhile fun c => !isSpecial c
  if run.isEmpty then none else some (.leaf run.length (.literal run))

/-- How many characters a line end takes with the spaces that begin the next line. -/
def lineEndLength (rest : Text) : Nat :=
  1 + Text.runLength ' ' rest

/-- A line end. -/
def newline? : Text → Option Construct
  | '\n' :: rest => some (.leaf (lineEndLength rest) .lineBreak)
  | _ => none

/-- A backslash, with the punctuation or the line end that it escapes. -/
def escape? : Text → Option Construct
  | '\\' :: c :: rest =>
    if isAsciiPunctuation c then some (.leaf 2 (.literal [c]))
    else if c == '\n' then some (.leaf (1 + lineEndLength rest) .hardBreak)
    else some (.leaf 1 (.literal ['\\']))
  | ['\\'] => some (.leaf 1 (.literal ['\\']))
  | _ => none

/-- Is this the body of a character reference, of a bounded length? -/
def isReferenceBody : Text → Bool
  | '#' :: x :: digits =>
    if x == 'x' || x == 'X' then
      1 ≤ digits.length && digits.length ≤ 6 && digits.all isHexDigit
    else digits.length ≤ 6 && x.isDigit && digits.all Char.isDigit
  | c :: rest =>
    c.isAlpha && 1 ≤ rest.length && rest.length ≤ 31 && rest.all Char.isAlphanum
  | [] => false

/-- The character that a reference whose `&` was read stands for, with the length of its body. -/
def referenceValue? (s : Text) : Option (Char × Nat) :=
  let body := s.takeWhile (· != ';')
  if body.length < s.length && isReferenceBody body then
    (Reference.decode body).map (·, body.length)
  else none

/-- A character reference, or an `&` that begins none. -/
def entity? : Text → Option Construct
  | '&' :: rest =>
    match referenceValue? rest with
    | some (value, length) => some (.leaf (length + 2) (.literal [value]))
    | none => some (.leaf 1 (.literal ['&']))
  | _ => none

end ComponentMarkdown
