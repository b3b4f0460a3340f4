import ComponentMarkdown.Script.Word

/-!
# Literals

Numbers, strings and regular expressions. A string ends on its line unless the line end is
escaped; a regular expression always does.
-/

namespace ComponentMarkdown.Script

/-! ## Numbers -/

/-- The rest behind digits, each of which but the first may have an underscore before it. -/
def afterDigits (isDigit : Char → Bool) : Text → Text
  | '_' :: d :: rest => if isDigit d then afterDigits isDigit rest else '_' :: d :: rest
  | d :: rest => if isDigit d then afterDigits isDigit rest else d :: rest
  | [] => []

/-- The rest behind at least one digit. -/
def afterSomeDigits? (isDigit : Char → Bool) : Text → Option Text
  | d :: rest => if isDigit d then some (afterDigits isDigit rest) else none
  | [] => none

/-- The rest behind an exponent, if there is one. -/
def afterExponent? : Text → Option Text
  | e :: rest =>
    if e == 'e' || e == 'E' then
      match rest with
      | '+' :: rest | '-' :: rest => afterSomeDigits? Char.isDigit rest
      | rest => afterSomeDigits? Char.isDigit rest
    else none
  | [] => none

/-- A whole number that may have a fraction: `0`, or one that begins with at most one zero. -/
def admitsFraction : Text → Bool
  | ['0'] => true
  | '0' :: d :: _ => d.isDigit && d != '0'
  | d :: _ => d.isDigit
  | [] => false

/-- The rest behind a whole number with an optional `n`. -/
def afterInteger? (isDigit : Char → Bool) (s : Text) : Option Text :=
  (afterSomeDigits? isDigit s).map fun rest =>
    match rest with
    | 'n' :: rest => rest
    | rest => rest

/-- The rest behind a fraction and an exponent, both of which may be missing. -/
def afterFraction (s : Text) : Text :=
  let rest := (afterSomeDigits? Char.isDigit s).getD s
  (afterExponent? rest).getD rest

/-- The rest behind a decimal number. -/
def afterDecimal? : Text → Option Text
  | '.' :: rest => (afterSomeDigits? Char.isDigit rest).map fun rest =>
      (afterExponent? rest).getD rest
  | s => do
    let rest ← afterSomeDigits? Char.isDigit s
    let whole := s.take (s.length - rest.length)
    if admitsFraction whole then
      match rest with
      | '.' :: rest => return afterFraction rest
      | 'n' :: rest => return rest
      | rest => return (afterExponent? rest).getD rest
    else
      match rest with
      | 'n' :: rest => return rest
      | rest => return rest

/-- The rest behind a number. -/
def afterNumber? (s : Text) : Option Text :=
  let based := match s with
    | '0' :: 'x' :: rest | '0' :: 'X' :: rest => afterInteger? isHexDigit rest
    | '0' :: 'b' :: rest | '0' :: 'B' :: rest => afterInteger? (fun c => c == '0' || c == '1') rest
    | '0' :: 'o' :: rest | '0' :: 'O' :: rest => afterInteger? (fun c => '0' ≤ c && c ≤ '7') rest
    | _ => none
  based <|> afterDecimal? s

def number : Scan Unit := Scan.ofRest? afterNumber?

/-! ## Strings -/

/-- Reads what follows the backslash of an escape. -/
def escapeBody : Scan Unit := do
  let c ← Scan.one fun _ => true
  if c == 'x' then
    discard <| Scan.one isHexDigit
    discard <| Scan.one isHexDigit
  else if c == 'u' then
    unicodeDigits
  else if '0' ≤ c && c ≤ '7' then
    let isOctal := fun (d : Char) => '0' ≤ d && d ≤ '7'
    match ← Scan.option (Scan.one isOctal) with
    | none => return
    | some _ => discard <| Scan.option (Scan.one isOctal)
  else if c == '\r' then
    discard <| Scan.option (Scan.one fun d => d == '\n' || isSeparator d)

/-- Reads a piece of a string: a run of plain characters or an escape. -/
def stringPart (quote : Char) : Scan Unit :=
  (do let text ← Scan.span fun c => !(c == quote || c == '\\' || c == '\r' || c == '\n')
      guard !text.isEmpty) <|>
  (do Scan.token "\\"; escapeBody)

/-- Reads a string in the given quotes. -/
def string (quote : Char) : Scan Unit := do
  discard <| Scan.one (· == quote)
  discard <| Scan.many (stringPart quote)
  discard <| Scan.one (· == quote)

/-! ## Regular expressions -/

/-- The rest behind a class in brackets whose opening bracket was read. -/
def afterClass? : Text → Option Text
  | ']' :: rest => some rest
  | '\\' :: c :: rest => if c == '\n' then none else afterClass? rest
  | c :: rest => if c == '\n' || c == '\\' then none else afterClass? rest
  | [] => none

/-- Reads a piece of a pattern: a class, an escape or a plain character. -/
def patternPart : Scan Unit := do
  let c ← Scan.one fun c => !(c == '/' || c == '\n')
  if c == '[' then Scan.ofRest? afterClass?
  else if c == '\\' then discard <| Scan.one (· != '\n')

/-- Reads a regular expression with its flags. -/
def regex : Scan Unit := do
  Scan.token "/"
  let parts ← Scan.many patternPart
  guard !parts.isEmpty
  Scan.token "/"
  discard <| Scan.span fun c => 'a' ≤ c && c ≤ 'z'

end ComponentMarkdown.Script
