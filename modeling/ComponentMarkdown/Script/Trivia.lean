import ComponentMarkdown.Text.Scan

/-!
# Gaps between tokens

White space and comments may stand between any two tokens. Besides `//` and `/* */` there are the
comments of HTML, `<!--` and `-->` up to the end of the line; they are comments only where no
operator can stand, since elsewhere their characters are operators.
-/

namespace ComponentMarkdown.Script

/-- The two sorts of comment. -/
inductive Comment where
  | script
  | html
deriving DecidableEq, Repr

/-- What may come next: an operand (or a statement, or a part of a tag), or an operator. -/
inductive Place where
  | operand
  | operator
deriving DecidableEq, Repr

/-- White space between tokens. -/
def isGapBlank (c : Char) : Bool :=
  let n := c.toNat
  (0x9 ≤ n && n ≤ 0xD) || n == 0x20 || n == 0xA0 || n == 0x1680 || (0x2000 ≤ n && n ≤ 0x200B) ||
    n == 0x2028 || n == 0x2029 || n == 0x202F || n == 0x205F || n == 0x2060 || n == 0x3000 ||
    n == 0xFEFF

/-- The white space of ASCII, vertical tab included. -/
def isPlainBlank (c : Char) : Bool :=
  (0x9 ≤ c.toNat && c.toNat ≤ 0xD) || c == ' '

/-- U+2028 and U+2029 end a line as a line feed does. -/
def isSeparator (c : Char) : Bool :=
  c.toNat == 0x2028 || c.toNat == 0x2029

/-- What follows the `*/` that ends a block comment. -/
def afterBlockComment? : Text → Option Text
  | '*' :: '/' :: rest => some rest
  | _ :: rest => afterBlockComment? rest
  | [] => none

/-- What follows a `//` or `/* */` comment. -/
def afterComment? : Text → Option Text
  | '/' :: '/' :: rest =>
    some (rest.dropWhile fun c => !(c == '\n' || c == '\r' || isSeparator c))
  | '/' :: '*' :: rest => afterBlockComment? rest
  | _ => none

/-- What follows a comment of HTML that begins behind plain blanks. -/
def afterHtmlComment? (s : Text) : Option Text :=
  let s := s.dropWhile fun c => isPlainBlank c || isSeparator c
  let toLineEnd := fun (rest : Text) => rest.dropWhile fun c => !(c == '\n' || isSeparator c)
  match s with
  | '<' :: '!' :: '-' :: '-' :: rest => some (toLineEnd rest)
  | '-' :: '-' :: '>' :: rest => some (toLineEnd rest)
  | _ => none

/-- The next comment of a gap and what follows it. -/
def nextComment? (place : Place) (s : Text) : Option (Comment × Text) :=
  match if place = .operand then afterHtmlComment? s else none with
  | some rest => some (.html, rest)
  | none => (afterComment? (s.dropWhile isGapBlank)).map (.script, ·)

/-- Skips a gap that holds at most `fuel` comments. -/
def skipGap (place : Place) : Nat → Text → List Comment × Text
  | 0, s => ([], s.dropWhile isGapBlank)
  | fuel + 1, s =>
    match nextComment? place s with
    | none => ([], s.dropWhile isGapBlank)
    | some (comment, rest) =>
      let (comments, rest) := skipGap place fuel rest
      (comment :: comments, rest)

/-- Reads a gap and gives its comments. -/
def gap (place : Place) : Scan (List Comment) := do
  let s ← get
  let (comments, rest) := skipGap place s.length s
  set rest
  return comments

/-- Reads a gap before an operand, a statement or a part of a tag. -/
def beforeOperand : Scan Unit := discard (gap .operand)

/-- Reads a gap behind an operand. -/
def afterOperand : Scan Unit := discard (gap .operator)

end ComponentMarkdown.Script
