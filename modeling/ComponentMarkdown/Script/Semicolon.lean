import ComponentMarkdown.Script.Trivia

/-!
# Inserted semicolons

A statement may end without a semicolon: at the end of the script, before a closing brace, and at
a line end unless the next line goes on with the statement.
-/

namespace ComponentMarkdown.Script

def isLineEnd (c : Char) : Bool :=
  c == '\n' || isSeparator c

/-- What a walk over blanks and comments found at its end. -/
inductive GapEnd where
  /-- A slash that begins no comment. -/
  | slash
  /-- A block comment on one line, where the walk was to stop. -/
  | sameLine
  /-- Some other character, or the end of the text. -/
  | reached
deriving DecidableEq

/-- What follows a block comment, up to the end of the text at most, and whether it held a line
end. -/
def skipBlockComment (sawLineEnd : Bool) : Text → Text × Bool × Bool
  | '*' :: '/' :: rest => (rest, true, sawLineEnd)
  | c :: rest => skipBlockComment (sawLineEnd || isLineEnd c) rest
  | [] => ([], false, sawLineEnd)

/-- Walks over blanks and comments. With `whole` unset the walk ends behind a block comment that no
slash follows. `sawLineEnd` tells whether a block comment held a line end. -/
def walkGap (whole : Bool) : Nat → Bool → Text → GapEnd × Text
  | 0, _, s => (.reached, s)
  | fuel + 1, sawLineEnd, s =>
    match s.dropWhile isPlainBlank with
    | '/' :: '/' :: rest => walkGap whole fuel sawLineEnd (rest.dropWhile fun c => !isLineEnd c)
    | '/' :: '*' :: rest =>
      let (rest, closed, sawLineEnd) := skipBlockComment sawLineEnd rest
      if closed && !whole && rest.head? != some '/' then
        (if sawLineEnd then .reached else .sameLine, rest)
      else walkGap whole fuel sawLineEnd rest
    | '/' :: rest => (.slash, rest)
    | rest => (.reached, rest)

/-- May a statement end before a line that begins with this text? A character that can only go on
with an expression says no. -/
def startsStatement : Text → Bool
  | '.' :: rest => (rest.headD ' ').isDigit
  | '+' :: rest => rest.headD ' ' == '+'
  | '-' :: rest => rest.headD ' ' == '-'
  | '!' :: rest => rest.headD ' ' != '='
  | 'i' :: 'n' :: rest =>
    if !(rest.headD ' ').isAlpha then false
    else match Text.dropPrefix? "stanceof".toList rest with
      | none => true
      | some rest => (rest.headD ' ').isAlpha
  | c :: _ =>
    !(c == '\x60' || c == ',' || c == ':' || c == ';' || c == '*' || c == '%' || c == '>' ||
      c == '<' || c == '=' || c == '[' || c == '(' || c == '?' || c == '^' || c == '|' ||
      c == '&' || c == '/')
  | [] => true

/-- Does a semicolon go right before this text? `place` tells whether an operator could come next:
if not, a comment up to the line end ends the statement as well. -/
def insertedBefore (place : Place) : Nat → Text → Bool
  | 0, _ => false
  | _ + 1, [] => true
  | fuel + 1, c :: s =>
    let (found, s) := if c == '/' then walkGap false (s.length + 1) false (c :: s)
      else (.reached, c :: s)
    if found = .slash then false
    else if c == '/' && found = .reached && place = .operand &&
        !(s.head? == some ',' || s.head? == some '=') then true
    else match s with
      | [] => false
      | c :: rest =>
        if c == '}' then true
        else if isLineEnd c then
          match walkGap true (rest.length + 1) false rest with
          | (.slash, _) => false
          | (_, next) => startsStatement next
        else isPlainBlank c && insertedBefore place fuel rest

/-- Does a semicolon go before this text or behind one of the comments it begins with? -/
def insertedNear (place : Place) : Nat → Text → Bool
  | 0, _ => false
  | fuel + 1, s =>
    insertedBefore place (s.length + 1) s ||
      match afterComment? (s.dropWhile isGapBlank) with
      | some rest => insertedNear place fuel rest
      | none => false

/-- Is a semicolon inserted here? -/
def semicolonInserted (place : Place) : Scan Bool := do
  let s ← get
  return insertedNear place (s.length + 1) s

/-- Reads the semicolon that ends a statement, which may be an inserted one. -/
def semicolon (place : Place) : Scan Unit := do
  if ← semicolonInserted place then return
  discard (gap place)
  Scan.token ";"

end ComponentMarkdown.Script
