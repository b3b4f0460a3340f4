import ComponentMarkdown.Script.Trivia

/-!
# Words

A word is an identifier or a keyword; only its place tells which. It may hold any character that
is no blank, no ASCII punctuation and no control, and escapes such as `\u0041`.
-/

namespace ComponentMarkdown.Script

/-- A character of a word; digits only behind the first one. -/
def isWordChar (c : Char) : Bool :=
  if c.toNat < 0x80 then c.isAlphanum || c == '_' || c == '$' || c.toNat == 0x7F
  else !isGapBlank c

def isWordStart (c : Char) : Bool :=
  isWordChar c && !c.isDigit

/-- Four hexadecimal digits, or any number of them in braces. -/
def unicodeDigits : Scan Unit :=
  (do Scan.token "\x7b"
      let digits ← Scan.span isHexDigit
      guard !digits.isEmpty
      Scan.token "\x7d") <|>
  (do for _ in [0, 1, 2, 3] do
        discard <| Scan.one isHexDigit)

/-- One character of a word, which may be written as an escape. -/
def wordPart (p : Char → Bool) : Scan Unit :=
  discard (Scan.one p) <|> (do Scan.token "\\u"; unicodeDigits)

/-- Reads a word as it is written. -/
def word : Scan Text := do
  let (_, text) ← Scan.source do
    wordPart isWordStart
    Scan.many (wordPart isWordChar)
  return text

/-- The word ahead, which is not read. -/
def wordAhead? : Scan (Option Text) := do
  let s ← get
  let found ← Scan.option word
  set s
  return found

/-- Reads the given word. -/
def keyword (name : String) : Scan Unit := do
  let found ← word
  guard (found == name.toList)

/-- Is the given word ahead? -/
def keywordAhead (name : String) : Scan Bool := do
  return (← wordAhead?) == some name.toList

/-- A word of ASCII that holds a dash, as tags and attributes may be called. -/
def dashedName : Scan Unit := do
  let isPart := fun (c : Char) => c.isAlphanum || c == '_' || c == '$'
  discard <| Scan.one fun c => isPart c && !c.isDigit
  discard <| Scan.span isPart
  Scan.token "-"
  discard <| Scan.span fun c => isPart c || c == '-'

end ComponentMarkdown.Script
