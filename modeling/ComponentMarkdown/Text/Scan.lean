import ComponentMarkdown.Text.Basic

/-!
# Scanning

A scanner reads from the front of a text and leaves the rest, or fails and leaves all. The
scanners of this file read single characters, fixed words and repetitions.
-/

namespace ComponentMarkdown

/-- Reads a value from the front of a text, which it shortens. -/
abbrev Scan := StateT Text Option

namespace Scan

variable {α : Type}

def peek? : Scan (Option Char) := do
  return (← get).head?

/-- Does the text ahead begin with `head`? -/
def ahead (head : String) : Scan Bool := do
  return Text.startsWith head.toList (← get)

/-- Reads exactly `head`. -/
def token (head : String) : Scan Unit := do
  match Text.dropPrefix? head.toList (← get) with
  | some rest => set rest
  | none => failure

/-- Reads one character that satisfies `p`. -/
def one (p : Char → Bool) : Scan Char := do
  match ← get with
  | c :: rest => if p c then set rest; return c else failure
  | [] => failure

/-- Reads the longest run of characters that satisfy `p`. -/
def span (p : Char → Bool) : Scan Text := do
  let s ← get
  set (s.dropWhile p)
  return s.takeWhile p

/-- What `scan` reads, or nothing. -/
def option (scan : Scan α) : Scan (Option α) :=
  (some <$> scan) <|> pure none

/-- Would `scan` succeed? Nothing is read. -/
def test (scan : Scan α) : Scan Bool := fun s =>
  some ((scan s).isSome, s)

/-- The text that `scan` reads. -/
def source (scan : Scan α) : Scan (α × Text) := do
  let before ← get
  let value ← scan
  let after ← get
  return (value, before.take (before.length - after.length))

/-- Turns a function on the text ahead into a scanner. -/
def ofRest? (read : Text → Option Text) : Scan Unit := do
  match read (← get) with
  | some rest => set rest
  | none => failure

/-- Repeats `scan` up to `fuel` times, as long as it succeeds. -/
def manyUpTo (scan : Scan α) : Nat → Scan (List α)
  | 0 => return []
  | fuel + 1 => do
    match ← option scan with
    | none => return []
    | some value => return value :: (← manyUpTo scan fuel)

/-- Repeats `scan`, which must shorten the text, as long as it succeeds. -/
def many (scan : Scan α) : Scan (List α) := do
  manyUpTo scan (← get).length

end Scan

end ComponentMarkdown
