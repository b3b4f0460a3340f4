/-!
# Text

Text is a list of characters, and every position in it counts characters. The file has:

* white space, and trimming at either end;
* splitting into lines and joining with a separator;
* prefixes, runs and repetition.
-/

namespace ComponentMarkdown

abbrev Text := List Char

/-- Unicode white space. -/
def isBlank (c : Char) : Bool :=
  let n := c.toNat
  (0x9 ≤ n && n ≤ 0xD) || n == 0x20 || n == 0x85 || n == 0xA0 || n == 0x1680 ||
    (0x2000 ≤ n && n ≤ 0x200A) || n == 0x2028 || n == 0x2029 || n == 0x202F || n == 0x205F ||
    n == 0x3000

/-- The white space of HTML: space, tab, line feed, form feed and carriage return. -/
def isAsciiBlank (c : Char) : Bool :=
  c == ' ' || c == '\t' || c == '\n' || c == '\x0c' || c == '\r'

/-- Letters and digits lie between `0` and `z`. -/
theorem toNat_of_isAlphanum {c : Char} (letter : c.isAlphanum = true) :
    0x30 ≤ c.toNat ∧ c.toNat ≤ 0x7A := by
  have inRange : ∀ {low high : UInt32}, low ≤ c.val ∧ c.val ≤ high → 0x30 ≤ low.toNat →
      high.toNat ≤ 0x7A → 0x30 ≤ c.toNat ∧ c.toNat ≤ 0x7A := by
    intro low high inside first last
    exact ⟨Nat.le_trans first (UInt32.le_iff_toNat_le.mp inside.1),
      Nat.le_trans (UInt32.le_iff_toNat_le.mp inside.2) last⟩
  have both : ∀ {low high : UInt32}, (decide (low ≤ c.val) && decide (c.val ≤ high)) = true →
      low ≤ c.val ∧ c.val ≤ high := by
    intro low high
    rw [Bool.and_eq_true, decide_eq_true_iff, decide_eq_true_iff]
    exact id
  rcases Bool.or_eq_true_iff.mp letter with alpha | digit
  · rcases Bool.or_eq_true_iff.mp alpha with upper | lower
    · exact inRange (of_decide_eq_true upper) (by decide) (by decide)
    · exact inRange (both lower) (by decide) (by decide)
  · exact inRange (both digit) (by decide) (by decide)

theorem not_isAsciiBlank {c : Char} (letter : c.isAlphanum = true) : isAsciiBlank c = false := by
  cases blank : isAsciiBlank c with
  | false => rfl
  | true =>
    simp only [isAsciiBlank, Bool.or_eq_true, beq_iff_eq] at blank
    rcases blank with (((rfl | rfl) | rfl) | rfl) | rfl <;> cases letter

/-- A space or a tab. -/
def isSpaceOrTab (c : Char) : Bool :=
  c == ' ' || c == '\t'

/-- The characters of ASCII that are neither letters, digits, blanks nor controls. -/
def isAsciiPunctuation (c : Char) : Bool :=
  let n := c.toNat
  (0x21 ≤ n && n ≤ 0x2F) || (0x3A ≤ n && n ≤ 0x40) || (0x5B ≤ n && n ≤ 0x60) ||
    (0x7B ≤ n && n ≤ 0x7E)

/-- A digit, or a letter from `a` to `f` in either case. -/
def isHexDigit (c : Char) : Bool :=
  c.isDigit || ('a' ≤ c && c ≤ 'f') || ('A' ≤ c && c ≤ 'F')

namespace Text

/-- Drops the characters that satisfy `p` from the end. -/
def dropEndWhile (p : Char → Bool) (s : Text) : Text :=
  (s.reverse.dropWhile p).reverse

/-- Drops the characters that satisfy `p` from both ends. -/
def trimWhile (p : Char → Bool) (s : Text) : Text :=
  dropEndWhile p (s.dropWhile p)

/-- Drops white space from both ends. -/
def trim (s : Text) : Text :=
  trimWhile isBlank s

def isAllBlank (s : Text) : Bool :=
  s.all isBlank

/-- The rest of `s` after `head`, if `s` begins with it. -/
def dropPrefix? : Text → Text → Option Text
  | [], s => some s
  | _ :: _, [] => none
  | p :: ps, c :: s => if p == c then dropPrefix? ps s else none

def startsWith (head s : Text) : Bool :=
  (dropPrefix? head s).isSome

/-- How many characters at the front equal `marker`. -/
def runLength (marker : Char) (s : Text) : Nat :=
  (s.takeWhile (· == marker)).length

/-- The pieces of `s` between the characters that satisfy `p`; there is always at least one. -/
def splitWhere (p : Char → Bool) : Text → List Text
  | [] => [[]]
  | c :: s =>
    if p c then [] :: splitWhere p s
    else match splitWhere p s with
      | [] => [[c]]
      | piece :: pieces => (c :: piece) :: pieces

/-- The pieces of `s` between its line feeds. -/
def splitLines (s : Text) : List Text :=
  splitWhere (· == '\n') s

/-- Puts `separator` between the pieces. -/
def join (separator : Text) : List Text → Text
  | [] => []
  | [piece] => piece
  | piece :: pieces => piece ++ separator ++ join separator pieces

/-- Drops one carriage return from the end. -/
def dropCarriageReturn (line : Text) : Text :=
  match line.reverse with
  | '\r' :: rest => rest.reverse
  | _ => line

/-- The lines of `s` without their line ends; a line feed at the very end starts no further line. -/
def lines (s : Text) : List Text :=
  let pieces := splitLines s
  let ended := pieces.dropLast.map dropCarriageReturn
  match pieces.getLast? with
  | none | some [] => ended
  | some last => ended ++ [last]

def spaces (count : Nat) : Text :=
  List.replicate count ' '

/-- Decimal digits of a number. -/
def ofNat (n : Nat) : Text :=
  Nat.toDigits 10 n

/-- Puts `new` in the place of every `old`. -/
def replaceChar (old new : Char) (s : Text) : Text :=
  s.map fun c => if c == old then new else c

end Text

end ComponentMarkdown
