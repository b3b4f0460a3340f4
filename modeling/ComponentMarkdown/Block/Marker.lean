import ComponentMarkdown.Block.Scope

/-!
# List markers

An item begins with `-`, `+` or `*`, or with a number of at most nine digits and `.` or `)`. White
space or the end of the line follows.
-/

namespace ComponentMarkdown

/-- The marker of a list item: its number, if it has one, as it is written, its last character, and
what follows it on the line. -/
structure Marker where
  number : Option Text
  mark : Char
  rest : Text
deriving DecidableEq, Repr

namespace Marker

/-- How many columns the marker takes. -/
def width (marker : Marker) : Nat :=
  (marker.number.getD []).length + 1

/-- The characters of the marker. -/
def text (marker : Marker) : Text :=
  marker.number.getD [] ++ [marker.mark]

/-- The value of the number. -/
def value (marker : Marker) : Option Nat :=
  marker.number.map fun digits => digits.foldl (fun n c => n * 10 + (c.toNat - '0'.toNat)) 0

/-- May this follow a marker? -/
def endsMarker (rest : Text) : Bool :=
  rest.head?.all isSpaceOrTab

/-- A marker of a bullet list. -/
def bullet? : Text → Option Marker
  | mark :: rest =>
    if (mark == '*' || mark == '-' || mark == '+') && endsMarker rest then
      some ⟨none, mark, rest⟩
    else none
  | [] => none

/-- A marker of an ordered list. -/
def ordered? (content : Text) : Option Marker :=
  let digits := content.takeWhile Char.isDigit
  match content.dropWhile Char.isDigit with
  | mark :: rest =>
    if 1 ≤ digits.length && digits.length ≤ 9 && (mark == '.' || mark == ')') && endsMarker rest
    then some ⟨some digits, mark, rest⟩
    else none
  | [] => none

/-- The marker of a line. -/
def of? (content : Text) : Option Marker :=
  ordered? content <|> bullet? content

/-- Does an item with the other marker belong to the same list? -/
def continues (marker other : Marker) : Bool :=
  marker.number.isSome == other.number.isSome && marker.mark == other.mark

end Marker

end ComponentMarkdown
