import ComponentMarkdown.Text.Basic
import ComponentMarkdown.Text.Reference.Names

/-!
# Character references

`&name;`, `&#decimal;` and `&#xhex;` stand for a character. `decodeAll` resolves the references of
a text in one pass: what a reference stands for is not read again.
-/

namespace ComponentMarkdown.Reference

/-- The value of a digit in base 16. -/
def digitValue (c : Char) : Nat :=
  if c.isDigit then c.toNat - '0'.toNat
  else if 'a' ≤ c && c ≤ 'f' then c.toNat - 'a'.toNat + 10
  else c.toNat - 'A'.toNat + 10

/-- The number that the digits write in a base. -/
def number (base : Nat) (digits : Text) : Nat :=
  digits.foldl (fun value c => value * base + digitValue c) 0

/-- A number refers to a character if it is a scalar value and no control below the space, apart
from tab, line feed, form feed and carriage return. -/
def charOfNumber (n : Nat) : Option Char :=
  if h : n.isValidChar then
    if n < 0x20 && !(n == 0x9 || n == 0xA || n == 0xC || n == 0xD) then none
    else some (Char.ofNatAux n h)
  else none

/-- The character that the body of a reference (what stands between `&` and `;`) refers to. -/
def decode (body : Text) : Option Char :=
  match body with
  | '#' :: 'x' :: digits | '#' :: 'X' :: digits =>
    if digits.isEmpty || !digits.all isHexDigit then none
    else charOfNumber (number 16 digits)
  | '#' :: digits =>
    if digits.isEmpty || !digits.all Char.isDigit then none
    else charOfNumber (number 10 digits)
  | first :: _ =>
    ((namesBy first).find? (·.1.toList == body)).map (Char.ofNat ·.2)
  | [] => none

/-- Reads on behind an `&`; `body` holds the characters since then, the last one first. -/
def decodeFrom (body : Text) : Text → Text
  | [] => '&' :: body.reverse
  | '&' :: rest => '&' :: body.reverse ++ decodeFrom [] rest
  | ';' :: rest =>
    match decode body.reverse with
    | some c => c :: decodePlain rest
    | none => '&' :: body.reverse ++ ';' :: decodePlain rest
  | c :: rest => decodeFrom (c :: body) rest
where
  /-- Reads on outside a reference. -/
  decodePlain : Text → Text
    | [] => []
    | '&' :: rest => decodeFrom [] rest
    | c :: rest => c :: decodePlain rest

/-- Resolves the references of a text; what is no reference stays as it is. -/
def decodeAll (s : Text) : Text :=
  decodeFrom.decodePlain s

end ComponentMarkdown.Reference
