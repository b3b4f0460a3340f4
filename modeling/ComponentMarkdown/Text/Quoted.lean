import ComponentMarkdown.Text.Basic

/-!
# Quoted strings

The written form of a string in JSON, which is also a string literal of JavaScript: quotes,
backslashes and the control characters of ASCII are escaped, all else stands for itself.
-/

namespace ComponentMarkdown.Quoted

def hexDigit (n : Nat) : Char :=
  (Nat.toDigits 16 n).headD '0'

/-- What stands for one character between the quotes. -/
def escapeChar (c : Char) : Text :=
  match c with
  | '"' => ['\\', '"']
  | '\\' => ['\\', '\\']
  | '\x08' => ['\\', 'b']
  | '\x0c' => ['\\', 'f']
  | '\n' => ['\\', 'n']
  | '\r' => ['\\', 'r']
  | '\t' => ['\\', 't']
  | c =>
    if c.toNat < 0x20 then
      ['\\', 'u', '0', '0', hexDigit (c.toNat / 16), hexDigit (c.toNat % 16)]
    else [c]

/-- The text with a quote at either end and its characters escaped. -/
def quote (s : Text) : Text :=
  '"' :: s.flatMap escapeChar ++ ['"']

end ComponentMarkdown.Quoted
