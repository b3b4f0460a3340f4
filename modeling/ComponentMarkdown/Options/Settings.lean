import ComponentMarkdown.Options
import ComponentMarkdown.Text.Reference
import ComponentMarkdown.Text.Scan

/-!
# Settings files

Options are read from TOML. A file may set each option once and nothing else, so only strings, truth
values and whole numbers occur as values. The file has:

* comments and line ends;
* strings, in the four forms that TOML has;
* whole numbers;
* `Options.ofSettings?`, which reads a file.
-/

namespace ComponentMarkdown.Settings

/-! ## Lines -/

/-- May the character stand in a comment? -/
def isPlain (c : Char) : Bool :=
  c == '\t' || (0x20 ≤ c.toNat && c.toNat != 0x7F)

def blanks : Scan Unit :=
  discard <| Scan.span isSpaceOrTab

/-- Reads a line end. -/
def lineEnd : Scan Unit :=
  Scan.token "\n" <|> Scan.token "\r\n"

/-- Reads the end of a line, which may be that of the file, with a comment before it. -/
def lineRest : Scan Unit := do
  blanks
  discard <| Scan.option (do Scan.token "#"; Scan.span isPlain)
  match ← Scan.peek? with
  | none => return
  | some _ => lineEnd

/-! ## Strings -/

/-- Reads `count` hexadecimal digits that write a character. -/
def codePoint (count : Nat) : Scan Char := do
  let digits := (← get).takeWhile isHexDigit |>.take count
  guard (digits.length == count)
  set ((← get).drop count)
  let n := Reference.number 16 digits
  if n.isValidChar then return Char.ofNat n else failure

/-- Reads an escape behind its backslash. -/
def escaped : Scan Char := do
  match ← Scan.one fun _ => true with
  | 'b' => return '\x08'
  | 't' => return '\t'
  | 'n' => return '\n'
  | 'f' => return '\x0c'
  | 'r' => return '\r'
  | '"' => return '"'
  | '\\' => return '\\'
  | 'u' => codePoint 4
  | 'U' => codePoint 8
  | _ => failure

/-- Reads a character of a string in double quotes. -/
def basicChar : Scan Text := do
  let c ← Scan.one fun c => isPlain c && c != '"'
  if c == '\\' then return [← escaped] else return [c]

/-- Reads a string in double quotes. -/
def basicString : Scan Text := do
  Scan.token "\""
  let parts ← Scan.many basicChar
  Scan.token "\""
  return parts.flatten

/-- Reads a string in single quotes, which has no escapes. -/
def literalString : Scan Text := do
  Scan.token "'"
  let text ← Scan.span fun c => isPlain c && c != '\''
  Scan.token "'"
  return text

/-- Reads a line end inside a string. -/
def innerLineEnd : Scan Text := do
  lineEnd
  return ['\n']

/-- Reads an escaped line end with all white space behind it. -/
def joinedLines : Scan Text := do
  Scan.token "\\"
  blanks
  lineEnd
  discard <| Scan.many ((do discard <| Scan.one isSpaceOrTab) <|> lineEnd)
  return []

/-- Reads one or two quotes that do not end a string of several lines. -/
def innerQuotes (quote : Char) : Scan Text := do
  let run := Text.runLength quote (← get)
  guard (1 ≤ run && run ≤ 2)
  set ((← get).drop run)
  return List.replicate run quote

/-- Reads a string between triple quotes, given how to read a part of it. Up to two quotes may stand
right before its end. -/
def longString (quote : Char) (part : Scan Text) : Scan Text := do
  Scan.token (String.ofList [quote, quote, quote])
  discard <| Scan.option lineEnd
  let parts ← Scan.many (part <|> innerLineEnd <|> innerQuotes quote)
  let run := Text.runLength quote (← get)
  guard (3 ≤ run && run ≤ 5)
  set ((← get).drop run)
  return parts.flatten ++ List.replicate (run - 3) quote

/-- Reads a string. -/
def string : Scan Text :=
  longString '"' (joinedLines <|> basicChar) <|>
  longString '\'' (do return [← Scan.one fun c => isPlain c && c != '\'']) <|>
  basicString <|> literalString

/-! ## Whole numbers -/

/-- Reads digits with single underscores between them. -/
def digits (p : Char → Bool) : Scan Text := do
  let first ← Scan.one p
  let rest ← Scan.many do
    discard <| Scan.option (Scan.token "_")
    Scan.one p
  return first :: rest

/-- Reads a number with a base before its digits. -/
def basedNumber (mark : String) (base : Nat) (p : Char → Bool) : Scan Nat := do
  Scan.token mark
  return Reference.number base (← digits p)

/-- Reads a decimal number without a leading zero. A negative one has to be zero. -/
def decimalNumber : Scan Nat := do
  let sign ← Scan.option (Scan.one fun c => c == '+' || c == '-')
  let written ← digits Char.isDigit
  guard (written.length == 1 || written.head? != some '0')
  let n := Reference.number 10 written
  guard (sign != some '-' || n == 0)
  return n

/-- Reads a number that is not negative and fits into 64 bits with a sign. -/
def wholeNumber : Scan Nat := do
  let n ← basedNumber "0x" 16 isHexDigit <|>
    basedNumber "0o" 8 (fun c => '0' ≤ c && c ≤ '7') <|>
    basedNumber "0b" 2 (fun c => c == '0' || c == '1') <|> decimalNumber
  guard (n ≤ 0x7FFFFFFFFFFFFFFF)
  return n

/-- Reads a truth value. -/
def truth : Scan Bool :=
  (do Scan.token "true"; return true) <|> (do Scan.token "false"; return false)

/-! ## Files -/

/-- Reads a key, which may be quoted. -/
def key : Scan Text := do
  match ← Scan.peek? with
  | some '"' => basicString
  | some '\'' => literalString
  | _ =>
    let name ← Scan.span fun c => c.isAlphanum || c == '_' || c == '-'
    guard !name.isEmpty
    return name

/-- Reads the value of a key into the options. -/
def value (options : Options) (name : Text) : Scan Options := do
  if name = "lang_prefix".toList then return { options with langPrefix := ← string }
  else if name = "breaks".toList then return { options with breaks := ← truth }
  else if name = "initial_indent".toList then
    return { options with initialIndent := ← wholeNumber }
  else if name = "max_nesting".toList then return { options with maxNesting := ← wholeNumber }
  else failure

/-- Reads lines up to the end of the file. `used` holds the keys that were set. -/
def linesUpTo : Nat → List Text → Options → Scan Options
  | 0, _, options => return options
  | fuel + 1, used, options => do
    blanks
    match ← Scan.peek? with
    | none => return options
    | some c =>
      if c == '#' || c == '\n' || c == '\r' then
        lineRest
        linesUpTo fuel used options
      else
        let name ← key
        guard !(used.contains name)
        blanks
        Scan.token "="
        blanks
        let options ← value options name
        lineRest
        linesUpTo fuel (name :: used) options

end ComponentMarkdown.Settings

namespace ComponentMarkdown

/-- The options that a settings file sets; those it does not set keep their defaults. -/
def Options.ofSettings? (file : Text) : Option Options :=
  let text := match file with
    | '\uFEFF' :: rest => rest
    | _ => file
  ((Settings.linesUpTo (text.length + 1) [] {}) text).map (·.1)

end ComponentMarkdown
