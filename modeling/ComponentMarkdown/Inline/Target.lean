import ComponentMarkdown.Inline.Tree
import ComponentMarkdown.Text.Escape

/-!
# Link targets

What follows the label of a link: `(destination "title")`. Both parts may be missing. The functions
below give what they read and what is left.
-/

namespace ComponentMarkdown

namespace Target

/-- Puts characters in front of what was read. -/
def cons (read : Text) : Option (Text × Text) → Option (Text × Text) :=
  Option.map fun (more, rest) => (read ++ more, rest)

/-- A destination up to its closing angle bracket. -/
def angled? : Text → Option (Text × Text)
  | [] => none
  | '\\' :: c :: rest => cons ['\\', c] (angled? rest)
  | c :: rest =>
    if c == '>' then some ([], rest)
    else if c == '\n' || c == '<' then none
    else cons [c] (angled? rest)

/-- Does the character end a bare destination? -/
def endsBare (c : Char) : Bool :=
  c.toNat ≤ 0x20 || c.toNat == 0x7F

/-- A destination with `depth` parentheses open, of which at most 32 may be. -/
def bare? (depth : Nat) : Text → Option (Text × Text)
  | [] => if depth == 0 then some ([], []) else none
  | '\\' :: c :: rest => cons ['\\', c] (bare? depth rest)
  | c :: rest =>
    if endsBare c then if depth == 0 then some ([], c :: rest) else none
    else if c == '(' then if depth < 32 then cons [c] (bare? (depth + 1) rest) else none
    else if c == ')' then
      if depth == 0 then some ([], c :: rest) else cons [c] (bare? (depth - 1) rest)
    else cons [c] (bare? depth rest)

/-- A destination of either form, resolved. -/
def destination? (s : Text) : Option (Text × Text) :=
  match s with
  | '<' :: rest => (angled? rest).map fun (raw, rest) => (unescape raw, rest)
  | _ => do
    let (raw, rest) ← bare? 0 s
    guard !raw.isEmpty
    return (unescape raw, rest)

/-- A title up to its closing mark; no parenthesis opens inside parentheses. -/
def titleUpTo? (close : Char) : Text → Option (Text × Text)
  | [] => none
  | '\\' :: c :: rest => cons ['\\', c] (titleUpTo? close rest)
  | c :: rest =>
    if c == close then some ([], rest)
    else if c == '(' && close == ')' then none
    else cons [c] (titleUpTo? close rest)

/-- A title in quotes or parentheses, resolved. -/
def title? : Text → Option (Text × Text)
  | [] => none
  | c :: rest => do
    let close ← if c == '"' || c == '\'' then some c else if c == '(' then some ')' else none
    let (raw, rest) ← titleUpTo? close rest
    return (unescape raw, rest)

/-- Drops spaces, tabs and line ends. -/
def skipBlanks (s : Text) : Text :=
  s.dropWhile fun c => c == ' ' || c == '\t' || c == '\n'

/-- The title behind a destination, if white space separates them. -/
def titleBehind (rest : Text) : Option Text × Text :=
  let behind := skipBlanks rest
  if behind.length < rest.length then
    match title? behind with
    | some (title, rest) => (some title, skipBlanks rest)
    | none => (none, behind)
  else (none, behind)

/-- A target at the beginning of a text. -/
def read? : Text → Option (Target × Text)
  | '(' :: s =>
    match skipBlanks s with
    | ')' :: rest => some ({ href := [] }, rest)
    | s => do
      guard !s.isEmpty
      let (href, rest) ← destination? s
      let (title, rest) := titleBehind rest
      match rest with
      | ')' :: rest => return ({ href, title }, rest)
      | _ => none
  | _ => none

end Target

end ComponentMarkdown
