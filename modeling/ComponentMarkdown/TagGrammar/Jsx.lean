import ComponentMarkdown.TagGrammar

/-!
# The tags of JSX

An open tag is `<`, a name, attributes and braced groups each after white space, and `>` or `/>`.
The scanners below take the text behind what was read and return what is left of it. The file has:

* names and braced groups, in which strings are opaque;
* attributes and open tags;
* `TagGrammar.jsx`, which also takes a braced expression in inline text.
-/

namespace ComponentMarkdown.Jsx

def beginsName (c : Char) : Bool :=
  c.isAlpha || c == '_' || c == '$'

def continuesName (c : Char) : Bool :=
  c.isAlphanum || c == '_' || c == '$' || c == '.' || c == ':' || c == '-'

/-- A name at the beginning of the text, with what follows it. -/
def name? : Text → Option (Text × Text)
  | [] => none
  | c :: rest =>
    if beginsName c then some (c :: rest.takeWhile continuesName, rest.dropWhile continuesName)
    else none

def skipBlanks (s : Text) : Text :=
  s.dropWhile isAsciiBlank

def isQuote (c : Char) : Bool :=
  c == '"' || c == '\'' || c == '\x60'

mutual

/-- What follows the brace that closes the last of `depth` open braces. -/
def afterBraces? (depth : Nat) : Text → Option Text
  | [] => none
  | c :: rest =>
    if c == '{' then afterBraces? (depth + 1) rest
    else if c == '}' then if depth ≤ 1 then some rest else afterBraces? (depth - 1) rest
    else if isQuote c then afterQuote? depth c rest
    else afterBraces? depth rest

/-- Reads on inside a string that stands in `depth` open braces. -/
def afterQuote? (depth : Nat) (quote : Char) : Text → Option Text
  | [] => none
  | '\\' :: _ :: rest => afterQuote? depth quote rest
  | c :: rest => if c == quote then afterBraces? depth rest else afterQuote? depth quote rest

end

/-- What follows a quoted attribute value, which has no escapes. -/
def afterString? (quote : Char) (s : Text) : Option Text :=
  match s.dropWhile (· != quote) with
  | [] => none
  | _ :: rest => some rest

/-- What follows the value of an attribute. -/
def afterValue? : Text → Option Text
  | [] => none
  | c :: rest =>
    if c == '"' || c == '\'' then afterString? c rest
    else if c == '{' then afterBraces? 1 rest
    else none

/-- What follows an attribute: a name alone, or a name, `=` and a value. -/
def afterAttribute? (s : Text) : Option Text :=
  match name? s with
  | none => none
  | some (_, rest) =>
    match skipBlanks rest with
    | '=' :: value => afterValue? (skipBlanks value)
    | _ => some rest

/-- The end of an open tag whose name was read: whether it is self-closing, and what follows.
Attributes and braced groups stand after white space. `fuel` bounds their number. -/
def tagEnd? : Nat → Text → Option (Bool × Text)
  | 0, _ => none
  | fuel + 1, s =>
    match skipBlanks s with
    | [] => none
    | '>' :: rest => some (false, rest)
    | '/' :: rest =>
      match rest with
      | '>' :: rest => some (true, rest)
      | _ => none
    | c :: rest =>
      if !isAsciiBlank (s.headD c) then none
      else if c == '{' then (afterBraces? 1 rest).bind (tagEnd? fuel)
      else (afterAttribute? (c :: rest)).bind (tagEnd? fuel)

/-- An open tag: what it is called, whether it closes itself, and what follows it. -/
structure OpenTag where
  name : Text
  selfClosing : Bool
  rest : Text

/-- The open tag of an element, or a braced expression where the context admits one. -/
def openTag? (context : TagContext) : Text → Option OpenTag
  | '<' :: s => do
    let (name, rest) ← name? s
    let (selfClosing, rest) ← tagEnd? (rest.length + 1) rest
    return ⟨name, selfClosing, rest⟩
  | '{' :: s => do
    guard (context = .inline)
    let rest ← afterBraces? 1 s
    return ⟨[], true, rest⟩
  | _ => none

/-- A close tag: its name and what follows it. -/
def closeTag? : Text → Option (Text × Text)
  | '<' :: '/' :: s => do
    let (name, rest) ← name? (skipBlanks s)
    match skipBlanks rest with
    | '>' :: rest => return (name, rest)
    | _ => none
  | _ => none

end ComponentMarkdown.Jsx

namespace ComponentMarkdown

/-- The tags of JSX. -/
def TagGrammar.jsx : TagGrammar where
  openTag context s := (Jsx.openTag? context s).map fun tag =>
    ⟨tag.name, s.length - tag.rest.length⟩
  closeTag _ s := (Jsx.closeTag? s).map fun (name, rest) => ⟨name, s.length - rest.length⟩
  selfClosing context s := ((Jsx.openTag? context s).filter (·.selfClosing)).map fun tag =>
    s.length - tag.rest.length

end ComponentMarkdown
