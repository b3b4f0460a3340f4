import ComponentMarkdown.Script.Rules

/-!
# Markup elements

Elements, their attributes and their bodies. The names of an open tag and its close tag need not
agree here. Text between the parts of a body is kept as it is written.
-/

namespace ComponentMarkdown.Script

/-! ## Names -/

/-- Reads one part of a name: a word, or a word with dashes. -/
def namePart : Scan Unit :=
  dashedName <|> discard word

/-- Reads a name with a colon in it. -/
def namespacedName : Scan Unit := do
  namePart
  beforeOperand
  Scan.token ":"
  beforeOperand
  namePart

/-- Reads a name with dots in it, which has no dashes. -/
def dottedName : Scan Unit := do
  guard !(← Scan.test dashedName)
  discard word
  let more ← Scan.many do
    beforeOperand
    Scan.token "."
    beforeOperand
    word
  guard !more.isEmpty

/-- Reads the name of an element as it is written. -/
def writtenName : Scan Text := do
  let (_, name) ← Scan.source (namespacedName <|> dottedName <|> namePart)
  return name

/-- Reads the name of an attribute as it is written. -/
def attributeName : Scan Text := do
  let (_, name) ← Scan.source (namespacedName <|> namePart)
  return name

/-! ## Character references and strings -/

/-- The rest behind at least one and at most `most` characters that satisfy `p`. -/
def afterUpTo? (p : Char → Bool) (most : Nat) (s : Text) : Option Text :=
  let found := (s.take most).takeWhile p
  if found.isEmpty then none else some (s.drop found.length)

/-- The rest behind a character reference; its semicolon may be missing. -/
def afterReference? : Text → Option Text
  | '&' :: s => do
    let hex := match s with
      | '#' :: 'x' :: rest | '#' :: 'X' :: rest => afterUpTo? isHexDigit 6 rest
      | _ => none
    let decimal := match s with
      | '#' :: rest => afterUpTo? Char.isDigit 5 rest
      | _ => none
    let rest ← hex <|> decimal <|> afterUpTo? Char.isAlpha 30 s
    match rest with
    | ';' :: rest => return rest
    | rest => return rest
  | _ => none

/-- The rest behind plain characters of an attribute string. An `&` is plain unless a letter or `#`
follows it. -/
def afterPlain (quote : Char) : Text → Text
  | '&' :: c :: rest =>
    if c == '#' || c.isAlpha then '&' :: c :: rest else afterPlain quote rest
  | c :: rest => if c == quote || c == '&' then c :: rest else afterPlain quote rest
  | [] => []

/-- Reads a piece of an attribute string: a comment of HTML, plain characters or a reference. -/
def attributeStringPart (quote : Char) : Scan Unit :=
  Scan.ofRest? afterHtmlComment? <|>
  (do let s ← get
      let rest := afterPlain quote s
      guard (rest.length < s.length)
      set rest) <|>
  Scan.ofRest? afterReference?

/-- Reads an attribute string and gives what stands between its quotes. -/
def attributeString (quote : Char) : Scan Text := do
  discard <| Scan.one (· == quote)
  let (_, value) ← Scan.source (Scan.many (attributeStringPart quote))
  discard <| Scan.one (· == quote)
  return value

/-! ## Containers -/

/-- Reads code in braces. -/
def container (r : Rules) : Scan Container := do
  let (content, source) ← Scan.source do
    Scan.token "\x7b"
    let comments ← gap .operand
    let content ←
      if ← Scan.ahead "\x7d" then pure ContainerContent.blank
      else if ← Scan.ahead "..." then do
        Scan.token "..."
        discard <| r.value false
        pure .spread
      else do
        discard <| r.sequence false
        pure .code
    afterOperand
    Scan.token "\x7d"
    return if comments.contains .html then .code else content
  return ⟨source, content⟩

/-! ## Tags -/

/-- Reads an attribute with its name. -/
def namedAttribute (r : Rules) : Scan Attribute := do
  let name ← attributeName
  let comments ← Scan.option do
    let before ← gap .operand
    Scan.token "="
    let behind ← gap .operand
    return before ++ behind
  match comments with
  | none => return .flag name
  | some comments =>
    let part ← match ← Scan.peek? with
      | some '"' => Attribute.text name <$> attributeString '"'
      | some '\'' => Attribute.text name <$> attributeString '\''
      | some '{' => Attribute.code name <$> container r
      | some '<' => Attribute.element name <$> r.element
      | _ => failure
    return if comments.isEmpty then part else .interrupted name

/-- The comments of HTML in a gap, as parts of a tag. -/
def commentAttributes (comments : List Comment) : List Attribute :=
  (comments.filter (· == .html)).map fun _ => .comment

/-- Reads the attributes of a tag and its end: is the tag self-closing? -/
def tagRest (r : Rules) : Nat → Scan (List Attribute × Bool)
  | 0 => failure
  | fuel + 1 => do
    let comments := commentAttributes (← gap .operand)
    if ← Scan.ahead ">" then
      Scan.token ">"
      return (comments, false)
    else if ← Scan.ahead "/>" then
      Scan.token "/>"
      return (comments, true)
    else
      let part ←
        if ← Scan.ahead "\x7b" then Attribute.container <$> container r
        else namedAttribute r
      let (more, selfClosing) ← tagRest r fuel
      return (comments ++ part :: more, selfClosing)

/-! ## Bodies -/

/-- Is this character never part of text between tags? -/
def endsText (c : Char) : Bool :=
  c == '<' || c == '>' || c == '{' || c == '}' || c == '&' || c == '\x00'

/-- Does a run of characters count as text? Blanks do not if they begin at a line end. -/
def countsAsText : Bool → Text → Bool
  | _, [] => false
  | atLineEnd, c :: rest =>
    if c == '\n' then countsAsText true rest
    else if atLineEnd && isPlainBlank c then countsAsText true rest
    else true

/-- Reads the gap before a part of a body. -/
def bodyGap : Scan Unit := do
  let (text, rest) := (← get).span fun c => !endsText c
  if countsAsText false text then set rest
  else match afterHtmlComment? rest with
    | some rest => set rest
    | none => set ((← get).dropWhile isGapBlank)

/-- Reads text up to the next nested part or close tag of a body. -/
def bodyText : Nat → Scan Unit
  | 0 => failure
  | fuel + 1 => do
    let before ← get
    bodyGap
    let after ← get
    if after.length < before.length then bodyText fuel
    else if ← Scan.ahead "&" then
      Scan.ofRest? afterReference?
      bodyText fuel

/-- Reads the body of an element and its close tag, whose name may be missing. -/
def bodyRest (r : Rules) : Nat → Scan (List Child × Text)
  | 0 => failure
  | fuel + 1 => do
    let (_, raw) ← Scan.source (bodyText ((← get).length + 1))
    if ← Scan.ahead "</" then
      Scan.token "</"
      beforeOperand
      let name ← Scan.option writtenName
      beforeOperand
      Scan.token ">"
      return ([.text raw], name.getD [])
    let child ←
      if ← Scan.ahead "<" then Child.element <$> r.element
      else Child.container <$> container r
    let (children, closeName) ← bodyRest r fuel
    return (.text raw :: child :: children, closeName)

/-- Reads an element. Without a name its open tag has no attributes either. -/
def element (r : Rules) : Scan Element := do
  Scan.token "<"
  let comments := commentAttributes (← gap .operand)
  if ← Scan.ahead ">" then
    Scan.token ">"
    let (children, closeName) ← bodyRest r ((← get).length + 1)
    return .pair [] comments children closeName
  let name ← writtenName
  let (attributes, selfClosing) ← tagRest r ((← get).length + 1)
  if selfClosing then return .selfClosing name (comments ++ attributes)
  let (children, closeName) ← bodyRest r ((← get).length + 1)
  return .pair name (comments ++ attributes) children closeName

end ComponentMarkdown.Script
