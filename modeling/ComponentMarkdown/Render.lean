import ComponentMarkdown.Options
import ComponentMarkdown.Render.Attributes
import ComponentMarkdown.Render.Writer
import ComponentMarkdown.Text.Escape

/-!
# Rendering

Tokens become nested calls, one on a line. An opening token writes `name({…}`, what it encloses
follows two columns further right, and the closing token writes `)`. The file has:

* elements and generic tokens;
* fenced code;
* `Render.rule`, which renders a token by its kind, and `render` for a list of tokens.
-/

namespace ComponentMarkdown

/-- Code that calls elements, and the names of these in order. -/
structure Rendered where
  code : Text
  tags : TextSet
deriving DecidableEq, Repr

namespace Render

/-! ## Elements -/

/-- A call of an element with attributes and children. -/
def element (tag : Text) (attrs : Attributes) (children : List Text) : Render Text := do
  let name := camelCase tag
  let call ← indented
    (name ++ ['('] ++ Text.join [',', ' '] (attrs.objectLiteral :: children) ++ [')'])
  useTag name
  return call

/-- What a token writes for its place in the nesting; nothing if it is hidden. -/
def token (t : Token) : Render (Option Text) := do
  if t.hidden then return none
  match t.nesting with
  | .closing =>
    moveOut
    return ← indented [')']
  | nesting =>
    let name := camelCase t.tag
    let start ← indented (name ++ ['('])
    useTag name
    let call := start ++ t.attrs.objectLiteral
    if nesting = .selfClosing then return call ++ [')']
    moveIn
    return call

/-! ## Fenced code -/

/-- The info string of a fence, resolved. -/
def fenceInfo (info : Text) : Text :=
  (unescape info).trim

/-- The language of a fence: the first word of its info string. -/
def fenceLanguage (info : Text) : Text :=
  info.takeWhile fun c => !isBlank c

/-- Adds a class behind the one that there is, if there is one. -/
def addClass (name : Text) : Attributes → Attributes
  | [] => [("class".toList, .text name)]
  | (key, value) :: attrs =>
    if key = "class".toList then
      let merge := fun (old : Text) => old ++ [' '] ++ name
      match value with
      | .text old => (key, .text (merge old)) :: attrs
      | .expression old => (key, .expression (merge old)) :: attrs
    else (key, value) :: addClass name attrs

/-- The code of a fence as the highlighter gives it, or as it is. -/
def highlighted (options : Options) (code language : Text) : Text :=
  match options.highlight.bind (· code language) with
  | some markup => if markup.isEmpty then code else markup
  | none => code

/-- Fenced code. Highlighted code that is a block of markup stays unquoted. -/
def fence (options : Options) (t : Token) : Render Text :=
  let info := fenceInfo t.info
  let language := fenceLanguage info
  let code := highlighted options t.content language
  if Text.startsWith "<pre".toList code then element t.tag t.attrs [code]
  else if info.isEmpty then element t.tag t.attrs [Quoted.quote code]
  else
    element t.tag (addClass (options.langPrefix ++ language) t.attrs) [Quoted.quote code]

/-! ## Tokens by kind -/

mutual

/-- The text of a token: its content if it is text, the text of its label if it is an image. -/
def tokenText : Token → Text
  | { kind, children, content, .. } =>
    match kind with
    | .text => content
    | .image => asText children
    | _ => []

/-- The text of tokens, which is what an image shows when it cannot be shown. -/
def asText : List Token → Text
  | [] => []
  | t :: tokens => tokenText t ++ asText tokens

end

/-- What a token writes. -/
def rule (options : Options) (t : Token) : Render (Option Text) := do
  match t.kind with
  | .codeInline | .codeBlock => return ← element t.tag t.attrs [Quoted.quote t.content]
  | .fence => return ← fence options t
  | .image =>
    token { t with attrs := Attributes.set "alt".toList (.text (asText t.children)) t.attrs }
  | .hardbreak => return ← element "br".toList [] []
  | .softbreak => if options.breaks then return ← element "br".toList [] [] else return none
  | .text => return ← indented (Quoted.quote t.content)
  | .embeddedBlock => return ← indented t.content.trim
  | .embeddedInline =>
    if t.nesting = .closing then moveOut
    let code ← indented t.content.trim
    if t.nesting = .opening then moveIn
    return code
  | _ => token t

/-- Results that are more than white space. -/
def keep (result : Option Text) : List Text :=
  (result.filter fun code => !Text.isAllBlank code).toList

/-- What inline tokens write. -/
def inline (options : Options) : List Token → Render (List Text)
  | [] => return []
  | t :: tokens => do
    let first ← rule options t
    let others ← inline options tokens
    return keep first ++ others

/-- What the tokens of a document write. -/
def tokens (options : Options) : List Token → Render (List Text)
  | [] => return []
  | t :: rest => do
    let first ←
      if t.kind = .inline then inline options t.children
      else keep <$> rule options t
    let others ← tokens options rest
    return first ++ others

end Render

/-- Renders the tokens of a document. -/
def render (options : Options) (tokens : List Token) : Rendered :=
  let (results, writer) := (Render.tokens options tokens).run { indent := options.initialIndent }
  { code := Text.join [',', '\n'] results, tags := writer.tags }

end ComponentMarkdown
