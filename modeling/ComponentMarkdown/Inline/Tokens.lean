import ComponentMarkdown.Inline.Tree
import ComponentMarkdown.Token

/-!
# Tokens of inline content

Adjacent literals make one text token. A body is one level deeper than the tokens around it.
-/

namespace ComponentMarkdown

/-- The token for pending text, if there is any. -/
def textTokens (level : Nat) (pending : Text) : List Token :=
  if pending.isEmpty then []
  else [{ kind := .text, tag := [], nesting := .selfClosing, level, content := pending }]

@[simp] theorem textTokens_nil (level : Nat) : textTokens level [] = [] := rfl

/-- The token for a line end: a hard break if two spaces precede it. The spaces go. -/
def breakTokens (level : Nat) (pending : Text) : List Token :=
  let isHard := Text.startsWith [' ', ' '] pending.reverse
  textTokens level (pending.dropEndWhile (· == ' ')) ++
    [{ kind := if isHard then .hardbreak else .softbreak, tag := ['b', 'r'],
       nesting := .selfClosing, level }]

/-- The attributes of a target; `name` is that of the address. -/
def Target.attrs (target : Target) (name : String) : Attributes :=
  [(name.toList, .text target.href)]

def Target.titleAttributes (target : Target) : Attributes :=
  (target.title.map fun title => ("title".toList, AttributeValue.text title)).toList

/-- An opening token, tokens one level deeper, and a closing token. -/
def enclose (level : Nat) (opening closing : Token) (body : List Token) : List Token :=
  { opening with nesting := .opening, level } :: body ++
    [{ closing with nesting := .closing, level }]

mutual

/-- The tokens that a piece adds behind pending text, and the text that is pending then. -/
def Inline.emit (level : Nat) (pending : Text) : Inline → List Token × Text
  | .literal text => ([], pending ++ text)
  | .lineBreak => (breakTokens level pending, [])
  | .hardBreak =>
    (textTokens level pending ++
      [{ kind := .hardbreak, tag := ['b', 'r'], nesting := .selfClosing, level }], [])
  | .code ticks content =>
    (textTokens level pending ++
      [{ kind := .codeInline, tag := "code".toList, nesting := .selfClosing, level,
         markup := ticks, content }], [])
  | .autolink address href =>
    let token : Token :=
      { kind := .linkOpen, tag := ['a'], nesting := .opening, markup := "autolink".toList,
        info := "auto".toList }
    (textTokens level pending ++
      enclose level { token with attrs := [("href".toList, .text href)] }
        { token with kind := .linkClose } (textTokens (level + 1) address), [])
  | .embedded call =>
    (textTokens level pending ++
      [{ kind := .embeddedInline, tag := [], nesting := .selfClosing, level, content := call }], [])
  | .emphasis marker strong body =>
    let markup := List.replicate (if strong then 2 else 1) marker
    let tag := (if strong then "strong" else "em").toList
    (textTokens level pending ++
      enclose level
        { kind := if strong then .strongOpen else .emOpen, tag, nesting := .opening, markup }
        { kind := if strong then .strongClose else .emClose, tag, nesting := .closing, markup }
        (Inline.emitAll (level + 1) [] body), [])
  | .link target body =>
    (textTokens level pending ++
      enclose level
        { kind := .linkOpen, tag := ['a'], nesting := .opening,
          attrs := target.attrs "href" ++ target.titleAttributes }
        { kind := .linkClose, tag := ['a'], nesting := .closing }
        (Inline.emitAll (level + 1) [] body), [])
  | .image target label body =>
    (textTokens level pending ++
      [{ kind := .image, tag := "img".toList, nesting := .selfClosing, level,
         attrs := target.attrs "src" ++ ("alt".toList, .text []) :: target.titleAttributes,
         children := Inline.emitAll 0 [] body, content := label }], [])
  | .element call body =>
    (textTokens level pending ++
      enclose level
        { kind := .embeddedInline, tag := [], nesting := .opening, content := call.dropLast }
        { kind := .embeddedInline, tag := [], nesting := .closing,
          content := call.getLast?.toList }
        (Inline.emitAll (level + 1) [] body), [])

/-- The tokens of pieces behind pending text; what is pending at the end becomes a token as well. -/
def Inline.emitAll (level : Nat) (pending : Text) : List Inline → List Token
  | [] => textTokens level pending
  | piece :: pieces =>
    let (tokens, pending) := piece.emit level pending
    tokens ++ Inline.emitAll level pending pieces

end

/-- The tokens of inline content. -/
def Inline.tokens (pieces : List Inline) : List Token :=
  Inline.emitAll 0 [] pieces

end ComponentMarkdown
