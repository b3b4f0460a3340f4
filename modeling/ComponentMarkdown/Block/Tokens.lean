import ComponentMarkdown.Block.Tree
import ComponentMarkdown.Token

/-!
# Tokens of blocks

What a block encloses is one level deeper than the block. The inline token of a paragraph or a
heading holds its text.
-/

namespace ComponentMarkdown

/-- A token of a block that is complete on its own. -/
def blockToken (kind : TokenKind) (tag : Text) (level : Nat) (span : LineSpan) : Token :=
  { kind, tag, nesting := .selfClosing, map := some span, level, block := true }

/-- An opening token, tokens one level deeper, and a closing token without lines. -/
def encloseBlock (kinds : TokenKind × TokenKind) (tag : Text) (level : Nat) (span : LineSpan)
    (markup : Text) (body : List Token) : List Token :=
  { blockToken kinds.1 tag level span with nesting := .opening, markup } :: body ++
    [{ blockToken kinds.2 tag level span with nesting := .closing, map := none, markup }]

/-- The token for the text of a paragraph or a heading. -/
def inlineToken (level : Nat) (span : LineSpan) (content : Text) : Token :=
  { blockToken .inline [] level span with content }

/-- Marks the first token as given. -/
def adjustFirst (adjust : Token → Token) : List Token → List Token
  | [] => []
  | token :: tokens => adjust token :: tokens

/-- The kinds of the tokens of a list. -/
def listKinds (ordered : Bool) : TokenKind × TokenKind :=
  if ordered then (.orderedListOpen, .orderedListClose) else (.bulletListOpen, .bulletListClose)

/-- The attribute that holds the number of the first item, unless it is one. -/
def startAttributes (number : Option Nat) : Attributes :=
  match number with
  | none | some 1 => []
  | some n => [("start".toList, .text (Text.ofNat n))]

mutual

/-- The tokens of a block. -/
def Block.tokens (level : Nat) : Block → List Token
  | .paragraph content span hidden =>
    [{ blockToken .paragraphOpen ['p'] level span with nesting := .opening, hidden },
     inlineToken (level + 1) span content,
     { blockToken .paragraphClose ['p'] level span with nesting := .closing, map := none, hidden }]
  | .heading depth content span =>
    encloseBlock (.headingOpen, .headingClose) ('h' :: Text.ofNat depth) level span
      (List.replicate depth '#') [inlineToken (level + 1) span content]
  | .code content span => [{ blockToken .codeBlock "code".toList level span with content }]
  | .fence markup info content span =>
    [{ blockToken .fence "code".toList level span with markup, info, content }]
  | .hr markup span => [{ blockToken .hr "hr".toList level span with markup }]
  | .embedded call span => [{ blockToken .embeddedBlock [] level span with content := call }]
  | .blockquote body span =>
    encloseBlock (.blockquoteOpen, .blockquoteClose) "blockquote".toList level span ['>']
      (Block.allTokens (level + 1) body)
  | .list number marker items span =>
    let tag := (if number.isSome then "ol" else "ul").toList
    adjustFirst ({ · with attrs := startAttributes number })
      (encloseBlock (listKinds number.isSome) tag level span [marker]
        (ListItem.allTokens marker (level + 1) items))

/-- The tokens of blocks one after the other. -/
def Block.allTokens (level : Nat) : List Block → List Token
  | [] => []
  | block :: blocks => block.tokens level ++ Block.allTokens level blocks

/-- The tokens of an item of a list with the given marker. -/
def ListItem.tokens (marker : Char) (level : Nat) : ListItem → List Token
  | .mk number body span =>
    adjustFirst ({ · with info := number })
      (encloseBlock (.listItemOpen, .listItemClose) "li".toList level span [marker]
        (Block.allTokens (level + 1) body))

/-- The tokens of items one after the other. -/
def ListItem.allTokens (marker : Char) (level : Nat) : List ListItem → List Token
  | [] => []
  | item :: items => item.tokens marker level ++ ListItem.allTokens marker level items

end

end ComponentMarkdown
