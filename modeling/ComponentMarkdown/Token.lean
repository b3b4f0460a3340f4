import ComponentMarkdown.Text.Basic

/-!
# Tokens

A parsed document is a flat list of tokens. An opening token and the closing token that answers it
enclose what lies between them; every other token is complete on its own.
-/

namespace ComponentMarkdown

/-- What a token stands for. -/
inductive TokenKind where
  | paragraphOpen | paragraphClose
  | headingOpen | headingClose
  | blockquoteOpen | blockquoteClose
  | bulletListOpen | bulletListClose
  | orderedListOpen | orderedListClose
  | listItemOpen | listItemClose
  | hr
  | codeBlock
  | fence
  /-- The text of a paragraph or heading; its children are the inline tokens. -/
  | inline
  | text
  | codeInline
  | softbreak
  | hardbreak
  | emOpen | emClose
  | strongOpen | strongClose
  | linkOpen | linkClose
  | image
  /-- Embedded markup on lines of its own. -/
  | embeddedBlock
  /-- Embedded markup inside a run of text. -/
  | embeddedInline
deriving DecidableEq, Repr

/-- The name under which a token is written. -/
def TokenKind.name : TokenKind → String
  | paragraphOpen => "paragraph_open"
  | paragraphClose => "paragraph_close"
  | headingOpen => "heading_open"
  | headingClose => "heading_close"
  | blockquoteOpen => "blockquote_open"
  | blockquoteClose => "blockquote_close"
  | bulletListOpen => "bullet_list_open"
  | bulletListClose => "bullet_list_close"
  | orderedListOpen => "ordered_list_open"
  | orderedListClose => "ordered_list_close"
  | listItemOpen => "list_item_open"
  | listItemClose => "list_item_close"
  | hr => "hr"
  | codeBlock => "code_block"
  | fence => "fence"
  | inline => "inline"
  | text => "text"
  | codeInline => "code_inline"
  | softbreak => "softbreak"
  | hardbreak => "hardbreak"
  | emOpen => "em_open"
  | emClose => "em_close"
  | strongOpen => "strong_open"
  | strongClose => "strong_close"
  | linkOpen => "link_open"
  | linkClose => "link_close"
  | image => "image"
  | embeddedBlock => "embedded_block"
  | embeddedInline => "embedded_inline"

/-- Every kind of token. -/
def TokenKind.all : List TokenKind :=
  [paragraphOpen, paragraphClose, headingOpen, headingClose, blockquoteOpen, blockquoteClose,
   bulletListOpen, bulletListClose, orderedListOpen, orderedListClose, listItemOpen, listItemClose,
   hr, codeBlock, fence, inline, text, codeInline, softbreak, hardbreak, emOpen, emClose,
   strongOpen, strongClose, linkOpen, linkClose, image, embeddedBlock, embeddedInline]

def TokenKind.ofName? (name : String) : Option TokenKind :=
  TokenKind.all.find? (·.name == name)

/-- The part a token plays in the nesting. -/
inductive Nesting where
  | opening
  | selfClosing
  | closing
deriving DecidableEq, Repr

namespace Nesting

/-- By how much a token changes the depth of what follows. -/
def delta : Nesting → Int
  | opening => 1
  | selfClosing => 0
  | closing => -1

def name : Nesting → String
  | opening => "opening"
  | selfClosing => "self_closing"
  | closing => "closing"

def ofName? (name : String) : Option Nesting :=
  [opening, selfClosing, closing].find? (·.name == name)

end Nesting

/-- The value of an attribute: text, which is quoted when it is written, or code, which is not. -/
inductive AttributeValue where
  | text (value : Text)
  | expression (code : Text)
deriving DecidableEq, Repr

/-- The characters of a value, of either kind. -/
def AttributeValue.content : AttributeValue → Text
  | text value => value
  | expression code => code

/-- Attributes in the order in which they are written. -/
abbrev Attributes := List (Text × AttributeValue)

namespace Attributes

def index? (attrs : Attributes) (name : Text) : Option Nat :=
  attrs.findIdx? (·.1 == name)

def get? (attrs : Attributes) (name : Text) : Option AttributeValue :=
  (attrs.find? (·.1 == name)).map (·.2)

def push (attrs : Attributes) (name : Text) (value : AttributeValue) : Attributes :=
  attrs ++ [(name, value)]

/-- Replaces the first value of `name`, or adds one at the end. -/
def set (name : Text) (value : AttributeValue) : Attributes → Attributes
  | [] => [(name, value)]
  | attr :: attrs => if attr.1 == name then (name, value) :: attrs else attr :: set name value attrs

end Attributes

/-- One token of a document. `map` holds the lines of a block, the second one excluded. -/
structure Token where
  kind : TokenKind
  tag : Text
  nesting : Nesting
  attrs : Attributes := []
  map : Option (Nat × Nat) := none
  level : Nat := 0
  children : List Token := []
  content : Text := []
  markup : Text := []
  info : Text := []
  block : Bool := false
  /-- A hidden token is not rendered. -/
  hidden : Bool := false
deriving Repr

end ComponentMarkdown
