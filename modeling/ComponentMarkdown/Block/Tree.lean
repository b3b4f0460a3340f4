import ComponentMarkdown.Text.Basic

/-!
# Blocks

The blocks of a document, as a tree. A span holds the first line of a block and the line behind its
last one.
-/

namespace ComponentMarkdown

abbrev LineSpan := Nat × Nat

mutual

inductive Block where
  /-- A hidden paragraph, as tight lists have them, shows its content only. -/
  | paragraph (content : Text) (span : LineSpan) (hidden : Bool)
  | heading (depth : Nat) (content : Text) (span : LineSpan)
  | code (content : Text) (span : LineSpan)
  | fence (markup info content : Text) (span : LineSpan)
  | hr (markup : Text) (span : LineSpan)
  | embedded (call : Text) (span : LineSpan)
  | blockquote (body : List Block) (span : LineSpan)
  /-- An ordered list has the number of its first item. -/
  | list (number : Option Nat) (marker : Char) (items : List ListItem) (span : LineSpan)

/-- The number of an item is kept as it is written; items of bullet lists have none. -/
inductive ListItem where
  | mk (number : Text) (body : List Block) (span : LineSpan)

end

/-- The lines of a block. -/
def Block.span : Block → LineSpan
  | paragraph _ span _ => span
  | heading _ _ span => span
  | code _ span => span
  | fence _ _ _ span => span
  | hr _ span => span
  | embedded _ span => span
  | blockquote _ span => span
  | list _ _ _ span => span

/-- Hides a paragraph; other blocks stay as they are. -/
def Block.hideParagraph : Block → Block
  | paragraph content span _ => paragraph content span true
  | block => block

/-- Hides the paragraphs that are direct children of the item. -/
def ListItem.tighten : ListItem → ListItem
  | mk number body span => mk number (body.map Block.hideParagraph) span

end ComponentMarkdown
