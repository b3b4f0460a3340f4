import ComponentMarkdown.Block.Leaf
import ComponentMarkdown.Block.Marker

/-!
# Where blocks begin

Whether a block begins at a line, which may end a paragraph, a quote or a list before it. The answer
needs no parsing of the block.
-/

namespace ComponentMarkdown

/-- Does a quote begin at the line? -/
def opensBlockquote (scope : Scope) (number : Nat) : Bool :=
  !scope.isDeeplyIndented number && (scope.content number).head? == some '>'

/-- Could a list end a paragraph here? Only an item with content does, and an ordered one only with
the number one. -/
def Marker.interrupts (marker : Marker) : Bool :=
  marker.value.all (· == 1) && !Text.isAllBlank marker.rest

/-- Does a list begin at the line? -/
def opensList (scope : Scope) (number : Nat) : Bool :=
  !scope.isDeeplyIndented number &&
    (Marker.of? (scope.content number)).any fun marker =>
      marker.interrupts || scope.parent ≠ .paragraph || scope.isDedented number

/-- The open tag at the beginning of a line. -/
def openTagAt? (md : Markdown) (scope : Scope) (number : Nat) : Option FoundTag :=
  if (scope.content number).head? == some '<' then
    md.grammar.openTag .block (scope.content number).trim
  else none

/-- Does a block of the rule begin at the line? -/
def BlockRule.opens (md : Markdown) (scope : Scope) (number : Nat) : BlockRule → Bool
  | code => scope.isDeeplyIndented number
  | fence => !scope.isDeeplyIndented number && (fenceOpening? (scope.content number)).isSome
  | blockquote => opensBlockquote scope number
  | hr => (hr? scope number).isSome
  | list => opensList scope number
  | embedded => (openTagAt? md scope number).isSome
  | heading => !scope.isDeeplyIndented number && (headingDepth? (scope.content number)).isSome
  | paragraph => true

/-- Does a rule of the chain end what is under way at the line? -/
def endsAt (md : Markdown) (chain : String) (scope : Scope) (number : Nat) : Bool :=
  (md.blockChain chain).any (·.opens md scope number)

end ComponentMarkdown
