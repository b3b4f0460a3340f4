import ComponentMarkdown.Compiler
import ComponentMarkdown.Proofs.Block.Nesting
import ComponentMarkdown.Proofs.Inline.Balance

/-!
# Balance of the tokens of a document

The tokens of blocks are balanced, and so they are with the tokens of their text in them. The file
has:

* `Block.Throughout`: what holds of the blocks without blocks in them, all the way down;
* `throughout_parseBlocks`: it is enough that it holds where a rule makes such a block;
* `Markdown.balanced_parse` for the tokens of a document.
-/

namespace ComponentMarkdown

/-! ## Blocks all the way down -/

/-- Plain blocks in this block, or the block itself, have a property. -/
inductive Block.Throughout (holds : Block → Prop) : Block → Prop
  | plain {block : Block} (isPlain : block.IsPlain) (here : holds block) : Throughout holds block
  | blockquote {body : List Block} (span : LineSpan)
      (inside : ∀ block ∈ body, Throughout holds block) : Throughout holds (.blockquote body span)
  | list (number : Option Nat) (marker : Char) {items : List ListItem} (span : LineSpan)
      (inside : ∀ item ∈ items, ∀ block ∈ item.body, Throughout holds block) :
      Throughout holds (.list number marker items span)

section

variable {md : Markdown} {holds : Block → Prop}

theorem Block.Throughout.hideParagraph (hidden : ∀ block, holds block → holds block.hideParagraph)
    {block : Block} (throughout : block.Throughout holds) :
    block.hideParagraph.Throughout holds := by
  cases throughout with
  | plain isPlain here =>
    refine .plain ?_ (hidden block here)
    cases block <;> exact isPlain
  | blockquote span inside => exact .blockquote span inside
  | list number marker span inside => exact .list number marker span inside

/-- Parsing makes blocks with the property only. -/
def YieldsThroughout (holds : Block → Prop) (tree : ParseBlocks) : Prop :=
  ∀ scope progress first stop,
    ∀ block ∈ (tree scope progress first stop).1, block.Throughout holds

/-- What the rules for plain blocks make has the property. -/
def MakesPlain (md : Markdown) (holds : Block → Prop) : Prop :=
  ∀ tree rule scope progress first stop made, rule ≠ BlockRule.blockquote → rule ≠ .list →
    runRule md tree rule scope progress first stop = some made → made.1.IsPlain ∧ holds made.1

theorem rulesKeep_throughout (makes : MakesPlain md holds)
    (hidden : ∀ block, holds block → holds block.hideParagraph) :
    RulesKeep md fun _ => Block.Throughout holds where
  plain notQuote notList _ matched := by
    have ⟨isPlain, here⟩ := makes _ _ _ _ _ _ _ notQuote notList matched
    exact .plain isPlain here
  blockquote span _ inside := .blockquote span inside
  list number marker items span tight _ inside := by
    refine .list number marker span ?_
    split
    · intro item member
      obtain ⟨loose, isItem, rfl⟩ := List.mem_map.mp member
      exact ListItem.forall_tighten (fun _ throughout => throughout.hideParagraph hidden)
        (inside loose isItem)
    · exact inside

theorem throughout_parseBlocks (makes : MakesPlain md holds)
    (hidden : ∀ block, holds block → holds block.hideParagraph) (depth : Nat) :
    YieldsThroughout holds (parseBlocks md depth) :=
  (rulesKeep_throughout makes hidden).parseBlocks depth

end

/-- Embedded blocks are made only of markup that is accepted. -/
def Block.IsAccepted (embeds : Prop) (block : Block) : Prop :=
  ∀ call span, block = .embedded call span → embeds

theorem accepts_embedLines {md : Markdown} {scope : Scope} {first stop : Nat} {code : Text}
    (found : embedLines? md scope first stop = some code) : md.Accepts :=
  ⟨_, code, found⟩

theorem accepts_findBlockClose {md : Markdown} {scope : Scope} {name : Text} {first stop : Nat}
    (fuel next : Nat) {code : Text}
    (found : (findBlockClose md scope name first stop fuel next).2 = some code) : md.Accepts := by
  induction fuel generalizing next with
  | zero => cases found
  | succ fuel ih =>
    rw [findBlockClose] at found
    split at found
    · cases found
    · split at found
      · split at found
        · next whole => exact accepts_embedLines whole
        · exact ih _ found
      · exact ih _ found

theorem makesPlain_accepted (md : Markdown) : MakesPlain md (Block.IsAccepted md.Accepts) := by
  intro tree rule scope progress first stop made notQuote notList matched
  -- Blocks of the other kinds have nothing to show.
  have plain : ∀ {block : Block} {progress : Progress}, block.IsPlain →
      (∀ call span, block ≠ .embedded call span) →
      (block.made progress).1.IsPlain ∧ Block.IsAccepted md.Accepts (block.made progress).1 :=
    fun isPlain other => ⟨isPlain, fun call span same => absurd same (other call span)⟩
  cases rule with
  | blockquote => exact absurd rfl notQuote
  | list => exact absurd rfl notList
  | paragraph =>
    cases matched
    exact plain trivial (by rintro _ _ ⟨⟩)
  | code =>
    obtain ⟨block, found, rfl⟩ := Option.map_eq_some_iff.mp matched
    obtain ⟨-, -, made⟩ := Option.bind_eq_some_iff.mp found
    cases made
    exact plain trivial (by rintro _ _ ⟨⟩)
  | fence =>
    obtain ⟨block, found, rfl⟩ := Option.map_eq_some_iff.mp matched
    obtain ⟨-, -, found⟩ := Option.bind_eq_some_iff.mp found
    obtain ⟨opening, -, made⟩ := Option.bind_eq_some_iff.mp found
    cases made
    exact plain trivial (by rintro _ _ ⟨⟩)
  | hr =>
    obtain ⟨block, found, rfl⟩ := Option.map_eq_some_iff.mp matched
    obtain ⟨-, -, found⟩ := Option.bind_eq_some_iff.mp found
    obtain ⟨marks, -, made⟩ := Option.bind_eq_some_iff.mp found
    cases made
    exact plain trivial (by rintro _ _ ⟨⟩)
  | heading =>
    obtain ⟨block, found, rfl⟩ := Option.map_eq_some_iff.mp matched
    obtain ⟨-, -, found⟩ := Option.bind_eq_some_iff.mp found
    obtain ⟨depth, -, made⟩ := Option.bind_eq_some_iff.mp found
    cases made
    exact plain trivial (by rintro _ _ ⟨⟩)
  | embedded =>
    obtain ⟨block, found, rfl⟩ := Option.map_eq_some_iff.mp matched
    obtain ⟨tag, -, found⟩ := Option.bind_eq_some_iff.mp found
    obtain ⟨code, embedded, made⟩ := Option.bind_eq_some_iff.mp found
    cases made
    refine ⟨trivial, fun _ _ _ => ?_⟩
    revert embedded
    cases (md.grammar.selfClosing .block (scope.content first).trim).isSome with
    | true => exact accepts_embedLines
    | false =>
      rw [Option.orElse_eq_orElse, Option.orElse_eq_or]
      intro embedded
      rcases Option.or_eq_some_iff.mp embedded with closed | ⟨-, whole⟩
      · exact accepts_findBlockClose _ _ closed
      · exact accepts_embedLines whole

/-! ## Tokens -/

namespace Markdown

variable (md : Markdown)

/-- The tokens of blocks with those of their text, in the order in which they are written. -/
def spread (tokens : List Token) : List Token :=
  flatten (tokens.map md.fillInline)

theorem spread_append (tokens more : List Token) :
    md.spread (tokens ++ more) = md.spread tokens ++ md.spread more := by
  simp [spread, flatten]

theorem spread_singleton {token : Token} (other : token.kind ≠ .inline) :
    md.spread [token] = [token] := by
  simp [spread, flatten, fillInline, other]

theorem spread_inlineToken (level : Nat) (span : LineSpan) (content : Text) :
    md.spread [inlineToken level span content] = md.inlineTokens content := by
  simp [spread, flatten, fillInline, inlineToken, blockToken]

end Markdown

section

variable {md : Markdown} {embeds : Prop} {level : Nat}

/-- Tokens that stand for a balanced list of those that are written. -/
def SpreadsBalanced (md : Markdown) (embeds : Prop) (tokens : List Token) : Prop :=
  Balanced (Token.Writable embeds) (md.spread tokens)

theorem SpreadsBalanced.complete {token : Token} (writable : token.Writable embeds)
    (alone : token.nesting = .selfClosing) : SpreadsBalanced md embeds [token] := by
  rw [SpreadsBalanced, md.spread_singleton writable.notInline]
  exact .complete writable alone

theorem SpreadsBalanced.enclosed {opening closing : Token} {body : List Token}
    (inside : SpreadsBalanced md embeds body)
    (encloses : Token.Encloses (Token.Writable embeds) opening closing) :
    SpreadsBalanced md embeds (opening :: body ++ [closing]) := by
  have ⟨isFirst, isLast⟩ := encloses.areAllowed
  have split : opening :: body ++ [closing] = [opening] ++ body ++ [closing] := rfl
  rw [SpreadsBalanced, split, md.spread_append, md.spread_append,
    md.spread_singleton isFirst.notInline, md.spread_singleton isLast.notInline]
  exact .enclosed encloses inside

theorem SpreadsBalanced.allTokens {blocks : List Block}
    (spread : ∀ block ∈ blocks, SpreadsBalanced md embeds (block.tokens level)) :
    SpreadsBalanced md embeds (Block.allTokens level blocks) := by
  induction blocks with
  | nil => exact .nil
  | cons block blocks ih =>
    obtain ⟨first, others⟩ := List.forall_mem_cons.mp spread
    rw [Block.allTokens, SpreadsBalanced, md.spread_append]
    exact .append first (ih others)

/-- A token of a block that names an element and has no attributes. -/
theorem writable_block {token : Token} {kind : TokenKind} (same : token.kind = kind)
    (isElement : kind.isElement) (named : IsName token.tag) (noAttributes : token.attrs = []) :
    token.Writable embeds :=
  .element same isElement named (by simp [noAttributes])

theorem SpreadsBalanced.items {marker : Char} {items : List ListItem}
    (spread : ∀ item ∈ items, ∀ block ∈ item.body,
      SpreadsBalanced md embeds (block.tokens (level + 1))) :
    SpreadsBalanced md embeds (ListItem.allTokens marker level items) := by
  induction items with
  | nil => exact .nil
  | cons item items ih =>
    obtain ⟨first, others⟩ := List.forall_mem_cons.mp spread
    rw [ListItem.allTokens, SpreadsBalanced, md.spread_append]
    refine .append ?_ (ih others)
    obtain ⟨number, blocks, span⟩ := item
    have named : IsName "li".toList := by decide
    rw [ListItem.tokens]
    exact SpreadsBalanced.enclosed (.allTokens first)
      ⟨⟨writable_block rfl rfl named rfl, writable_block rfl rfl named rfl⟩, rfl, rfl, rfl, rfl⟩

theorem isName_heading (depth : Nat) : IsName ('h' :: Text.ofNat depth) := by
  refine ⟨List.cons_ne_nil _ _, List.forall_mem_cons.mpr ⟨by decide, fun c member => ?_⟩⟩
  have digit := Nat.isDigit_of_mem_toDigits (by decide) (by decide) member
  simp [Char.isAlphanum, digit]

theorem textual_start (number : Option Nat) :
    ∀ attr ∈ startAttributes number, ∃ value, attr.2 = .text value := by
  unfold startAttributes
  split
  · exact List.forall_mem_nil _
  · exact List.forall_mem_nil _
  · exact List.forall_mem_singleton.mpr ⟨_, rfl⟩

/-- The tokens of a block, if it is accepted and so are those in it. -/
theorem Block.Throughout.spreadsBalanced (accepted : md.Accepts → embeds) {block : Block}
    (throughout : block.Throughout (Block.IsAccepted embeds)) (level : Nat) :
    SpreadsBalanced md embeds (block.tokens level) := by
  induction throughout generalizing level with
  | @plain block isPlain here =>
    have text : ∀ level content span,
        SpreadsBalanced md embeds [inlineToken level span content] := by
      intro level content span
      rw [SpreadsBalanced, md.spread_inlineToken]
      exact InlineRun.balanced_parse accepted content
    have named : IsName ['p'] ∧ IsName "code".toList ∧ IsName "hr".toList := by decide
    cases block with
    | paragraph content span hidden =>
      exact .enclosed (text _ content span)
        ⟨⟨writable_block rfl rfl named.1 rfl, writable_block rfl rfl named.1 rfl⟩,
          rfl, rfl, rfl, rfl⟩
    | heading depth content span =>
      have named := isName_heading depth
      exact .enclosed (text _ content span)
        ⟨⟨writable_block rfl rfl named rfl, writable_block rfl rfl named rfl⟩, rfl, rfl, rfl, rfl⟩
    | code => exact .complete (writable_block rfl rfl named.2.1 rfl) rfl
    | fence => exact .complete (writable_block rfl rfl named.2.1 rfl) rfl
    | hr => exact .complete (writable_block rfl rfl named.2.2 rfl) rfl
    | embedded call span => exact .complete (.embedded rfl rfl rfl (here call span rfl)) rfl
    | blockquote | list => exact isPlain.elim
  | blockquote span inside ih =>
    have named : IsName "blockquote".toList := by decide
    rw [Block.tokens]
    exact .enclosed (.allTokens fun block member => ih block member (level + 1))
      ⟨⟨writable_block rfl rfl named rfl, writable_block rfl rfl named rfl⟩, rfl, rfl, rfl, rfl⟩
  | list number marker span inside ih =>
    have items := @SpreadsBalanced.items md embeds (level + 1) marker _
      fun item member block isBlock => ih item member block isBlock (level + 2)
    have named : IsName "ol".toList ∧ IsName "ul".toList := by decide
    have opens : Token.Writable embeds
        { blockToken (listKinds number.isSome).1 (if number.isSome then "ol" else "ul").toList level
            span with
          nesting := .opening, markup := [marker], attrs := startAttributes number } := by
      cases number.isSome with
      | true => exact .element rfl rfl named.1 (textual_start number)
      | false => exact .element rfl rfl named.2 (textual_start number)
    rw [Block.tokens]
    refine .enclosed items ⟨⟨opens, ?_⟩, rfl, rfl, ?_, rfl⟩
    · cases number.isSome with
      | true => exact writable_block rfl rfl named.1 rfl
      | false => exact writable_block rfl rfl named.2 rfl
    · cases number <;> rfl

end

/-! ## Documents -/

theorem Block.hideParagraph_accepted {embeds : Prop} (block : Block)
    (accepted : block.IsAccepted embeds) : block.hideParagraph.IsAccepted embeds := by
  cases block with
  | paragraph => rintro _ _ ⟨⟩
  | _ => exact accepted

/-- The tokens of a document are balanced, for any grammar of tags, any transformer and any chains
of rules. Embedded markup is among them only if the transformer accepts some. -/
theorem Markdown.balanced_parse (md : Markdown) (rules : List BlockRule) (source : Text) :
    Balanced (Token.Writable md.Accepts)
      (flatten ({ md with blockRules := ⟨rules.map BlockRule.entry⟩ }.parse source)) := by
  rw [Markdown.parse, BlockRun.parse_eq (keepsChains_entries md rules)]
  have throughout := throughout_parseBlocks
    (makesPlain_accepted { md with blockRules := ⟨rules.map BlockRule.entry⟩ })
    Block.hideParagraph_accepted
  exact SpreadsBalanced.allTokens fun block member =>
    (throughout _ _ _ _ _ block member).spreadsBalanced id 0

end ComponentMarkdown
