import ComponentMarkdown.Proofs.Block.InPlace
import ComponentMarkdown.Proofs.Block.Made
import ComponentMarkdown.Proofs.Nesting

/-!
# Nesting of block tokens

The block tokens of a text are well nested up to the greatest depth. The file has:

* `Block.Within`: blocks that stand on a level, and the blocks in them, leave room for what they
  enclose;
* `allWithin_parseBlocks`: only such blocks are parsed;
* `BlockStream` for the tokens of a text, and `blockStream_parse`, the result.
-/

namespace ComponentMarkdown

/-! ## Room for nesting -/

/-- A block on a level below the limit, as are the blocks in it. The items of a list take a level of
their own. -/
inductive Block.Within (limit : Nat) : Nat → Block → Prop
  | plain {level : Nat} {block : Block} (isPlain : block.IsPlain) (room : level < limit) :
      Within limit level block
  | blockquote {level : Nat} {body : List Block} (span : LineSpan) (room : level < limit)
      (inside : ∀ block ∈ body, Within limit (level + 1) block) :
      Within limit level (.blockquote body span)
  | list {level : Nat} (number : Option Nat) (marker : Char) {items : List ListItem}
      (span : LineSpan) (room : level < limit)
      (inside : ∀ item ∈ items, ∀ block ∈ item.body, Within limit (level + 2) block) :
      Within limit level (.list number marker items span)

/-- All blocks are on a level below the limit. -/
def Block.AllWithin (limit level : Nat) (blocks : List Block) : Prop :=
  ∀ block ∈ blocks, block.Within limit level

open Block (AllWithin)

variable {limit level : Nat}

theorem Block.Within.hideParagraph {block : Block} (within : block.Within limit level) :
    block.hideParagraph.Within limit level := by
  cases within with
  | plain isPlain room =>
    refine .plain ?_ room
    cases block <;> exact isPlain
  | blockquote span room inside => exact .blockquote span room inside
  | list number marker span room inside => exact .list number marker span room inside

/-! ## Parsing leaves room -/

/-- Only blocks within the limit are parsed. -/
def YieldsWithin (limit : Nat) (tree : ParseBlocks) : Prop :=
  ∀ scope progress first stop, AllWithin limit scope.level (tree scope progress first stop).1

/-- Rules run only where there is room. -/
theorem rulesKeep_within (md : Markdown) : RulesKeep md (Block.Within md.maxNesting) where
  plain notQuote notList room matched := by
    obtain ⟨block, isLeaf, rfl⟩ := plain_runRule notQuote notList matched
    exact .plain isLeaf.1 room
  blockquote := .blockquote
  list number marker items span tight room inside := by
    refine .list number marker span room ?_
    split
    · intro item member
      obtain ⟨loose, isItem, rfl⟩ := List.mem_map.mp member
      exact ListItem.forall_tighten (fun _ => Block.Within.hideParagraph) (inside loose isItem)
    · exact inside

/-- The blocks of a scope leave room for what they enclose. -/
theorem allWithin_parseBlocks (md : Markdown) (depth : Nat) :
    YieldsWithin md.maxNesting (parseBlocks md depth) :=
  (rulesKeep_within md).parseBlocks depth

/-! ## Tokens -/

/-- Tokens of blocks that stand together on a level. -/
structure BlockPassage (limit level : Nat) (tokens : List Token) : Prop where
  nests : NestsAt level tokens
  bounded : ∀ token ∈ tokens, token.level ≤ limit

namespace BlockPassage

variable {tokens more : List Token}

theorem nil (limit level : Nat) : BlockPassage limit level [] :=
  ⟨nestsAt_nil level, List.forall_mem_nil _⟩

theorem append (first : BlockPassage limit level tokens) (second : BlockPassage limit level more) :
    BlockPassage limit level (tokens ++ more) := by
  refine ⟨first.nests.append second.nests, fun token member => ?_⟩
  exact (List.mem_append.mp member).elim (first.bounded token) (second.bounded token)

/-- A token that is complete on its own. -/
theorem selfClosing {token : Token} (complete : token.nesting = .selfClosing)
    (here : token.level = level) (fits : level ≤ limit) : BlockPassage limit level [token] := by
  subst here
  refine ⟨nestsAt_selfClosing complete, fun other member => ?_⟩
  cases List.mem_singleton.mp member
  exact fits

/-- Tokens around a passage that is one level deeper. -/
theorem enclosed {opening closing : Token} {body : List Token}
    (passage : BlockPassage limit (level + 1) body)
    (opens : opening.nesting = .opening ∧ opening.level = level)
    (closes : closing.nesting = .closing ∧ closing.level = level)
    (answered : opening.kind.closing? = some closing.kind ∧ opening.tag = closing.tag)
    (fits : level ≤ limit) : BlockPassage limit level (opening :: body ++ [closing]) := by
  obtain ⟨opens, rfl⟩ := opens
  obtain ⟨closes, same⟩ := closes
  have answers : opening.isAnsweredBy closing := by
    simp [Token.isAnsweredBy, answered, same]
  refine ⟨passage.nests.enclosed opens closes answers, fun token member => ?_⟩
  simp only [List.cons_append, List.mem_cons, List.mem_append, List.not_mem_nil, or_false] at member
  rcases member with rfl | inside | rfl
  · exact fits
  · exact passage.bounded token inside
  · exact same ▸ fits

end BlockPassage

theorem blockPassage_allTokens {blocks : List Block}
    (passages : ∀ block ∈ blocks, BlockPassage limit level (block.tokens level)) :
    BlockPassage limit level (Block.allTokens level blocks) := by
  induction blocks with
  | nil => exact .nil limit level
  | cons block blocks ih =>
    rw [Block.allTokens]
    refine (passages block List.mem_cons_self).append (ih ?_)
    exact fun other member => passages other (List.mem_cons_of_mem _ member)

theorem blockPassage_items {marker : Char} {items : List ListItem} (fits : level ≤ limit)
    (passages : ∀ item ∈ items, ∀ block ∈ item.body,
      BlockPassage limit (level + 1) (block.tokens (level + 1))) :
    BlockPassage limit level (ListItem.allTokens marker level items) := by
  induction items with
  | nil => exact .nil limit level
  | cons item items ih =>
    rw [ListItem.allTokens]
    refine .append ?_ (ih fun other member => passages other (List.mem_cons_of_mem _ member))
    have body := blockPassage_allTokens (passages item List.mem_cons_self)
    obtain ⟨number, blocks, span⟩ := item
    rw [ListItem.tokens]
    exact .enclosed body ⟨rfl, rfl⟩ ⟨rfl, rfl⟩ ⟨rfl, rfl⟩ fits

/-- The tokens of a block that leaves room for what it encloses. -/
theorem Block.Within.blockPassage {block : Block} (within : block.Within limit level) :
    BlockPassage limit level (block.tokens level) := by
  induction within with
  | @plain level block isPlain room =>
    have fits := Nat.le_of_lt room
    -- The text of a paragraph or a heading is one level deeper.
    have text : ∀ content span,
        BlockPassage limit (level + 1) [inlineToken (level + 1) span content] :=
      fun content span => .selfClosing rfl rfl room
    cases block with
    | paragraph content span hidden =>
      exact .enclosed (text content span) ⟨rfl, rfl⟩ ⟨rfl, rfl⟩ ⟨rfl, rfl⟩ fits
    | heading depth content span =>
      exact .enclosed (text content span) ⟨rfl, rfl⟩ ⟨rfl, rfl⟩ ⟨rfl, rfl⟩ fits
    | code | fence | hr | embedded => exact .selfClosing rfl rfl fits
    | blockquote | list => exact isPlain.elim
  | blockquote span room inside ih =>
    have body := blockPassage_allTokens ih
    rw [Block.tokens]
    exact .enclosed body ⟨rfl, rfl⟩ ⟨rfl, rfl⟩ ⟨rfl, rfl⟩ (Nat.le_of_lt room)
  | list number marker span room inside ih =>
    have items := @blockPassage_items limit _ marker _ room ih
    rw [Block.tokens]
    refine .enclosed items ⟨rfl, rfl⟩ ⟨rfl, rfl⟩ ⟨?_, rfl⟩ (Nat.le_of_lt room)
    cases number <;> rfl

/-! ## Texts -/

/-- Block tokens of a text: they are well nested, at most `limit` deep. -/
structure BlockStream (limit : Nat) (tokens : List Token) : Prop where
  nested : WellNested tokens
  bounded : ∀ token ∈ tokens, token.level ≤ limit
  block : ∀ token ∈ tokens, token.block = true

/-- The block tokens of a text are a well-nested tree, for any grammar of tags, any transformer, any
chain of block rules and any greatest depth. -/
theorem blockStream_parse (md : Markdown) (rules : List BlockRule) (source : Text) :
    BlockStream md.maxNesting
      (BlockRun.parse { md with blockRules := ⟨rules.map BlockRule.entry⟩ } source) := by
  rw [BlockRun.parse_eq (keepsChains_entries md rules)]
  have within := allWithin_parseBlocks { md with blockRules := ⟨rules.map BlockRule.entry⟩ }
  have passage : BlockPassage md.maxNesting 0 (Block.allTokens 0 (Block.parse _ source)) :=
    blockPassage_allTokens fun block member => (within _ _ _ _ _ block member).blockPassage
  refine ⟨passage.nests.wellNested, passage.bounded, fun token member => ?_⟩
  exact (Block.deep_all 0 _ token member).2

end ComponentMarkdown
