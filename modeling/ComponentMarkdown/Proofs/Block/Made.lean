import ComponentMarkdown.Block.Parse

/-!
# Blocks that parsing makes

What holds of all blocks that are parsed is shown for each kind of block only. The file has:

* `Block.IsPlain` and `Block.IsShown`, and `plain_runRule`: what the rules make, but for those of
  containers;
* `RulesKeep`, a property of blocks on a level that every rule keeps;
* `RulesKeep.parseBlocks`: only blocks with such a property are parsed.
-/

namespace ComponentMarkdown

/-- Is this a block without blocks in it? -/
def Block.IsPlain : Block → Prop
  | blockquote _ _ | list _ _ _ _ => False
  | _ => True

/-- Is this not a hidden paragraph? -/
def Block.IsShown : Block → Prop
  | paragraph _ _ hidden => hidden = false
  | _ => True

/-- The blocks of an item. -/
def ListItem.body : ListItem → List Block
  | mk _ body _ => body

/-- The blocks of an item that hides its paragraphs. -/
theorem ListItem.forall_tighten {before after : Block → Prop}
    (hides : ∀ block, before block → after block.hideParagraph) {item : ListItem}
    (inside : ∀ block ∈ item.body, before block) : ∀ block ∈ item.tighten.body, after block := by
  obtain ⟨number, body, span⟩ := item
  intro block member
  obtain ⟨shown, isShown, rfl⟩ := List.mem_map.mp member
  exact hides shown (inside shown isShown)

/-! ## Plain blocks -/

/-- A block is plain and shown. -/
def Block.IsLeaf (block : Block) : Prop :=
  block.IsPlain ∧ block.IsShown

theorem isLeaf_pure {block : Block} (isLeaf : block.IsLeaf) :
    ∀ found ∈ (pure block : Option Block), found.IsLeaf := by
  rintro found ⟨⟩
  exact isLeaf

theorem isLeaf_bind {α : Type} {found : Option α} {make : α → Option Block}
    (isLeaf : ∀ value, ∀ block ∈ make value, block.IsLeaf) :
    ∀ block ∈ found >>= make, block.IsLeaf := by
  intro block member
  obtain ⟨value, -, isMade⟩ := Option.bind_eq_some_iff.mp member
  exact isLeaf value block isMade

section

variable {md : Markdown} {tree : ParseBlocks} {scope : Scope}

/-- Rules that do not parse the blocks in a container make a plain block, which is shown. -/
theorem plain_runRule {rule : BlockRule} {progress : Progress} {first stop : Nat} {made : Made}
    (notQuote : rule ≠ .blockquote) (notList : rule ≠ .list)
    (matched : runRule md tree rule scope progress first stop = some made) :
    ∃ block : Block, block.IsLeaf ∧ made = block.made progress := by
  have leaf {found : Option Block} (isLeaf : ∀ block ∈ found, block.IsLeaf)
      (matched : found.map (·.made progress) = some made) :
      ∃ block : Block, block.IsLeaf ∧ made = block.made progress := by
    obtain ⟨block, isFound, rfl⟩ := Option.map_eq_some_iff.mp matched
    exact ⟨block, isLeaf block isFound, rfl⟩
  cases rule with
  | blockquote => exact absurd rfl notQuote
  | list => exact absurd rfl notList
  | code =>
    refine leaf (isLeaf_bind fun _ => ?_) matched
    exact isLeaf_pure ⟨trivial, trivial⟩
  | fence =>
    refine leaf (isLeaf_bind fun _ => isLeaf_bind fun ⟨mark, length, info⟩ => ?_) matched
    exact isLeaf_pure ⟨trivial, trivial⟩
  | hr =>
    refine leaf (isLeaf_bind fun _ => isLeaf_bind fun marks => ?_) matched
    exact isLeaf_pure ⟨trivial, trivial⟩
  | embedded =>
    refine leaf (isLeaf_bind fun tag => isLeaf_bind fun code => ?_) matched
    exact isLeaf_pure ⟨trivial, trivial⟩
  | heading =>
    refine leaf (isLeaf_bind fun _ => isLeaf_bind fun depth => ?_) matched
    exact isLeaf_pure ⟨trivial, trivial⟩
  | paragraph =>
    cases matched
    exact ⟨paragraph md scope first stop, ⟨trivial, rfl⟩, rfl⟩

/-! ## All blocks -/

variable {holds : Nat → Block → Prop}

/-- All blocks that are parsed have a property on the level of their scope. -/
def YieldsOnly (holds : Nat → Block → Prop) (tree : ParseBlocks) : Prop :=
  ∀ scope progress first stop,
    ∀ block ∈ (tree scope progress first stop).1, holds scope.level block

theorem yieldsOnly_itemBlocks (yields : YieldsOnly holds tree) (stop next : Nat)
    (marker : Marker) :
    ∀ block ∈ (itemBlocks tree scope stop next marker).1, holds (scope.level + 2) block := by
  unfold itemBlocks
  dsimp only
  split
  · exact List.forall_mem_nil _
  · exact yields _ _ next stop

theorem yieldsOnly_listItems (yields : YieldsOnly holds tree) (stop fuel next : Nat)
    (marker : Marker) (gapBefore : Bool) :
    ∀ item ∈ (listItems md tree scope stop fuel next marker gapBefore).items,
      ∀ block ∈ item.body, holds (scope.level + 2) block := by
  induction fuel generalizing next marker gapBefore with
  | zero => exact List.forall_mem_nil _
  | succ fuel ih =>
    unfold listItems
    split
    · exact List.forall_mem_nil _
    · have first := @yieldsOnly_itemBlocks tree scope holds yields stop next marker
      dsimp only
      split
      · exact List.forall_mem_singleton.mpr first
      · exact List.forall_mem_cons.mpr ⟨first, ih _ _ _⟩

/-- The loop makes no blocks but those of the rules, and runs rules only where there is room. -/
theorem yieldsOnly_blocksFrom {run : Progress → Nat → Option Made} (stop : Nat)
    (makes : scope.level < md.maxNesting → ∀ progress first made, run progress first = some made →
      holds scope.level made.1)
    (fuel : Nat) (progress : Progress) (next : Nat) (sawEmpty : Bool) :
    ∀ block ∈ (blocksFrom md run scope stop fuel progress next sawEmpty).1,
      holds scope.level block := by
  induction fuel generalizing progress next sawEmpty with
  | zero => exact List.forall_mem_nil _
  | succ fuel ih =>
    unfold blocksFrom
    dsimp only
    split
    · exact List.forall_mem_nil _
    · split
      · exact List.forall_mem_nil _
      · split
        · exact List.forall_mem_nil _
        · next tooDeep =>
          split
          · exact List.forall_mem_nil _
          · next block behind matched =>
            have first := makes (Nat.lt_of_not_le tooDeep) _ _ _ matched
            split
            · exact List.forall_mem_singleton.mpr first
            · exact List.forall_mem_cons.mpr ⟨first, ih _ _ _⟩

/-- A property of blocks on a level that every rule keeps. The items of a list take a level of their
own. -/
structure RulesKeep (md : Markdown) (holds : Nat → Block → Prop) : Prop where
  plain : ∀ {tree rule scope progress first stop made}, rule ≠ BlockRule.blockquote →
    rule ≠ .list → scope.level < md.maxNesting →
    runRule md tree rule scope progress first stop = some made → holds scope.level made.1
  blockquote : ∀ {level body} span, level < md.maxNesting →
    (∀ block ∈ body, holds (level + 1) block) → holds level (.blockquote body span)
  list : ∀ {level} number marker {items : List ListItem} span (tight : Bool),
    level < md.maxNesting → (∀ item ∈ items, ∀ block ∈ item.body, holds (level + 2) block) →
    holds level (.list number marker (if tight then items.map (·.tighten) else items) span)

theorem RulesKeep.runRule (keep : RulesKeep md holds) (yields : YieldsOnly holds tree)
    (room : scope.level < md.maxNesting) {rule : BlockRule} {progress : Progress}
    {first stop : Nat} {made : Made}
    (matched : runRule md tree rule scope progress first stop = some made) :
    holds scope.level made.1 := by
  by_cases isQuote : rule = .blockquote
  · subst isQuote
    obtain ⟨-, -, matched⟩ := Option.bind_eq_some_iff.mp matched
    cases matched
    exact keep.blockquote _ room (yields _ _ _ _)
  · by_cases isList : rule = .list
    · subst isList
      obtain ⟨-, -, matched⟩ := Option.bind_eq_some_iff.mp matched
      obtain ⟨marker, -, matched⟩ := Option.bind_eq_some_iff.mp matched
      cases matched
      exact keep.list _ _ _ _ room (yieldsOnly_listItems yields _ _ _ _ _)
    · exact keep.plain isQuote isList room matched

/-- Only blocks with a property that every rule keeps are parsed. -/
theorem RulesKeep.parseBlocks (keep : RulesKeep md holds) (depth : Nat) :
    YieldsOnly holds (parseBlocks md depth) := by
  induction depth with
  | zero =>
    intro scope progress first stop
    refine yieldsOnly_blocksFrom stop ?_ _ _ _ _
    intro room progress first made matched
    cases matched
  | succ depth ih =>
    intro scope progress first stop
    refine yieldsOnly_blocksFrom stop ?_ _ _ _ _
    intro room progress first made matched
    obtain ⟨rule, -, isMade⟩ := List.exists_of_findSome?_eq_some matched
    exact keep.runRule ih room isMade

end

end ComponentMarkdown
