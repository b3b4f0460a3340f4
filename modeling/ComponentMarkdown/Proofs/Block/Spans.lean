import ComponentMarkdown.Proofs.Block.Nesting

/-!
# The lines of blocks

Blocks take their lines one after the other, and a container takes the lines of the blocks in it.
The file has:

* `InOrder`, spans that follow each other between two lines, and `Block.Spanned`, a block whose
  parts do so;
* `blocksFrom_made` and the other three ways in which the loop over blocks goes on or ends;
* `Takes`: a rule that matches takes the lines from its first one up to the line that comes next;
* `takesLines_parseBlocks`: so does parsing, for all blocks of a scope.
-/

namespace ComponentMarkdown

/-! ## Spans -/

/-- Spans that follow each other from line `first` on, up to line `stop`. None of them is empty. -/
def InOrder (first stop : Nat) : List LineSpan → Prop
  | [] => first ≤ stop
  | span :: spans => first ≤ span.1 ∧ span.1 < span.2 ∧ InOrder span.2 stop spans

namespace InOrder

variable {first stop : Nat} {spans : List LineSpan}

theorem first_le_stop (inOrder : InOrder first stop spans) : first ≤ stop := by
  induction spans generalizing first with
  | nil => exact inOrder
  | cons span spans ih =>
    obtain ⟨begins, notEmpty, others⟩ := inOrder
    have := ih others
    omega

theorem mono {earlier later : Nat} (inOrder : InOrder first stop spans) (before : earlier ≤ first)
    (behind : stop ≤ later) : InOrder earlier later spans := by
  induction spans generalizing earlier first with
  | nil => exact Nat.le_trans before (Nat.le_trans inOrder behind)
  | cons span spans ih =>
    obtain ⟨begins, notEmpty, others⟩ := inOrder
    exact ⟨Nat.le_trans before begins, notEmpty, ih others (Nat.le_refl _)⟩

end InOrder

/-- The lines of an item. -/
def ListItem.span : ListItem → LineSpan
  | mk _ _ span => span

/-- The parts of the block, and their parts, follow each other inside its lines. -/
inductive Block.Spanned : Block → Prop
  | plain {block : Block} (isPlain : block.IsPlain) : Spanned block
  | blockquote {body : List Block} {span : LineSpan}
      (inOrder : InOrder span.1 span.2 (body.map Block.span))
      (inside : ∀ block ∈ body, Spanned block) : Spanned (.blockquote body span)
  | list (number : Option Nat) (marker : Char) {items : List ListItem} {span : LineSpan}
      (inOrder : InOrder span.1 span.2 (items.map ListItem.span))
      (bodies : ∀ item ∈ items, InOrder item.span.1 item.span.2 (item.body.map Block.span))
      (inside : ∀ item ∈ items, ∀ block ∈ item.body, Spanned block) :
      Spanned (.list number marker items span)

theorem Block.span_hideParagraph (block : Block) : block.hideParagraph.span = block.span := by
  cases block <;> rfl

theorem Block.Spanned.hideParagraph {block : Block} (spanned : block.Spanned) :
    block.hideParagraph.Spanned := by
  cases spanned with
  | plain isPlain =>
    refine .plain ?_
    cases block <;> exact isPlain
  | blockquote inOrder inside => exact .blockquote inOrder inside
  | list number marker inOrder bodies inside => exact .list number marker inOrder bodies inside

theorem ListItem.span_tighten (item : ListItem) : item.tighten.span = item.span := by
  cases item
  rfl

theorem ListItem.body_tighten (item : ListItem) :
    item.tighten.body = item.body.map Block.hideParagraph := by
  cases item
  rfl

theorem map_span_hideParagraph (blocks : List Block) :
    (blocks.map Block.hideParagraph).map Block.span = blocks.map Block.span := by
  rw [List.map_map]
  exact List.map_congr_left fun block _ => block.span_hideParagraph

/-- Hiding the paragraphs of its items leaves a list its lines. -/
theorem Block.Spanned.tighten {number : Option Nat} {marker : Char} {items : List ListItem}
    {span : LineSpan} (spanned : Spanned (.list number marker items span)) :
    Spanned (.list number marker (items.map (·.tighten)) span) := by
  cases spanned with
  | plain isPlain => exact isPlain.elim
  | list number marker inOrder bodies inside =>
    refine .list number marker ?_ ?_ ?_
    · rw [List.map_map, List.map_congr_left fun item _ => item.span_tighten]
      exact inOrder
    · intro tight member
      obtain ⟨item, isItem, rfl⟩ := List.mem_map.mp member
      rw [item.span_tighten, item.body_tighten, map_span_hideParagraph]
      exact bodies item isItem
    · intro tight member block isBlock
      obtain ⟨item, isItem, rfl⟩ := List.mem_map.mp member
      rw [item.body_tighten] at isBlock
      obtain ⟨shown, isShown, rfl⟩ := List.mem_map.mp isBlock
      exact (inside item isItem shown isShown).hideParagraph

/-! ## Empty lines -/

namespace Scope

variable {scope : Scope} {number : Nat}

theorem le_skipEmptyUpTo (fuel number : Nat) : number ≤ scope.skipEmptyUpTo fuel number := by
  induction fuel generalizing number with
  | zero => exact Nat.le_refl number
  | succ fuel ih =>
    rw [skipEmptyUpTo]
    split
    · exact Nat.le_trans (Nat.le_succ number) (ih (number + 1))
    · exact Nat.le_refl number

theorem skipEmptyUpTo_le (fuel : Nat) (inText : number ≤ scope.lines.size) :
    scope.skipEmptyUpTo fuel number ≤ scope.lines.size := by
  induction fuel generalizing number with
  | zero => exact inText
  | succ fuel ih =>
    rw [skipEmptyUpTo]
    split
    · next goesOn =>
      rw [Bool.and_eq_true, decide_eq_true_eq] at goesOn
      exact ih goesOn.1
    · exact inText

theorem isEmpty_of_skipEmptyUpTo (fuel : Nat) {skipped : Nat} (behind : number ≤ skipped)
    (upTo : skipped < scope.skipEmptyUpTo fuel number) : scope.isEmpty skipped = true := by
  induction fuel generalizing number with
  | zero => exact absurd behind (Nat.not_le_of_lt upTo)
  | succ fuel ih =>
    rw [skipEmptyUpTo] at upTo
    split at upTo
    · next goesOn =>
      rw [Bool.and_eq_true] at goesOn
      rcases Nat.eq_or_lt_of_le behind with rfl | further
      · exact goesOn.2
      · exact ih further upTo
    · exact absurd behind (Nat.not_le_of_lt upTo)

theorem le_skipEmpty (number : Nat) : number ≤ scope.skipEmpty number :=
  le_skipEmptyUpTo _ number

theorem skipEmpty_le (inText : number ≤ scope.lines.size) :
    scope.skipEmpty number ≤ scope.lines.size :=
  skipEmptyUpTo_le _ inText

end Scope

/-! ## The loop -/

/-- Does an empty line follow a block in the window? -/
def Scope.gapAt (scope : Scope) (stop behind : Nat) : Bool :=
  decide (behind < stop) && scope.isEmpty behind

/-- Where parsing goes on: behind a block, or behind an empty line that follows it. -/
def Scope.goesOn (scope : Scope) (stop behind : Nat) : Nat :=
  if scope.gapAt stop behind = true then behind + 1 else behind

section

variable {md : Markdown} {scope : Scope} {stop behind : Nat}

theorem Scope.goesOn_cases (scope : Scope) (stop behind : Nat) :
    scope.goesOn stop behind = behind ∨ scope.goesOn stop behind = behind + 1 ∧
      behind < stop ∧ scope.isEmpty behind = true := by
  unfold goesOn
  split
  · next gap =>
    rw [gapAt, Bool.and_eq_true, decide_eq_true_eq] at gap
    exact .inr ⟨rfl, gap⟩
  · exact .inl rfl

theorem Scope.le_goesOn (scope : Scope) (stop behind : Nat) :
    behind ≤ scope.goesOn stop behind := by
  rcases scope.goesOn_cases stop behind with same | ⟨same, -⟩ <;> omega

theorem Scope.goesOn_le_succ (scope : Scope) (stop behind : Nat) :
    scope.goesOn stop behind ≤ behind + 1 := by
  rcases scope.goesOn_cases stop behind with same | ⟨same, -⟩ <;> omega

theorem Scope.goesOn_le (scope : Scope) (inText : behind ≤ scope.lines.size)
    (inside : stop ≤ scope.lines.size) : scope.goesOn stop behind ≤ scope.lines.size := by
  rcases scope.goesOn_cases stop behind with same | ⟨same, inWindow, -⟩ <;> omega

/-- No line with content is passed behind a block. -/
theorem Scope.isEmpty_of_lt_goesOn {between : Nat} (after : behind ≤ between)
    (before : between < scope.goesOn stop behind) : scope.isEmpty between = true := by
  rcases scope.goesOn_cases stop behind with same | ⟨same, -, empty⟩
  · omega
  · rwa [show between = behind by omega]

variable {run : Progress → Nat → Option Made} {next : Nat}

/-- There is nothing to parse behind the window. -/
theorem blocksFrom_of_le (ended : stop ≤ next) (fuel : Nat) (progress : Progress)
    (sawEmpty : Bool) : blocksFrom md run scope stop fuel progress next sawEmpty =
      ([], progress) := by
  cases fuel with
  | zero => rfl
  | succ fuel => exact if_pos ended

/-- The loop ends where only empty lines are left, and at a dedented line. -/
theorem blocksFrom_ends (inWindow : next < stop)
    (ends : stop ≤ scope.skipEmpty next ∨ scope.isDedented (scope.skipEmpty next) = true)
    (fuel : Nat) (progress : Progress) (sawEmpty : Bool) :
    blocksFrom md run scope stop (fuel + 1) progress next sawEmpty =
      ([], { progress with line := scope.skipEmpty next }) := by
  unfold blocksFrom
  rw [if_neg (Nat.not_le_of_lt inWindow)]
  dsimp only
  rw [if_pos (by rwa [Bool.or_eq_true, decide_eq_true_eq])]

/-- Where no level is left, the loop passes all lines. -/
theorem blocksFrom_deep (inWindow : scope.skipEmpty next < stop)
    (inside : scope.isDedented (scope.skipEmpty next) = false) (deep : md.maxNesting ≤ scope.level)
    (fuel : Nat) (progress : Progress) (sawEmpty : Bool) :
    blocksFrom md run scope stop (fuel + 1) progress next sawEmpty =
      ([], { progress with line := stop }) := by
  have skips := scope.le_skipEmpty next
  unfold blocksFrom
  rw [if_neg (by omega)]
  dsimp only
  rw [decide_eq_false (Nat.not_le_of_lt inWindow), inside, if_neg (by decide), if_pos deep]

/-- The loop makes the block at the first line with content, and goes on behind it. -/
theorem blocksFrom_made (room : scope.level < md.maxNesting)
    (inWindow : scope.skipEmpty next < stop)
    (inside : scope.isDedented (scope.skipEmpty next) = false) {progress : Progress} {block : Block}
    {behind : Progress}
    (made : run { progress with line := scope.skipEmpty next } (scope.skipEmpty next) =
      some (block, behind))
    (moved : scope.skipEmpty next < behind.line) (fuel : Nat) (sawEmpty : Bool) :
    let after := scope.goesOn stop behind.line
    let others := blocksFrom md run scope stop fuel ⟨after, !sawEmpty⟩ after
      (sawEmpty || scope.isEmpty (behind.line - 1) || scope.gapAt stop behind.line)
    blocksFrom md run scope stop (fuel + 1) progress next sawEmpty =
      (block :: others.1, others.2) := by
  intro after others
  have skips := scope.le_skipEmpty next
  unfold blocksFrom
  rw [if_neg (by omega)]
  dsimp only
  rw [decide_eq_false (Nat.not_le_of_lt inWindow), inside, if_neg (by decide),
    if_neg (Nat.not_le_of_lt room), made]
  exact if_neg (Nat.not_le_of_lt moved)

end

/-! ## Rules -/

/-- A block that takes the lines of the scope from `first` on, up to the line that comes next. -/
structure Takes (scope : Scope) (first : Nat) (made : Made) : Prop where
  span : made.1.span = (first, made.2.line)
  behind : first < made.2.line
  inText : made.2.line ≤ scope.lines.size
  spanned : made.1.Spanned

/-- Blocks that take lines of the scope one after the other, from `first` on, up to the line that
comes next. -/
structure TakesAll (scope : Scope) (first : Nat) (made : List Block × Progress) : Prop where
  inOrder : InOrder first made.2.line (made.1.map Block.span)
  inText : made.2.line ≤ scope.lines.size
  spanned : ∀ block ∈ made.1, block.Spanned

/-- Parsing takes the lines of a scope in order if at most `depth` levels are left there. It moves
on from a line that is not dedented. -/
def TakesLines (md : Markdown) (depth : Nat) (tree : ParseBlocks) : Prop :=
  ∀ scope progress first stop, first < stop → stop ≤ scope.lines.size →
    md.maxNesting ≤ scope.level + depth →
      TakesAll scope first (tree scope progress first stop) ∧
        (scope.isDedented first = false → first < (tree scope progress first stop).2.line)

section

variable {md : Markdown} {scope : Scope} {first stop : Nat}

/-- A block without blocks in it that ends behind its first line. -/
theorem takes_made {progress : Progress} {block : Block} (isPlain : block.IsPlain)
    (begins : block.span.1 = first) (behind : first < block.span.2)
    (inText : block.span.2 ≤ scope.lines.size) : Takes scope first (block.made progress) :=
  ⟨Prod.ext begins rfl, behind, inText, .plain isPlain⟩

/-- What a rule finds that only moves the next line behind the block. -/
theorem takes_of_map {progress : Progress} {found : Option Block} {made : Made}
    (bounds : ∀ block ∈ found, block.IsPlain ∧ block.span.1 = first ∧ first < block.span.2 ∧
      block.span.2 ≤ scope.lines.size)
    (matched : found.map (·.made progress) = some made) : Takes scope first made := by
  obtain ⟨block, isFound, rfl⟩ := Option.map_eq_some_iff.mp matched
  obtain ⟨isPlain, begins, behind, inText⟩ := bounds block isFound
  exact takes_made isPlain begins behind inText

theorem codeEnd_bounds (scope : Scope) (fuel : Nat) {next last : Nat} (ordered : last ≤ next)
    (inWindow : last ≤ stop) :
    last ≤ codeEnd scope stop fuel next last ∧ codeEnd scope stop fuel next last ≤ stop := by
  induction fuel generalizing next last with
  | zero => exact ⟨Nat.le_refl last, inWindow⟩
  | succ fuel ih =>
    rw [codeEnd]
    split
    · exact ⟨Nat.le_refl last, inWindow⟩
    · split
      · exact ih (Nat.le_succ_of_le ordered) inWindow
      · split
        · have ⟨behind, inside⟩ := ih (Nat.le_refl (next + 1)) (show next + 1 ≤ stop by omega)
          exact ⟨by omega, inside⟩
        · exact ⟨Nat.le_refl last, inWindow⟩

/-- The closing line of a fence lies before the end of the container. -/
theorem fenceEnd_bounds (scope : Scope) (mark : Char) (length fuel : Nat) {next : Nat}
    (inWindow : next ≤ stop) :
    next ≤ (fenceEnd scope mark length stop fuel next).1 ∧
      (fenceEnd scope mark length stop fuel next).1 ≤ stop ∧
      ((fenceEnd scope mark length stop fuel next).2 = true →
        (fenceEnd scope mark length stop fuel next).1 < stop) := by
  induction fuel generalizing next with
  | zero => exact ⟨Nat.le_refl next, inWindow, by rintro ⟨⟩⟩
  | succ fuel ih =>
    rw [fenceEnd]
    split
    · exact ⟨Nat.le_refl next, inWindow, by rintro ⟨⟩⟩
    · next goesOn =>
      split
      · exact ⟨Nat.le_refl next, inWindow, by rintro ⟨⟩⟩
      · split
        · exact ⟨Nat.le_refl next, inWindow, fun _ => Nat.lt_of_not_le goesOn⟩
        · have ⟨behind, inside⟩ := ih (show next + 1 ≤ stop by omega)
          exact ⟨by omega, inside⟩

theorem paragraphEnd_bounds (md : Markdown) (scope : Scope) (fuel : Nat) {next : Nat}
    (inWindow : next ≤ stop) :
    next ≤ paragraphEnd md scope stop fuel next ∧ paragraphEnd md scope stop fuel next ≤ stop := by
  induction fuel generalizing next with
  | zero => exact ⟨Nat.le_refl next, inWindow⟩
  | succ fuel ih =>
    rw [paragraphEnd]
    split
    · exact ⟨Nat.le_refl next, inWindow⟩
    · next goesOn =>
      simp only [Bool.or_eq_true, decide_eq_true_eq, not_or] at goesOn
      have ⟨behind, inside⟩ := ih (show next + 1 ≤ stop by omega)
      split
      · exact ⟨by omega, inside⟩
      · split
        · exact ⟨Nat.le_refl next, inWindow⟩
        · exact ⟨by omega, inside⟩

theorem findBlockClose_bounds (md : Markdown) (scope : Scope) (name : Text) (first fuel : Nat)
    {next : Nat} (inWindow : next ≤ stop) :
    next ≤ (findBlockClose md scope name first stop fuel next).1 ∧
      (findBlockClose md scope name first stop fuel next).1 ≤ stop := by
  induction fuel generalizing next with
  | zero => exact ⟨Nat.le_refl next, inWindow⟩
  | succ fuel ih =>
    rw [findBlockClose]
    split
    · exact ⟨Nat.le_refl next, inWindow⟩
    · next goesOn =>
      simp only [Bool.or_eq_true, decide_eq_true_eq, not_or] at goesOn
      have ⟨behind, inside⟩ := ih (show next + 1 ≤ stop by omega)
      split
      · split
        · exact ⟨Nat.le_succ next, show next + 1 ≤ stop by omega⟩
        · exact ⟨by omega, inside⟩
      · exact ⟨by omega, inside⟩

/-- Every rule but those of containers. -/
theorem takes_plain {tree : ParseBlocks} {rule : BlockRule} {progress : Progress} {made : Made}
    (isLeaf : rule ≠ .blockquote ∧ rule ≠ .list) (inWindow : first < stop)
    (inText : stop ≤ scope.lines.size)
    (matched : runRule md tree rule scope progress first stop = some made) :
    Takes scope first made := by
  have oneLine : first < first + 1 ∧ first + 1 ≤ scope.lines.size := by omega
  cases rule with
  | code =>
    refine takes_of_map (fun block isFound => ?_) matched
    obtain ⟨-, -, made⟩ := Option.bind_eq_some_iff.mp isFound
    cases made
    have ⟨behind, inside⟩ := codeEnd_bounds scope (stop - first)
      (Nat.le_refl (first + 1)) (show first + 1 ≤ stop from inWindow)
    exact ⟨trivial, rfl, behind, Nat.le_trans inside inText⟩
  | fence =>
    refine takes_of_map (fun block isFound => ?_) matched
    obtain ⟨-, -, isFound⟩ := Option.bind_eq_some_iff.mp isFound
    obtain ⟨⟨mark, length, info⟩, -, made⟩ := Option.bind_eq_some_iff.mp isFound
    cases made
    have ⟨behind, inside, closes⟩ := fenceEnd_bounds scope mark length (stop - first)
      (show first + 1 ≤ stop from inWindow)
    refine ⟨trivial, rfl, ?_⟩
    dsimp only [Block.span]
    split
    · next closed =>
      have := closes closed
      omega
    · omega
  | hr =>
    refine takes_of_map (fun block isFound => ?_) matched
    obtain ⟨-, -, isFound⟩ := Option.bind_eq_some_iff.mp isFound
    obtain ⟨marks, -, made⟩ := Option.bind_eq_some_iff.mp isFound
    cases made
    exact ⟨trivial, rfl, oneLine⟩
  | embedded =>
    refine takes_of_map (fun block isFound => ?_) matched
    obtain ⟨tag, -, isFound⟩ := Option.bind_eq_some_iff.mp isFound
    obtain ⟨code, -, made⟩ := Option.bind_eq_some_iff.mp isFound
    cases made
    refine ⟨trivial, rfl, ?_⟩
    cases (md.grammar.selfClosing .block (scope.content first).trim).isSome with
    | true => exact oneLine
    | false =>
      have ⟨behind, inside⟩ := findBlockClose_bounds md scope tag.name first
        (stop - first) (show first + 1 ≤ stop from inWindow)
      exact ⟨behind, Nat.le_trans inside inText⟩
  | heading =>
    refine takes_of_map (fun block isFound => ?_) matched
    obtain ⟨-, -, isFound⟩ := Option.bind_eq_some_iff.mp isFound
    obtain ⟨depth, -, made⟩ := Option.bind_eq_some_iff.mp isFound
    cases made
    exact ⟨trivial, rfl, oneLine⟩
  | paragraph =>
    cases matched
    have ⟨behind, inside⟩ := paragraphEnd_bounds md scope (stop - first)
      (show first + 1 ≤ stop from inWindow)
    exact takes_made trivial rfl behind (Nat.le_trans inside inText)
  | blockquote => exact absurd rfl isLeaf.1
  | list => exact absurd rfl isLeaf.2

/-! ## Quotes -/

/-- The first line of a quote is a line of the scope of the quote, without its mark. -/
theorem exists_quoteLines (md : Markdown) (opens : opensBlockquote scope first = true)
    (notDedented : scope.isDedented first = false) (inWindow : first < stop) :
    ∃ behind more, quoteLines md scope stop (stop - first) false first =
      unquote (scope.line first) behind :: more := by
  obtain ⟨fuel, enough⟩ : ∃ fuel, stop - first = fuel + 1 := ⟨stop - first - 1, by omega⟩
  rw [enough, quoteLines, if_neg (Nat.not_le_of_lt inWindow)]
  rw [opensBlockquote, Bool.and_eq_true, beq_iff_eq] at opens
  have begins : (scope.line first).content.head? = some '>' := opens.2
  dsimp only
  cases content : (scope.line first).content with
  | nil => rw [content] at begins; cases begins
  | cons mark behind =>
    rw [content] at begins
    cases begins
    rw [notDedented]
    exact ⟨behind, _, rfl⟩

/-- Without its mark, the first line of a quote is not dedented. -/
theorem isDedented_inQuote {line : Line} {more : List Line} {parent : Parent} {level : Nat}
    (inText : first < scope.lines.size) (indented : 0 ≤ line.columns) :
    Scope.isDedented ⟨replaceLines scope.lines first (line :: more), 0, parent, level⟩ first =
      false := by
  have size : first < (replaceLines scope.lines (first + 1) more).size := by
    rwa [size_replaceLines]
  have found : Scope.line ⟨replaceLines scope.lines first (line :: more), 0, parent, level⟩ first =
      line := by
    rw [Scope.line, replaceLines, replaceLines_setIfInBounds _ (Nat.lt_succ_self first)]
    dsimp only
    rw [Array.getElem?_setIfInBounds_self_of_lt size, Option.getD_some]
  rw [Scope.isDedented, found]
  exact decide_eq_false (Int.not_lt.mpr indented)

variable {tree : ParseBlocks} {depth : Nat} {progress : Progress}

/-- Where a quote is made one opens, and it has the blocks of its lines without their marks. -/
theorem blockquote?_eq_some {made : Made}
    (matched : blockquote? md tree scope progress first stop = some made) :
    opensBlockquote scope first = true ∧
      let lines := quoteLines md scope stop (stop - first) false first
      let inner : Scope :=
        ⟨replaceLines scope.lines first lines, 0, .blockquote, scope.level + 1⟩
      let parsed := tree inner progress first (first + lines.length)
      made = (.blockquote parsed.1 (first, parsed.2.line), parsed.2) := by
  unfold blockquote? at matched
  cases opens : opensBlockquote scope first with
  | false =>
    rw [opens] at matched
    cases matched
  | true =>
    rw [opens] at matched
    cases matched
    exact ⟨rfl, rfl⟩

theorem takes_blockquote? (takesLines : TakesLines md depth tree)
    (levels : md.maxNesting ≤ scope.level + (depth + 1)) (inWindow : first < stop)
    (inText : stop ≤ scope.lines.size) (notDedented : scope.isDedented first = false)
    {made : Made} (matched : blockquote? md tree scope progress first stop = some made) :
    Takes scope first made := by
  obtain ⟨opens, rfl⟩ := blockquote?_eq_some matched
  have inside := BlockRun.quoteLines_length md scope (stop - first) false (Nat.le_of_lt inWindow)
  obtain ⟨behind, more, lines⟩ := exists_quoteLines md opens notDedented inWindow
  rw [lines] at inside ⊢
  have indented : 0 ≤ (unquote (scope.line first) behind).columns := Int.natCast_nonneg _
  generalize unquote (scope.line first) behind = line at *
  have size := size_replaceLines scope.lines first (line :: more)
  have ⟨all, advances⟩ := takesLines
    ⟨replaceLines scope.lines first (line :: more), 0, .blockquote, scope.level + 1⟩ progress first
    (first + (line :: more).length) (Nat.lt_add_of_pos_right (Nat.succ_pos _))
    (size ▸ Nat.le_trans inside inText) (by dsimp only; omega)
  have moved := advances (isDedented_inQuote (Nat.lt_of_lt_of_le inWindow inText) indented)
  exact ⟨rfl, moved, size ▸ all.inText, .blockquote all.inOrder all.spanned⟩

/-! ## Lists -/

/-- The blocks of an item take lines from that of the item on. -/
theorem takesAll_itemBlocks (takesLines : TakesLines md depth tree)
    (levels : md.maxNesting ≤ scope.level + (depth + 1)) {next : Nat} (inWindow : next < stop)
    (inText : stop ≤ scope.lines.size) (marker : Marker) :
    TakesAll scope next (itemBlocks tree scope stop next marker) := by
  unfold itemBlocks
  dsimp only
  split
  · refine ⟨?_, ?_, List.forall_mem_nil _⟩
    · show next ≤ min (next + 2) stop
      omega
    · show min (next + 2) stop ≤ scope.lines.size
      omega
  · have size : (scope.lines.setIfInBounds next (itemLine (scope.line next) marker)).size =
        scope.lines.size := Array.size_setIfInBounds
    have ⟨all, _⟩ := takesLines
      { lines := scope.lines.setIfInBounds next (itemLine (scope.line next) marker)
        indent := itemIndent (scope.line next) marker
        parent := .list
        level := scope.level + 2 }
      ⟨next, true⟩ next stop inWindow (size ▸ inText) (by dsimp only; omega)
    exact ⟨all.inOrder, size ▸ all.inText, all.spanned⟩

/-- The items of a list take lines one after the other. -/
structure TakesItems (scope : Scope) (next : Nat) (found : Items) : Prop where
  inOrder : InOrder next found.next (found.items.map ListItem.span)
  inText : found.next ≤ scope.lines.size
  bodies : ∀ item ∈ found.items, InOrder item.span.1 item.span.2 (item.body.map Block.span)
  inside : ∀ item ∈ found.items, ∀ block ∈ item.body, block.Spanned

theorem takesItems_nil {next : Nat} (inText : next ≤ scope.lines.size) :
    TakesItems scope next ⟨[], next, true⟩ :=
  ⟨Nat.le_refl next, inText, List.forall_mem_nil _, List.forall_mem_nil _⟩

/-- An item in front of the others, which begin where it ends. -/
theorem TakesItems.cons {next after : Nat} {made : List Block × Progress}
    (all : TakesAll scope next made) (number : Text)
    (covers : made.2.line ≤ after) (behind : next < after) {others : Items}
    (takes : TakesItems scope after others) (tight : Bool) :
    TakesItems scope next
      ⟨.mk number made.1 (next, after) :: others.items, others.next, tight⟩ := by
  refine ⟨⟨Nat.le_refl next, behind, takes.inOrder⟩, takes.inText, ?_, ?_⟩
  · intro item member
    rcases List.mem_cons.mp member with rfl | member
    · exact all.inOrder.mono (Nat.le_refl next) covers
    · exact takes.bodies item member
  · intro item member
    rcases List.mem_cons.mp member with rfl | member
    · exact all.spanned
    · exact takes.inside item member

theorem takesItems_listItems (takesLines : TakesLines md depth tree)
    (levels : md.maxNesting ≤ scope.level + (depth + 1)) (inText : stop ≤ scope.lines.size)
    (fuel : Nat) {next : Nat} (inScope : next ≤ scope.lines.size) (marker : Marker)
    (gapBefore : Bool) :
    TakesItems scope next (listItems md tree scope stop fuel next marker gapBefore) := by
  induction fuel generalizing next marker gapBefore with
  | zero => exact takesItems_nil inScope
  | succ fuel ih =>
    unfold listItems
    split
    · exact takesItems_nil inScope
    · next inWindow =>
      have inWindow := Nat.lt_of_not_le inWindow
      have all := takesAll_itemBlocks takesLines levels inWindow inText marker
      generalize itemBlocks tree scope stop next marker = made at *
      have behind : next < max made.2.line (next + 1) := by omega
      have covers : made.2.line ≤ max made.2.line (next + 1) := Nat.le_max_left _ _
      have inScope : max made.2.line (next + 1) ≤ scope.lines.size := by
        have := all.inText
        omega
      dsimp only
      split
      · exact .cons all _ covers behind (takesItems_nil inScope) _
      · exact .cons all _ covers behind (ih inScope _ _) _

theorem takes_list? (takesLines : TakesLines md depth tree)
    (levels : md.maxNesting ≤ scope.level + (depth + 1)) (inWindow : first < stop)
    (inText : stop ≤ scope.lines.size) {made : Made}
    (matched : list? md tree scope progress first stop = some made) : Takes scope first made := by
  obtain ⟨-, -, matched⟩ := Option.bind_eq_some_iff.mp matched
  obtain ⟨marker, -, matched⟩ := Option.bind_eq_some_iff.mp matched
  cases matched
  have takes := takesItems_listItems takesLines levels inText (stop - first + 1)
    (Nat.le_of_lt (Nat.lt_of_lt_of_le inWindow inText)) marker false
  have behind :
      first < (listItems md tree scope stop (stop - first + 1) first marker false).next := by
    -- There is one item at least.
    have begun := takes.inOrder
    unfold listItems at begun ⊢
    rw [if_neg (Nat.not_le_of_lt inWindow)] at begun ⊢
    dsimp only at begun ⊢
    split at begun
    · exact Nat.lt_of_lt_of_le begun.2.1 begun.2.2
    · exact Nat.lt_of_lt_of_le begun.2.1 begun.2.2.first_le_stop
  generalize listItems md tree scope stop (stop - first + 1) first marker false = found at *
  refine ⟨rfl, behind, takes.inText, ?_⟩
  have spanned : Block.Spanned (.list marker.value marker.mark found.items (first, found.next)) :=
    .list _ _ takes.inOrder takes.bodies takes.inside
  split
  · exact spanned.tighten
  · exact spanned

/-! ## Parsing -/

theorem takes_runRule (takesLines : TakesLines md depth tree)
    (levels : md.maxNesting ≤ scope.level + (depth + 1)) (inWindow : first < stop)
    (inText : stop ≤ scope.lines.size) (notDedented : scope.isDedented first = false)
    (rule : BlockRule) {made : Made}
    (matched : runRule md tree rule scope progress first stop = some made) :
    Takes scope first made := by
  by_cases isLeaf : rule ≠ .blockquote ∧ rule ≠ .list
  · exact takes_plain isLeaf inWindow inText matched
  · cases rule with
    | blockquote =>
      exact takes_blockquote? takesLines levels inWindow inText notDedented matched
    | list => exact takes_list? takesLines levels inWindow inText matched
    | code | fence | hr | embedded | heading | paragraph =>
      exact absurd ⟨by decide, by decide⟩ isLeaf

variable {run : Progress → Nat → Option Made}

/-- At every line that a block may begin at, `run` makes a block that takes lines. -/
def MakesBlocks (md : Markdown) (scope : Scope) (stop : Nat)
    (run : Progress → Nat → Option Made) : Prop :=
  scope.level < md.maxNesting → ∀ progress first, first < stop → scope.isDedented first = false →
    ∃ made, run progress first = some made ∧ Takes scope first made

/-- The loop stops before it makes a block, or it makes one at the first line that is not empty and
goes on behind the block, or behind an empty line that follows the block. -/
theorem blocksFrom_cases (makes : MakesBlocks md scope stop run) {next : Nat}
    (inWindow : next < stop) (fuel : Nat) (progress : Progress) (sawEmpty : Bool) :
    let first := scope.skipEmpty next
    let found := blocksFrom md run scope stop (fuel + 1) progress next sawEmpty
    (found.1 = [] ∧ found.2.line = first ∧ (stop ≤ first ∨ scope.isDedented first = true)) ∨
      (found.1 = [] ∧ found.2.line = stop ∧ md.maxNesting ≤ scope.level) ∨
      ∃ block behind after tight sawEmpty, first < stop ∧ Takes scope first (block, behind) ∧
        (scope.level < md.maxNesting ∧ scope.isDedented first = false ∧
          run { progress with line := first } first = some (block, behind)) ∧
        (after = behind.line ∨
          after = behind.line + 1 ∧ behind.line < stop ∧ scope.isEmpty behind.line = true) ∧
        let others := blocksFrom md run scope stop fuel ⟨after, tight⟩ after sawEmpty
        found = (block :: others.1, others.2) := by
  intro first found
  by_cases ends : stop ≤ first ∨ scope.isDedented first = true
  · have isFound : found = _ := blocksFrom_ends inWindow ends fuel progress sawEmpty
    exact .inl ⟨isFound ▸ rfl, isFound ▸ rfl, ends⟩
  rw [not_or, Nat.not_le, Bool.not_eq_true] at ends
  obtain ⟨begins, inside⟩ := ends
  rcases Nat.lt_or_ge scope.level md.maxNesting with room | deep
  · obtain ⟨⟨block, behind⟩, isMade, takes⟩ := makes room { progress with line := first } first
      begins inside
    have isFound : found = _ := blocksFrom_made room begins inside isMade takes.behind fuel sawEmpty
    exact .inr (.inr ⟨block, behind, _, _, _, begins, takes, ⟨room, inside, isMade⟩,
      scope.goesOn_cases stop behind.line, isFound⟩)
  · have isFound : found = _ := blocksFrom_deep begins inside deep fuel progress sawEmpty
    exact .inr (.inl ⟨isFound ▸ rfl, isFound ▸ rfl, deep⟩)

theorem takesAll_nil {next : Nat} {behind : Progress} (ordered : next ≤ behind.line)
    (inText : behind.line ≤ scope.lines.size) : TakesAll scope next ([], behind) :=
  ⟨ordered, inText, List.forall_mem_nil _⟩

/-- A block in front of the others, which begin behind it. -/
theorem TakesAll.cons {next after : Nat} {block : Block} {behind : Progress}
    (takes : Takes scope first (block, behind)) (begins : next ≤ first)
    (ends : behind.line ≤ after) {others : List Block × Progress}
    (all : TakesAll scope after others) : TakesAll scope next (block :: others.1, others.2) := by
  refine ⟨?_, all.inText, List.forall_mem_cons.mpr ⟨takes.spanned, all.spanned⟩⟩
  rw [List.map_cons, takes.span]
  exact ⟨begins, takes.behind, all.inOrder.mono ends (Nat.le_refl _)⟩

theorem takesAll_blocksFrom (makes : MakesBlocks md scope stop run)
    (inText : stop ≤ scope.lines.size) (fuel : Nat) {next : Nat}
    (inScope : next ≤ scope.lines.size) (tight sawEmpty : Bool) :
    TakesAll scope next (blocksFrom md run scope stop fuel ⟨next, tight⟩ next sawEmpty) := by
  induction fuel generalizing next tight sawEmpty with
  | zero => exact takesAll_nil (Nat.le_refl next) inScope
  | succ fuel ih =>
    by_cases inWindow : next < stop
    · have skips := scope.le_skipEmpty next
      have cases := blocksFrom_cases makes inWindow fuel ⟨next, tight⟩ sawEmpty
      dsimp only at cases
      generalize blocksFrom md run scope stop (fuel + 1) ⟨next, tight⟩ next sawEmpty = found at *
      obtain ⟨blocks, progress⟩ := found
      rcases cases with ⟨rfl, line, -⟩ | ⟨rfl, line, -⟩ | made
      · exact takesAll_nil (line ▸ skips) (line ▸ Scope.skipEmpty_le inScope)
      · exact takesAll_nil (line ▸ Nat.le_of_lt inWindow) (line ▸ inText)
      · obtain ⟨block, behind, after, tight, sawEmpty, -, takes, -, goesOn, same⟩ := made
        have fits := takes.inText
        have inScope : after ≤ scope.lines.size := by dsimp only at fits; omega
        exact same ▸ .cons takes skips (by omega) (ih inScope tight sawEmpty)
    · rw [blocksFrom_of_le (Nat.le_of_not_lt inWindow)]
      exact takesAll_nil (Nat.le_refl next) inScope

theorem blocksFrom_advances (makes : MakesBlocks md scope stop run)
    (inText : stop ≤ scope.lines.size) (fuel : Nat) {next : Nat} (inWindow : next < stop)
    (notDedented : scope.isDedented next = false) (progress : Progress) (sawEmpty : Bool) :
    next < (blocksFrom md run scope stop (fuel + 1) progress next sawEmpty).2.line := by
  have skips := scope.le_skipEmpty next
  rcases blocksFrom_cases makes inWindow fuel progress sawEmpty with
    ⟨-, line, ends | dedented⟩ | ⟨-, line, -⟩ | made
  · omega
  · rcases Nat.eq_or_lt_of_le skips with same | further
    · rw [← same, notDedented] at dedented
      cases dedented
    · omega
  · omega
  · obtain ⟨block, behind, after, tight, sawEmpty, -, takes, -, goesOn, same⟩ := made
    have moved := takes.behind
    have fits := takes.inText
    dsimp only at moved fits
    have others := (takesAll_blocksFrom makes inText fuel (show after ≤ scope.lines.size by omega)
      tight sawEmpty).inOrder.first_le_stop
    rw [same]
    dsimp only
    omega

end

/-- Where the rules of the chain are tried, paragraphs among them, one of them makes a block. -/
theorem makesBlocks_rules {md : Markdown} {depth : Nat} {tree : ParseBlocks}
    (takesLines : TakesLines md depth tree)
    (paragraphs : .paragraph ∈ md.blockChain RuleTable.mainChain) {scope : Scope} {stop : Nat}
    (levels : md.maxNesting ≤ scope.level + (depth + 1)) (inText : stop ≤ scope.lines.size) :
    MakesBlocks md scope stop fun progress first =>
      (md.blockChain RuleTable.mainChain).findSome? fun rule =>
        runRule md tree rule scope progress first stop := by
  intro _ progress first inWindow notDedented
  have isSome : ((md.blockChain RuleTable.mainChain).findSome? fun rule =>
      runRule md tree rule scope progress first stop).isSome :=
    List.findSome?_isSome_iff.mpr ⟨.paragraph, paragraphs, rfl⟩
  obtain ⟨made, found⟩ := Option.isSome_iff_exists.mp isSome
  obtain ⟨rule, -, matched⟩ := List.exists_of_findSome?_eq_some found
  exact ⟨made, found, takes_runRule takesLines levels inWindow inText notDedented rule matched⟩

/-- Parsing takes the lines of a scope one after the other. -/
theorem takesLines_parseBlocks {md : Markdown}
    (paragraphs : .paragraph ∈ md.blockChain RuleTable.mainChain) (depth : Nat) :
    TakesLines md depth (parseBlocks md depth) := by
  -- What the loop starts from does not matter where there are lines.
  have loop : ∀ (scope : Scope) (run : Progress → Nat → Option Made) (progress : Progress)
      (first stop : Nat), MakesBlocks md scope stop run → first < stop → stop ≤ scope.lines.size →
      let made := blocksFrom md run scope stop (stop - first + 1) progress first false
      TakesAll scope first made ∧ (scope.isDedented first = false → first < made.2.line) := by
    intro scope run progress first stop makes inWindow inText
    have inScope := Nat.le_of_lt (Nat.lt_of_lt_of_le inWindow inText)
    have anew := @BlockRun.blocksFrom_congr md run scope progress ⟨first, progress.tight⟩ first stop
      (stop - first) false inWindow rfl
    refine ⟨?_, fun notDedented => blocksFrom_advances makes inText _ inWindow notDedented _ _⟩
    rw [anew]
    exact takesAll_blocksFrom makes inText _ inScope _ _
  induction depth with
  | zero =>
    intro scope progress first stop inWindow inText levels
    exact loop scope (fun _ _ => none) progress first stop (fun room => absurd room (by omega))
      inWindow inText
  | succ depth ih =>
    intro scope progress first stop inWindow inText levels
    exact loop scope _ progress first stop (makesBlocks_rules ih paragraphs levels inText) inWindow
      inText

end ComponentMarkdown
