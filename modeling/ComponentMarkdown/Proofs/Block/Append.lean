import ComponentMarkdown.Proofs.Block.Documents
import ComponentMarkdown.Proofs.Block.Finished

/-!
# Texts one after the other

A text that ends with a paragraph, a heading or a thematic break keeps its blocks when an empty line
and more text follow, and the blocks of this text come next. The file has:

* `forgets_parseBlocks`: what blocks there are does not depend on what was met before;
* `append_blocksFrom`: a loop goes on with the blocks behind the empty line;
* `parse_append`, the result.
-/

namespace ComponentMarkdown

/-! ## Empty lines -/

section

variable {scope : Scope} {number : Nat}

theorem Scope.mirrors_self (scope : Scope) : scope.Mirrors 0 0 scope :=
  ⟨rfl, fun _ => rfl, rfl, Iff.rfl, rfl⟩

theorem Scope.skipEmpty_succ (inText : number < scope.lines.size)
    (empty : scope.isEmpty number = true) :
    scope.skipEmpty number = scope.skipEmpty (number + 1) := by
  unfold skipEmpty
  obtain ⟨fuel, enough⟩ : ∃ fuel, scope.lines.size = fuel + 1 := ⟨scope.lines.size - 1, by omega⟩
  have more := (scope.mirrors_self).skipEmptyUpTo (show scope.lines.size - (number + 1) ≤ fuel by
    omega) 1
  rw [enough]
  rw [show scope.skipEmptyUpTo (fuel + 1) (number + 1) = _ from more]
  rw [skipEmptyUpTo, decide_eq_true inText, empty]
  rfl

/-- Lines that are empty are skipped. -/
theorem Scope.skipEmpty_of_empty {later : Nat} (before : number ≤ later)
    (inText : later ≤ scope.lines.size)
    (empty : ∀ between, number ≤ between → between < later → scope.isEmpty between = true) :
    scope.skipEmpty number = scope.skipEmpty later := by
  induction later, before using Nat.le_induction with
  | base => rfl
  | succ later before ih =>
    rw [ih (by omega) fun between behind upTo => empty between behind (by omega),
      skipEmpty_succ (by omega) (empty later before (Nat.lt_succ_self _))]

/-- The line behind empty ones has content. -/
theorem Scope.isEmpty_skipEmpty (inText : scope.skipEmpty number < scope.lines.size) :
    scope.isEmpty (scope.skipEmpty number) = false := by
  cases isEmpty : scope.isEmpty (scope.skipEmpty number) with
  | false => rfl
  | true =>
    have skips := scope.le_skipEmpty number
    have same := scope.skipEmpty_of_empty skips (Nat.le_of_lt inText) fun between behind upTo =>
      scope.isEmpty_of_skipEmptyUpTo _ behind upTo
    have more := skipEmpty_succ inText isEmpty
    have := scope.le_skipEmpty (scope.skipEmpty number + 1)
    omega

end

/-! ## What was met before -/

/-- What is parsed, but for whether it is tight. -/
def SameLines (made other : List Block × Progress) : Prop :=
  made.1 = other.1 ∧ made.2.line = other.2.line

/-- Whether the blocks before were tight makes no difference for the blocks that are parsed, if at
most `depth` levels are left. -/
def ForgetsTight (md : Markdown) (depth : Nat) (tree : ParseBlocks) : Prop :=
  ∀ scope, md.maxNesting ≤ scope.level + depth → ∀ line tight tight' first stop,
    stop ≤ scope.lines.size →
      SameLines (tree scope ⟨line, tight⟩ first stop) (tree scope ⟨line, tight'⟩ first stop)

/-- A block and the line behind it. -/
def Made.placed (made : Made) : Block × Nat :=
  (made.1, made.2.line)

section

variable {md : Markdown} {scope : Scope} {stop : Nat}

theorem forgets_runRule {depth : Nat} {tree : ParseBlocks} (forgets : ForgetsTight md depth tree)
    (levels : md.maxNesting ≤ scope.level + (depth + 1)) (inText : stop ≤ scope.lines.size)
    (rule : BlockRule) (line : Nat) (tight tight' : Bool) {first : Nat} (inWindow : first < stop) :
    (runRule md tree rule scope ⟨line, tight⟩ first stop).map Made.placed =
      (runRule md tree rule scope ⟨line, tight'⟩ first stop).map Made.placed := by
  have leaf : ∀ found : Option Block, (found.map (·.made ⟨line, tight⟩)).map Made.placed =
      (found.map (·.made ⟨line, tight'⟩)).map Made.placed := by
    intro found
    cases found <;> rfl
  cases rule with
  | code | fence | hr | embedded | heading => exact leaf _
  | paragraph => exact leaf (some _)
  | list =>
    unfold runRule list?
    cases scope.isDeeplyIndented first with
    | true => rfl
    | false => cases Marker.of? (scope.content first) <;> rfl
  | blockquote =>
    unfold runRule blockquote?
    dsimp only
    cases opensBlockquote scope first with
    | false => rfl
    | true =>
      have fits := BlockRun.quoteLines_length md scope (stop - first) false (Nat.le_of_lt inWindow)
      generalize quoteLines md scope stop (stop - first) false first = inner at *
      have size := size_replaceLines scope.lines first inner
      have ⟨body, behind⟩ := forgets ⟨replaceLines scope.lines first inner, 0, .blockquote,
        scope.level + 1⟩ (by dsimp only; omega) line tight tight' first (first + inner.length)
        (size.symm ▸ Nat.le_trans fits inText)
      exact congrArg₂ (fun body line => some (Block.blockquote body (first, line), line)) body
        behind

variable {run : Progress → Nat → Option Made}

/-- What a loop has met before it and how much fuel it has left make no difference. -/
theorem forgets_blocksFrom (makes : MakesBlocks md scope stop run)
    (forgets : ∀ line tight tight' first, first < stop →
      (run ⟨line, tight⟩ first).map Made.placed = (run ⟨line, tight'⟩ first).map Made.placed)
    {fuel fuel' next : Nat}
    (enough : stop - next < fuel) (enough' : stop - next < fuel')
    (tight tight' sawEmpty sawEmpty' : Bool) :
    SameLines (blocksFrom md run scope stop fuel ⟨next, tight⟩ next sawEmpty)
      (blocksFrom md run scope stop fuel' ⟨next, tight'⟩ next sawEmpty') := by
  induction fuel generalizing fuel' next tight tight' sawEmpty sawEmpty' with
  | zero => exact absurd enough (Nat.not_lt_zero _)
  | succ fuel ih =>
    obtain ⟨fuel', rfl⟩ : ∃ more, fuel' = more + 1 := ⟨fuel' - 1, by omega⟩
    rcases Nat.lt_or_ge next stop with inWindow | ended
    swap
    · rw [blocksFrom_of_le ended, blocksFrom_of_le ended]
      exact ⟨rfl, rfl⟩
    by_cases ends : stop ≤ scope.skipEmpty next ∨ scope.isDedented (scope.skipEmpty next) = true
    · rw [blocksFrom_ends inWindow ends, blocksFrom_ends inWindow ends]
      exact ⟨rfl, rfl⟩
    rw [not_or, Nat.not_le, Bool.not_eq_true] at ends
    obtain ⟨begins, inside⟩ := ends
    rcases Nat.lt_or_ge scope.level md.maxNesting with room | deep
    swap
    · rw [blocksFrom_deep begins inside deep, blocksFrom_deep begins inside deep]
      exact ⟨rfl, rfl⟩
    have same := forgets (scope.skipEmpty next) tight tight' _ begins
    obtain ⟨⟨block, line, _⟩, isMade, takes⟩ := makes room ⟨scope.skipEmpty next, tight⟩ _ begins
      inside
    obtain ⟨⟨block', line', _⟩, isMade', takes'⟩ := makes room ⟨scope.skipEmpty next, tight'⟩ _
      begins inside
    rw [isMade, isMade', Option.map_some, Option.map_some, Option.some.injEq] at same
    obtain ⟨rfl, rfl⟩ := Prod.mk.inj same
    rw [blocksFrom_made room begins inside isMade takes.behind,
      blocksFrom_made room begins inside isMade' takes'.behind]
    have moved : scope.skipEmpty next < line := takes.behind
    have skips := scope.le_skipEmpty next
    have later := scope.le_goesOn stop line
    have others := @ih fuel' (scope.goesOn stop line) (by omega) (by omega)
    exact ⟨congrArg (block :: ·) (others _ _ _ _).1, (others _ _ _ _).2⟩

end

theorem forgets_findSome? {md : Markdown} {depth : Nat} {tree : ParseBlocks} {scope : Scope}
    {stop : Nat} (forgets : ForgetsTight md depth tree)
    (levels : md.maxNesting ≤ scope.level + (depth + 1)) (inText : stop ≤ scope.lines.size)
    (rules : List BlockRule) (line : Nat) (tight tight' : Bool) (first : Nat)
    (inWindow : first < stop) :
    (rules.findSome? (runRule md tree · scope ⟨line, tight⟩ first stop)).map Made.placed =
      (rules.findSome? (runRule md tree · scope ⟨line, tight'⟩ first stop)).map Made.placed := by
  rw [List.map_findSome?, List.map_findSome?]
  refine congrArg (rules.findSome? ·) (funext fun rule => ?_)
  exact forgets_runRule forgets levels inText rule line tight tight' inWindow

/-- Blocks do not depend on what was met before them. -/
theorem forgets_parseBlocks {md : Markdown}
    (paragraphs : .paragraph ∈ md.blockChain RuleTable.mainChain) (depth : Nat) :
    ForgetsTight md depth (parseBlocks md depth) := by
  -- What the loop starts from does not matter where there are lines.
  have loop : ∀ {scope : Scope} {stop : Nat} {run : Progress → Nat → Option Made},
      MakesBlocks md scope stop run →
      (∀ line tight tight' first, first < stop →
        (run ⟨line, tight⟩ first).map Made.placed = (run ⟨line, tight'⟩ first).map Made.placed) →
      ∀ line tight tight' first, SameLines
        (blocksFrom md run scope stop (stop - first + 1) ⟨line, tight⟩ first false)
        (blocksFrom md run scope stop (stop - first + 1) ⟨line, tight'⟩ first false) := by
    intro scope stop run makes forgets line tight tight' first
    rcases Nat.lt_or_ge first stop with inWindow | beyond
    · have anew := fun tight => @BlockRun.blocksFrom_congr md run scope ⟨line, tight⟩
        ⟨first, tight⟩ first stop (stop - first) false inWindow rfl
      rw [anew tight, anew tight']
      exact forgets_blocksFrom makes forgets (Nat.lt_succ_self _) (Nat.lt_succ_self _) _ _ _ _
    · unfold blocksFrom
      rw [if_pos beyond, if_pos beyond]
      exact ⟨rfl, rfl⟩
  induction depth with
  | zero =>
    intro scope levels line tight tight' first stop inText
    exact loop (fun room => absurd room (by omega)) (fun _ _ _ _ _ => rfl) line tight tight' first
  | succ depth ih =>
    intro scope levels line tight tight' first stop inText
    have makes := makesBlocks_rules (takesLines_parseBlocks paragraphs depth) paragraphs levels
      inText
    exact loop makes (forgets_findSome? ih levels inText _) line tight tight' first

/-! ## Going on behind the end -/

section

variable {md : Markdown} {scope : Scope} {run : Progress → Nat → Option Made}

/-- Where no line is dedented, there are blocks as long as there are lines with content. -/
theorem size_le_skipEmpty (makes : MakesBlocks md scope scope.lines.size run)
    (room : scope.level < md.maxNesting) (flat : ∀ number, scope.isDedented number = false)
    {fuel next : Nat} (enough : scope.lines.size - next < fuel) (progress : Progress)
    (sawEmpty : Bool)
    (noBlocks : (blocksFrom md run scope scope.lines.size fuel progress next sawEmpty).1 = []) :
    scope.lines.size ≤ scope.skipEmpty next := by
  obtain ⟨fuel, rfl⟩ : ∃ more, fuel = more + 1 := ⟨fuel - 1, by omega⟩
  rcases Nat.lt_or_ge next scope.lines.size with inWindow | beyond
  · rcases blocksFrom_cases makes inWindow fuel progress sawEmpty with
      ⟨-, -, ends | dedented⟩ | ⟨-, -, tooDeep⟩ | made
    · exact ends
    · rw [flat] at dedented
      cases dedented
    · exact absurd room (Nat.not_lt_of_le tooDeep)
    · obtain ⟨block, behind, after, tight, sawEmpty, -, -, -, -, same⟩ := made
      rw [same] at noBlocks
      cases noBlocks
  · exact Nat.le_trans beyond (scope.le_skipEmpty next)

/-- Where there are blocks, there is room for them, and a line with content. -/
theorem begins_of_ne_nil (makes : MakesBlocks md scope scope.lines.size run)
    {fuel next : Nat} {progress : Progress} {sawEmpty : Bool}
    (someBlock : (blocksFrom md run scope scope.lines.size fuel progress next sawEmpty).1 ≠ []) :
    scope.skipEmpty next < scope.lines.size ∧ scope.level < md.maxNesting := by
  cases fuel with
  | zero => exact absurd rfl someBlock
  | succ fuel =>
    rcases Nat.lt_or_ge next scope.lines.size with inWindow | beyond
    · rcases blocksFrom_cases makes inWindow fuel progress sawEmpty with
        ⟨noBlocks, -⟩ | ⟨noBlocks, -⟩ | made
      · exact absurd noBlocks someBlock
      · exact absurd noBlocks someBlock
      · obtain ⟨block, behind, after, tight, sawEmpty, inText, -, ⟨room, -⟩, -⟩ := made
        exact ⟨inText, room⟩
    · rw [blocksFrom_of_le beyond] at someBlock
      exact absurd rfl someBlock

/-- A loop may as well start behind empty lines. -/
theorem blocksFrom_skip (fuel : Nat) {next later : Nat} (before : next ≤ later)
    (inText : later ≤ scope.lines.size)
    (empty : ∀ between, next ≤ between → between < later → scope.isEmpty between = true)
    (tight sawEmpty : Bool) :
    (blocksFrom md run scope scope.lines.size (fuel + 1) ⟨next, tight⟩ next sawEmpty).1 =
      (blocksFrom md run scope scope.lines.size (fuel + 1) ⟨later, tight⟩ later sawEmpty).1 := by
  have same := scope.skipEmpty_of_empty before inText empty
  rcases Nat.lt_or_ge later scope.lines.size with inWindow | beyond
  · unfold blocksFrom
    rw [if_neg (Nat.not_le_of_lt (Nat.lt_of_le_of_lt before inWindow)),
      if_neg (Nat.not_le_of_lt inWindow), same]
  · rw [blocksFrom_of_le beyond]
    rcases Nat.lt_or_ge next scope.lines.size with inWindow | beyondAll
    · rw [blocksFrom_ends inWindow (.inl _)]
      exact same ▸ Nat.le_trans beyond (scope.le_skipEmpty later)
    · rw [blocksFrom_of_le beyondAll]

/-- Where only empty lines are left behind a block, an empty line of the other scope follows. -/
theorem Scope.Extends.isEmpty_behind {other : Scope} (extending : scope.Extends other)
    {behind between : Nat}
    (ends : scope.lines.size ≤ scope.skipEmpty (scope.goesOn scope.lines.size behind))
    (after : behind ≤ between) (upTo : between ≤ scope.lines.size) :
    other.isEmpty between = true := by
  rw [extending.isEmpty upTo]
  rcases Nat.lt_or_ge between (scope.goesOn scope.lines.size behind) with before | further
  · exact Scope.isEmpty_of_lt_goesOn after before
  · rcases Nat.lt_or_ge between scope.lines.size with inText | beyond
    · exact scope.isEmpty_of_skipEmptyUpTo _ further (Nat.lt_of_lt_of_le inText ends)
    · exact scope.isEmpty_of_le beyond

/-- In a scope that goes on, the loop makes the same first block if this one is finished. -/
theorem blocksFrom_finished {other : Scope} {run' : Progress → Nat → Option Made}
    (extending : scope.Extends other) (room : scope.level < md.maxNesting) {next : Nat}
    (begins : scope.skipEmpty next < scope.lines.size)
    (inside : scope.isDedented (scope.skipEmpty next) = false) {tight : Bool} {block : Block}
    {behind : Progress}
    (isMade : run' ⟨scope.skipEmpty next, tight⟩ (scope.skipEmpty next) = some (block, behind))
    (moved : scope.skipEmpty next < behind.line) (fuel : Nat) (sawEmpty : Bool) :
    let after := other.goesOn other.lines.size behind.line
    let others := blocksFrom md run' other other.lines.size fuel ⟨after, !sawEmpty⟩ after
      (sawEmpty || other.isEmpty (behind.line - 1) || other.gapAt other.lines.size behind.line)
    blocksFrom md run' other other.lines.size (fuel + 1) ⟨next, tight⟩ next sawEmpty =
      (block :: others.1, others.2) := by
  have sameFirst := extending.skipEmpty begins
  have sameInside := extending.isDedented begins
  rw [← sameFirst] at isMade moved
  exact blocksFrom_made (extending.level ▸ room)
    (sameFirst ▸ Nat.lt_trans begins extending.longer) (by rw [sameFirst, sameInside, inside])
    isMade moved fuel sawEmpty

/-- A loop makes its blocks in a scope that goes on, too, if the last one is complete; the blocks
behind the empty line come next. -/
theorem append_blocksFrom {other : Scope} {run' : Progress → Nat → Option Made}
    (makes : MakesBlocks md scope scope.lines.size run)
    (makes' : MakesBlocks md other other.lines.size run')
    (forgets : ∀ line tight tight' first, first < other.lines.size →
      (run' ⟨line, tight⟩ first).map Made.placed = (run' ⟨line, tight'⟩ first).map Made.placed)
    (extending : scope.Extends other) (flat : ∀ number, scope.isDedented number = false)
    (same : ∀ progress first, first < scope.lines.size → scope.isDedented first = false →
      (∀ made ∈ run progress first, scope.Finishes scope.lines.size other.lines.size made) →
        run' progress first = run progress first)
    {fuel fuel' next : Nat} (enough : scope.lines.size - next < fuel)
    (enough' : other.lines.size - next < fuel') (tight sawEmpty : Bool)
    (complete : ∃ block ∈ (blocksFrom md run scope scope.lines.size fuel ⟨next, tight⟩ next
      sawEmpty).1.getLast?, block.IsComplete) :
    let gap := scope.lines.size
    (blocksFrom md run' other other.lines.size fuel' ⟨next, tight⟩ next sawEmpty).1 =
      (blocksFrom md run scope scope.lines.size fuel ⟨next, tight⟩ next sawEmpty).1 ++
        (blocksFrom md run' other other.lines.size (other.lines.size - (gap + 1) + 1)
          ⟨gap + 1, false⟩ (gap + 1) false).1 := by
  intro gap
  induction fuel generalizing fuel' next tight sawEmpty with
  | zero => exact absurd enough (Nat.not_lt_zero _)
  | succ fuel ih =>
    have longer := extending.longer
    obtain ⟨fuel', rfl⟩ : ∃ more, fuel' = more + 1 := ⟨fuel' - 1, by omega⟩
    obtain ⟨begins, room⟩ := begins_of_ne_nil makes fun noBlocks => by
      obtain ⟨block, isLast, -⟩ := noBlocks ▸ complete
      cases isLast
    obtain ⟨⟨block, behind⟩, isMade, takes⟩ := makes room ⟨scope.skipEmpty next, tight⟩
      (scope.skipEmpty next) begins (flat _)
    have skips := scope.le_skipEmpty next
    have moved : scope.skipEmpty next < behind.line := takes.behind
    have fits : behind.line ≤ scope.lines.size := takes.inText
    have there (finishes : scope.Finishes scope.lines.size other.lines.size (block, behind)) :=
      blocksFrom_finished extending room begins (flat _)
        ((same _ _ begins (flat _) fun made isFound =>
          Option.some.inj (isMade.symm.trans isFound) ▸ finishes).trans isMade) moved fuel' sawEmpty
    rw [blocksFrom_made room begins (flat _) isMade moved] at complete ⊢
    dsimp only at complete there ⊢
    have later := scope.le_goesOn scope.lines.size behind.line
    generalize isSaw : (sawEmpty || scope.isEmpty (behind.line - 1) ||
      scope.gapAt scope.lines.size behind.line) = saw at *
    cases others : (blocksFrom md run scope scope.lines.size fuel
      ⟨scope.goesOn scope.lines.size behind.line, !sawEmpty⟩
      (scope.goesOn scope.lines.size behind.line) saw).1 with
    | nil =>
      rw [others] at complete
      obtain ⟨last, isLast, complete⟩ := complete
      cases isLast
      have ends := size_le_skipEmpty makes room flat (by omega) _ _ others
      obtain ⟨more, rfl⟩ : ∃ more, fuel' = more + 1 := ⟨fuel' - 1, by omega⟩
      rw [there (.inl complete)]
      refine congrArg (block :: ·) ?_
      -- All that is left of the scope is empty.
      have later' := other.le_goesOn other.lines.size behind.line
      have soon := other.goesOn_le_succ other.lines.size behind.line
      refine (blocksFrom_skip more (show _ ≤ gap + 1 by omega) longer (fun between after before =>
        extending.isEmpty_behind ends (Nat.le_trans later' after) (Nat.le_of_lt_succ before)) _
        _).trans ?_
      exact (forgets_blocksFrom makes' forgets (by omega) (Nat.lt_succ_self _) _ _ _ _).1
    | cons second others =>
      obtain ⟨begins', -⟩ := begins_of_ne_nil makes (others ▸ List.cons_ne_nil _ _)
      have skips' := scope.le_skipEmpty (scope.goesOn scope.lines.size behind.line)
      -- A line with content follows the block.
      have seen : scope.Halts scope.lines.size other.lines.size behind.line :=
        ⟨_, Nat.le_trans later skips', begins', .inl (Scope.isEmpty_skipEmpty begins')⟩
      have alike : scope.EndsAlike scope.lines.size other.lines.size :=
        ⟨Nat.le_refl _, fun number inText => by omega⟩
      have more := @ih fuel' (scope.goesOn scope.lines.size behind.line) (by omega) (by omega)
        (!sawEmpty) saw (by
          rw [others, List.getLast?_cons_cons] at complete
          rwa [others])
      rw [others] at more
      rw [there (.inr seen), Scope.goesOn, extending.gapAt alike seen, ← Scope.goesOn,
        extending.isEmpty (Nat.le_trans (Nat.sub_le _ _) fits), isSaw]
      exact congrArg (block :: ·) more

end

/-! ## Texts -/

theorem linesFrom_cons (start : Nat) (text : Text) {texts : List Text} (more : texts ≠ []) :
    linesFrom start (text :: texts) =
      Line.ofText start text true :: linesFrom (start + text.length + 1) texts := by
  cases texts with
  | nil => exact absurd rfl more
  | cons other texts => rfl

/-- The lines of a document and of what follows it. -/
theorem linesFrom_document (start : Nat) (lines : List Text) {texts : List Text}
    (more : texts ≠ []) :
    linesFrom start (lines ++ texts) =
      linesFrom start (lines ++ [[]]) ++ linesFrom (start + (document lines).length) texts := by
  induction lines generalizing start with
  | nil => rfl
  | cons line lines ih =>
    have length : start + line.length + 1 + (document lines).length =
        start + (document (line :: lines)).length := by
      rw [document_cons, List.length_append, List.length_cons]
      omega
    rw [List.cons_append, List.cons_append,
      linesFrom_cons _ _ (List.append_ne_nil_of_right_ne_nil _ more),
      linesFrom_cons _ _ (List.append_ne_nil_of_right_ne_nil _ (List.cons_ne_nil _ _)), ih, length,
      List.cons_append]

theorem unplaced_linesFrom_start (start start' : Nat) (texts : List Text) :
    (linesFrom start texts).map Line.unplaced = (linesFrom start' texts).map Line.unplaced := by
  induction texts generalizing start start' with
  | nil => rfl
  | cons text texts ih =>
    cases texts with
    | nil =>
      rw [linesFrom, linesFrom]
      split <;> rfl
    | cons other texts =>
      rw [linesFrom_cons _ _ (List.cons_ne_nil _ _), linesFrom_cons _ _ (List.cons_ne_nil _ _),
        List.map_cons, List.map_cons, ih _ (start' + text.length + 1)]
      rfl

/-- The lines of a document, an empty one and the lines of more text. -/
theorem exists_linesOf_append {lines : List Text} (oneLine : ∀ line ∈ lines, '\n' ∉ line)
    (more : Text) : ∃ start start',
      linesOf (document lines ++ '\n' :: more) = linesOf (document lines) ++
        Line.ofText start [] true :: linesFrom start' more.splitLines := by
  refine ⟨0 + (document lines).length, 0 + (document lines).length + 0 + 1, ?_⟩
  rw [linesOf, splitLines_document_append oneLine, Text.splitLines_line, if_pos rfl,
    linesFrom_document 0 lines (List.cons_ne_nil _ _),
    linesFrom_cons _ _ (Text.splitLines_ne_nil more), linesOf, splitLines_document oneLine]
  rfl

section

variable {lines : List Text} (oneLine : ∀ line ∈ lines, '\n' ∉ line) (more : Text)
include oneLine

/-- The text that goes on with an empty line. -/
theorem extends_document : (Scope.ofSource (document lines)).Extends
    (Scope.ofSource (document lines ++ '\n' :: more)) := by
  obtain ⟨start, start', whole⟩ := exists_linesOf_append oneLine more
  constructor
  case lines =>
    intro number inText
    rw [getElem?_ofSource, getElem?_ofSource, whole]
    exact List.getElem?_append_left inText
  case longer =>
    show (linesOf _).length < (linesOf _).length
    rw [whole, List.length_append, List.length_cons]
    omega
  case gap =>
    have found : (Scope.ofSource (document lines ++ '\n' :: more)).lines[(linesOf
        (document lines)).length]? = some (Line.ofText start [] true) := by
      rw [getElem?_ofSource, whole, List.getElem?_append_right (Nat.le_refl _), Nat.sub_self]
      rfl
    show Scope.isEmpty _ (linesOf (document lines)).length = true
    rw [Scope.isEmpty, Scope.line, found]
    rfl
  case indent => rfl
  case parent => rfl
  case level => rfl

/-- The lines behind the empty one are those of the text that follows. -/
theorem mirrors_append :
    (Scope.ofSource more).Mirrors ((linesOf (document lines)).length + 1) 0
      (Scope.ofSource (document lines ++ '\n' :: more)) := by
  obtain ⟨start, start', whole⟩ := exists_linesOf_append oneLine more
  have same := unplaced_linesFrom_start start' 0 more.splitLines
  constructor
  case size =>
    have length : (linesFrom start' more.splitLines).length = (linesOf more).length := by
      have lengths := congrArg List.length same
      rwa [List.length_map, List.length_map] at lengths
    show (linesOf _).length = (linesOf _).length + _
    rw [whole, List.length_append, List.length_cons, length]
    omega
  case lines =>
    intro number
    rw [getElem?_ofSource, getElem?_ofSource, whole, List.getElem?_append_right (by omega),
      show number + ((linesOf (document lines)).length + 1) - (linesOf (document lines)).length =
        number + 1 by omega, List.getElem?_cons_succ, ← List.getElem?_map, same, List.getElem?_map,
      linesOf]
  case indent => rfl
  case parent => rfl
  case level => rfl

end

/-! ## The last token -/

theorem Block.allTokens_append (level : Nat) (blocks more : List Block) :
    Block.allTokens level (blocks ++ more) =
      Block.allTokens level blocks ++ Block.allTokens level more := by
  induction blocks with
  | nil => rfl
  | cons block blocks ih =>
    rw [List.cons_append, allTokens, ih, allTokens, List.append_assoc]

/-- The tokens that paragraphs, headings and thematic breaks end with. -/
def TokenKind.Completes (kind : TokenKind) : Prop :=
  kind = .paragraphClose ∨ kind = .headingClose ∨ kind = .hr

instance (kind : TokenKind) : Decidable kind.Completes :=
  inferInstanceAs (Decidable (_ ∨ _))

/-- Other blocks end with other tokens. -/
theorem Block.isComplete_of_last {level : Nat} {block : Block} {last : Token}
    (isLast : (block.tokens level).getLast? = some last) (completes : last.kind.Completes) :
    block.IsComplete := by
  cases block with
  | paragraph | heading | hr => trivial
  | code | fence | embedded =>
    cases isLast
    rcases completes with wrong | wrong | wrong <;> cases wrong
  | blockquote body span =>
    rw [tokens, encloseBlock, List.getLast?_concat] at isLast
    cases isLast
    rcases completes with wrong | wrong | wrong <;> cases wrong
  | list number marker items span =>
    rw [tokens, encloseBlock, List.cons_append, adjustFirst, ← List.cons_append,
      List.getLast?_concat] at isLast
    cases isLast
    cases number <;> rcases completes with wrong | wrong | wrong <;> cases wrong

theorem Block.tokens_ne_nil (level : Nat) (block : Block) : block.tokens level ≠ [] := by
  obtain ⟨token, isToken, -⟩ := block.exists_token level
  exact List.ne_nil_of_mem isToken

/-- The last block of tokens that end so is complete. -/
theorem Block.isComplete_getLast {level : Nat} {blocks : List Block} {last : Token}
    (isLast : (Block.allTokens level blocks).getLast? = some last)
    (completes : last.kind.Completes) : ∃ block ∈ blocks.getLast?, block.IsComplete := by
  rcases List.eq_nil_or_concat blocks with rfl | ⟨front, block, rfl⟩
  · cases isLast
  · rw [List.concat_eq_append] at isLast ⊢
    refine ⟨block, List.getLast?_concat, ?_⟩
    obtain ⟨token, isToken⟩ := Option.isSome_iff_exists.mp
      (List.getLast?_isSome.mpr (block.tokens_ne_nil level))
    rw [allTokens_append, allTokens, allTokens, List.append_nil, List.getLast?_append, isToken,
      Option.some_or] at isLast
    exact isComplete_of_last (isToken.trans isLast) completes

/-! ## The result -/

theorem blocks_append {md : Markdown}
    (noTags : ∀ context text, md.grammar.openTag context text = none)
    (paragraphs : .paragraph ∈ md.blockChain RuleTable.mainChain) {lines : List Text}
    (oneLine : ∀ line ∈ lines, '\n' ∉ line) (more : Text)
    (complete : ∃ block ∈ (Block.parse md (document lines)).getLast?, block.IsComplete) :
    Block.parse md (document lines ++ '\n' :: more) =
      Block.parse md (document lines) ++
        Block.allLater ((linesOf (document lines)).length + 1) (Block.parse md more) := by
  have extending := extends_document oneLine more
  have mirrors := mirrors_append oneLine more
  have flat := isDedented_ofSource (document lines)
  have behind := mirrors_parseBlocks md (md.maxNesting + 1) mirrors {} 0
    (Scope.ofSource more).lines.size
  have fresh : ∀ line, Progress.later line {} = ⟨line, false⟩ :=
    fun line => congrArg (Progress.mk · false) (Nat.zero_add line)
  rw [← mirrors.size, Nat.zero_add, fresh] at behind
  have takesLines := takesLines_parseBlocks paragraphs md.maxNesting
  have levels : md.maxNesting ≤ 0 + (md.maxNesting + 1) := by omega
  have appended := append_blocksFrom
    (makesBlocks_rules takesLines paragraphs levels (Nat.le_refl _))
    (makesBlocks_rules takesLines paragraphs levels (Nat.le_refl _))
    (forgets_findSome? (forgets_parseBlocks paragraphs md.maxNesting) levels (Nat.le_refl _) _)
    extending flat
    (extends_findSome? noTags (parsesFinished_parseBlocks noTags paragraphs md.maxNesting)
      takesLines levels extending ⟨Nat.le_refl _, fun number inText => by
        have := extending.longer
        omega⟩ _)
    (Nat.lt_succ_self _) (Nat.lt_succ_self _) false false complete
  have parsed : Block.parse md (document lines ++ '\n' :: more) = _ := appended
  rw [parsed]
  exact congrArg (_ ++ ·) (congrArg Prod.fst behind)

/-- A text whose block tokens end with those of a paragraph, a heading or a thematic break keeps
them when an empty line and more text follow; then come those of that text, further down. There is
no embedded markup, but any transformer and any depth of nesting. -/
theorem parse_append (md : Markdown)
    (noTags : ∀ context text, md.grammar.openTag context text = none) {before : Text}
    (ended : before.getLast? = some '\n') (after : Text) :
    let usual : Markdown := { md with blockRules := ⟨BlockRule.all.map BlockRule.entry⟩ }
    (∃ last ∈ (BlockRun.parse usual before).getLast?, last.level = 0 ∧ last.kind.Completes) →
    BlockRun.parse usual (before ++ '\n' :: after) =
      BlockRun.parse usual before ++ (BlockRun.parse usual after).map fun token =>
        { token with
          map := token.map.map fun span =>
            (span.1 + ((linesOf before).length + 1), span.2 + ((linesOf before).length + 1)) } := by
  rintro usual ⟨last, isLast, -, completes⟩
  obtain ⟨lines, oneLine, rfl⟩ := exists_document ended
  have keeps : usual.KeepsChains := keepsChains_entries md _
  rw [BlockRun.parse_eq keeps] at isLast
  rw [BlockRun.parse_eq keeps, BlockRun.parse_eq keeps, BlockRun.parse_eq keeps]
  have complete := Block.isComplete_getLast isLast completes
  have paragraphs : .paragraph ∈ usual.blockChain RuleTable.mainChain :=
    mem_mainChain md (show .paragraph ∈ BlockRule.all by decide)
  rw [@blocks_append usual noTags paragraphs lines oneLine after complete, Block.allTokens_append]
  exact congrArg (_ ++ ·) (@Block.allTokens_allLater ((linesOf (document lines)).length + 1) 0 0 _)

/-- A list that goes on to its end, a paragraph, and a quote after the empty line. -/
theorem parse_append_list :
    let usual : Markdown :=
      { grammar := .empty, transform := .ok, blockRules := ⟨BlockRule.all.map BlockRule.entry⟩ }
    let before := "- a\n\nb\n".toList
    (∀ context text, usual.grammar.openTag context text = none) ∧
      before.getLast? = some '\n' ∧
      (∃ last ∈ (BlockRun.parse usual before).getLast?, last.level = 0 ∧ last.kind.Completes) ∧
      (linesOf before).length = 3 ∧
      BlockRun.parse usual (before ++ '\n' :: "> c\n".toList) =
        BlockRun.parse usual before ++ (BlockRun.parse usual "> c\n".toList).map fun token =>
          { token with map := token.map.map fun span => (span.1 + 4, span.2 + 4) } := by
  intro usual before
  have complete : ∃ last ∈ (BlockRun.parse usual before).getLast?,
      last.level = 0 ∧ last.kind.Completes := by decide +kernel
  exact ⟨fun _ _ => rfl, by decide, complete, by decide +kernel,
    parse_append { grammar := .empty, transform := .ok } (fun _ _ => rfl) (by decide) _ complete⟩

end ComponentMarkdown
