import ComponentMarkdown.Proofs.Inline.Lockstep
import ComponentMarkdown.Proofs.Inline.PlainText
import ComponentMarkdown.Proofs.Inline.Recall

/-!
# The rule for plain text is a fast path

Without the rule for plain text every plain character is taken by itself, and the tokens are the
same. The memos are not: a run is remembered as one outcome with the rule, and as one outcome for
each character without it. At the greatest depth of nesting the difference could show, since a whole
window is skipped from wherever nothing is remembered. It does not, because whatever skips to the
middle of a run goes on from there and so leaves an outcome there. The file has:

* `Memo.Twin`, how the two memos are related, and `AtRest` and `Abreast`, which also say that no
  outcome leads to a place inside a run where nothing is remembered;
* `relates_go`: searches find the same places, though one of them takes more steps;
* `parse_withoutText`, the result.
-/

namespace ComponentMarkdown

open Memoized (Relates Agrees Ensures)
open Inline (AllAlike)

/-- The dialect without the rule for plain text. -/
def Markdown.withoutText (md : Markdown) : Markdown :=
  { md with inlineRules := ⟨md.inlineRules.entries.filter (·.rule ≠ .text)⟩ }

/-! ## Two memos -/

theorem Memo.getElem?_insert (memo : Memo) (pos : Nat) (skipped : Skipped) (i : Nat) :
    (memo.insert pos skipped)[i]? = if i = pos then some skipped else memo[i]? := by
  rw [Std.TreeMap.getElem?_insert]
  by_cases same : i = pos
  · rw [if_pos (Nat.compare_eq_eq.mpr same.symm), if_pos same]
  · rw [if_neg fun eq => same (Nat.compare_eq_eq.mp eq).symm, if_neg same]

namespace Memo

variable {source : Text} {memo other : Memo} {pos : Nat}

/-- The memos hold the same at the position. At a plain character that is what was skipped at the
greatest depth of nesting, from the beginning of a run. -/
def SameAt (source : Text) (memo other : Memo) (pos : Nat) : Prop :=
  other[pos]? = memo[pos]? ∧
    ∀ known, memo[pos]? = some known → known.consumed = true ∧ ¬InsideRun source pos

/-- One memo holds a single character at the position, the other one the run from there on, or, if
it was skipped as part of a longer run, nothing. -/
def RunAt (source : Text) (memo other : Memo) (pos : Nat) : Prop :=
  other[pos]? = some ⟨pos + 1, false⟩ ∧
    (memo[pos]? = some ⟨runEnd source pos, true⟩ ∨ memo[pos]? = none ∧ InsideRun source pos)

/-- What the memo `memo` of a parse with the rule for plain text has to do with the memo `other` of
a parse without it. -/
structure Twin (source : Text) (memo other : Memo) : Prop where
  forward : memo.Forward
  single {pos : Nat} {known : Skipped} :
    memo[pos]? = some known → known.consumed = false → known.stop = pos + 1
  special {pos : Nat} : ¬PlainAt source pos → other[pos]? = memo[pos]?
  plain {pos : Nat} :
    PlainAt source pos → SameAt source memo other pos ∨ RunAt source memo other pos
  onward {pos : Nat} : PlainAt source pos → PlainAt source (pos + 1) →
    other[pos]? = some ⟨pos + 1, false⟩ → other[pos + 1]? = some ⟨pos + 2, false⟩

/-- Where an outcome ends inside a run, one is remembered there, too. -/
def Linked (source : Text) (memo : Memo) : Prop :=
  ∀ (pos : Nat) (known : Skipped), memo[pos]? = some known → InsideRun source known.stop →
    memo[known.stop]? ≠ none

/-- The same, but for outcomes that end at `next`. -/
def LinkedBut (source : Text) (next : Nat) (memo : Memo) : Prop :=
  ∀ (pos : Nat) (known : Skipped), memo[pos]? = some known → InsideRun source known.stop →
    memo[known.stop]? = none → known.stop = next

/-- The memos between two searches. -/
structure AtRest (source : Text) (memo other : Memo) : Prop where
  twin : Twin source memo other
  linked : Linked source memo

/-- The memos while a search stands at `pos`, with `budget` levels of nesting left. -/
structure Abreast (source : Text) (budget pos : Nat) (memo other : Memo) : Prop where
  twin : Twin source memo other
  linked : LinkedBut source pos memo
  limit : budget = 0 → InsideRun source pos → memo[pos]? ≠ none

variable {budget stop : Nat}

/-- Nothing that is remembered at the position lies inside the window. -/
def Lacks (memo : Memo) (stop pos : Nat) : Prop :=
  ∀ known, memo[pos]? = some known → stop < known.stop

theorem lacks_or_recalls (memo : Memo) (stop pos : Nat) :
    memo.Lacks stop pos ∨ ∃ known, memo[pos]? = some known ∧ known.stop ≤ stop := by
  cases found : memo[pos]? with
  | none => exact .inl fun known same => by rw [found] at same; cases same
  | some known =>
    rcases Nat.lt_or_ge stop known.stop with outside | inside
    · refine .inl fun other same => ?_
      rw [found] at same
      cases same
      exact outside
    · exact .inr ⟨known, rfl, inside⟩

/-- What is remembered at the characters from `pos` to `next` does not keep a search from passing
them one by one. -/
def Passable (stop budget pos next : Nat) (memo : Memo) : Prop :=
  ∀ i, pos ≤ i → i < next → memo[i]? = some ⟨i + 1, false⟩ ∨ 0 < budget ∧ memo.Lacks stop i

theorem atRest_empty (source : Text) : AtRest source ∅ ∅ where
  twin :=
    { forward := Memo.forward_empty
      single := by simp
      special := by simp
      plain := fun _ => .inl ⟨rfl, by simp⟩
      onward := by simp }
  linked := by
    intro pos known found
    simp at found

/-- A search begins outside the runs. -/
theorem AtRest.abreast (rests : AtRest source memo other) (apart : ¬InsideRun source pos) :
    Abreast source budget pos memo other where
  twin := rests.twin
  linked from_pos known found inside none := absurd none (rests.linked from_pos known found inside)
  limit _ inside := absurd inside apart

/-- A search ends outside the runs. -/
theorem Abreast.atRest (abreast : Abreast source budget pos memo other)
    (apart : ¬InsideRun source pos) : AtRest source memo other where
  twin := abreast.twin
  linked from_pos known found inside none :=
    apart (abreast.linked from_pos known found inside none ▸ inside)

/-- The search goes on where a remembered outcome ends. -/
theorem Abreast.recall (abreast : Abreast source budget pos memo other) {known : Skipped}
    (found : memo[pos]? = some known) : Abreast source budget known.stop memo other where
  twin := abreast.twin
  linked from_pos outcome leads inside none := by
    have here := abreast.linked from_pos outcome leads inside none
    rw [here, found] at none
    cases none
  limit _ inside none := by
    have here := abreast.linked pos known found inside none
    exact Nat.lt_irrefl _ (here ▸ abreast.twin.forward pos known found)

/-- Both memos may take the same outcome, if it is not found at a plain character or else at the
greatest depth of nesting. -/
theorem Twin.insert (twin : Twin source memo other) {skipped : Skipped}
    (behind : pos < skipped.stop)
    (single : skipped.consumed = false → skipped.stop = pos + 1)
    (atHead : PlainAt source pos → skipped.consumed = true ∧ ¬InsideRun source pos) :
    Twin source (memo.insert pos skipped) (other.insert pos skipped) where
  forward := twin.forward.insert behind
  single := by
    intro i known found notConsumed
    rw [getElem?_insert] at found
    split at found
    · next same =>
      cases found
      rw [same]
      exact single notConsumed
    · exact twin.single found notConsumed
  special := by
    intro i special
    rw [getElem?_insert, getElem?_insert, twin.special special]
  plain := by
    intro i plain
    unfold SameAt RunAt
    rw [getElem?_insert, getElem?_insert]
    by_cases same : i = pos
    · rw [if_pos same, if_pos same]
      refine .inl ⟨rfl, fun known found => ?_⟩
      cases found
      subst same
      exact atHead plain
    · rw [if_neg same, if_neg same]
      exact twin.plain plain
  onward := by
    intro i here next found
    rw [getElem?_insert] at found ⊢
    by_cases same : i = pos
    · rw [if_pos same] at found
      subst same
      have consumed := (atHead here).1
      cases found
      cases consumed
    · rw [if_neg same] at found
      have apart : i + 1 ≠ pos := by
        intro isNext
        subst isNext
        exact (atHead next).2 ⟨Nat.succ_pos i, here, next⟩
      rw [if_neg apart]
      exact twin.onward here next found

theorem Abreast.insert (abreast : Abreast source budget pos memo other) {skipped : Skipped}
    (behind : pos < skipped.stop) (single : skipped.consumed = false → skipped.stop = pos + 1)
    (atHead : PlainAt source pos → skipped.consumed = true ∧ ¬InsideRun source pos)
    (ends : budget = 0 → ¬InsideRun source skipped.stop) :
    Abreast source budget skipped.stop (memo.insert pos skipped) (other.insert pos skipped) where
  twin := abreast.twin.insert behind single atHead
  linked from_pos known leads inside none := by
    rw [getElem?_insert] at leads none
    split at none
    · cases none
    · next apart =>
      split at leads
      · cases leads
        rfl
      · exact absurd (abreast.linked from_pos known leads inside none) apart
  limit atLimit inside := absurd inside (ends atLimit)

/-- Behind a single character in a run the memo of the parse without the rule holds the others. -/
theorem Twin.singles (twin : Twin source memo other) (single : other[pos]? = some ⟨pos + 1, false⟩)
    {i : Nat} (from_pos : pos ≤ i) (inRun : i < runEnd source pos) :
    other[i]? = some ⟨i + 1, false⟩ := by
  obtain ⟨count, rfl⟩ := Nat.exists_eq_add_of_le from_pos
  induction count with
  | zero => exact single
  | succ count ih =>
    have before : pos + count < runEnd source pos := Nat.lt_of_succ_lt inRun
    have here : PlainAt source (pos + count) := plainAt_of_lt_runEnd (Nat.le_add_right _ _) before
    have next : PlainAt source (pos + count + 1) := plainAt_of_lt_runEnd from_pos inRun
    exact twin.onward here next (ih (Nat.le_add_right _ _) before)

/-- A run can be passed on levels of nesting that are left, if its first character can. -/
theorem Twin.passable (twin : Twin source memo other) (levels : 0 < budget)
    (first : other[pos]? = some ⟨pos + 1, false⟩ ∨ other.Lacks stop pos) :
    other.Passable stop budget pos (runEnd source pos) := by
  intro i from_pos inRun
  rcases Nat.eq_or_lt_of_le from_pos with same | behind
  · subst same
    exact first.imp id fun lacks => ⟨levels, lacks⟩
  · have inside := insideRun_of_lt_runEnd behind inRun
    rcases twin.plain (plainAt_of_lt_runEnd from_pos inRun) with ⟨same, limit⟩ | ⟨single, -⟩
    · refine .inr ⟨levels, fun known found => ?_⟩
      rw [same] at found
      exact absurd inside (limit known found).2
    · exact .inl single

/-- Without the rule for plain text the characters from `pos` to `next` were passed one by one. -/
def Passed (pos next : Nat) (other other' : Memo) : Prop :=
  ∀ i, other'[i]? = if pos ≤ i ∧ i < next then some ⟨i + 1, false⟩ else other[i]?

/-- One side has skipped a run, the other one its characters. -/
theorem Twin.run (twin : Twin source memo other) (plain : PlainAt source pos) {memo' other' : Memo}
    (ran : ∀ i, memo'[i]? = if i = pos then some ⟨runEnd source pos, true⟩ else memo[i]?)
    (passed : Passed pos (runEnd source pos) other other') : Twin source memo' other' where
  forward := by
    intro i known found
    rw [ran] at found
    split at found
    · next same =>
      subst same
      cases found
      exact lt_runEnd plain
    · exact twin.forward i known found
  single := by
    intro i known found notConsumed
    rw [ran] at found
    split at found
    · cases found
      cases notConsumed
    · exact twin.single found notConsumed
  special := by
    intro i special
    have outside : ¬(pos ≤ i ∧ i < runEnd source pos) := fun inRun =>
      special (plainAt_of_lt_runEnd inRun.1 inRun.2)
    have apart : i ≠ pos := fun same => special (same ▸ plain)
    rw [ran, passed, if_neg apart, if_neg outside, twin.special special]
  plain := by
    intro i here
    unfold SameAt RunAt
    rw [ran, passed]
    by_cases same : i = pos
    · subst same
      rw [if_pos rfl, if_pos ⟨Nat.le_refl _, lt_runEnd plain⟩]
      exact .inr ⟨rfl, .inl rfl⟩
    · rw [if_neg same]
      by_cases inRun : pos ≤ i ∧ i < runEnd source pos
      · have inside : InsideRun source i := insideRun_of_lt_runEnd (by omega) inRun.2
        rw [if_pos inRun]
        refine .inr ⟨rfl, ?_⟩
        rcases twin.plain here with ⟨-, limit⟩ | ⟨-, found⟩
        · cases found : memo[i]? with
          | none => exact .inr ⟨rfl, inside⟩
          | some known => exact absurd inside (limit known found).2
        · exact found
      · rw [if_neg inRun]
        exact twin.plain here
  onward := by
    intro i here next found
    rw [passed] at found ⊢
    by_cases behind : pos ≤ i + 1 ∧ i + 1 < runEnd source pos
    · rw [if_pos behind]
    · rw [if_neg behind]
      have outside : ¬(pos ≤ i ∧ i < runEnd source pos) := by
        intro inRun
        have isEnd : i + 1 = runEnd source pos := by omega
        exact not_plainAt_runEnd source pos (isEnd ▸ next)
      rw [if_neg outside] at found
      exact twin.onward here next found

theorem Abreast.run (abreast : Abreast source budget pos memo other) (plain : PlainAt source pos)
    {memo' other' : Memo}
    (ran : ∀ i, memo'[i]? = if i = pos then some ⟨runEnd source pos, true⟩ else memo[i]?)
    (passed : Passed pos (runEnd source pos) other other') :
    Abreast source budget (runEnd source pos) memo' other' where
  twin := abreast.twin.run plain ran passed
  linked from_pos known leads inside none := by
    rw [ran] at leads none
    split at none
    · cases none
    · next apart =>
      split at leads
      · cases leads
        rfl
      · exact absurd (abreast.linked from_pos known leads inside none) apart
  limit _ inside := absurd inside (not_insideRun (not_plainAt_runEnd source pos))

end Memo

open Memo (Abreast AtRest Passed Twin)

/-! ## Skipping at a plain character -/

/-- What is found at a cursor when nothing is recalled. -/
def findAnew (md : Markdown) : Nat → Skip
  | 0 => fun c => return ⟨c.stop, true⟩
  | budget + 1 => skipByRules md (skip md budget)

theorem skip_eq (md : Markdown) (budget : Nat) : skip md budget = lookUp (findAnew md budget) := by
  cases budget <;> rfl

section

variable {md : Markdown} {budget : Nat} {c : Cursor} {memo : Memo}

theorem run_skip_recalled {known : Skipped} (recalled : memo[c.pos]? = some known)
    (inWindow : known.stop ≤ c.stop) : (skip md budget c).run memo = (known, memo) := by
  rw [skip_eq, run_lookUp, recalled]
  exact if_pos inWindow

theorem run_skip_anew (lacks : memo.Lacks c.stop c.pos) :
    (skip md budget c).run memo =
      (((findAnew md budget c).run memo).1,
        ((findAnew md budget c).run memo).2.insert c.pos ((findAnew md budget c).run memo).1) := by
  rw [skip_eq, run_lookUp]
  cases recalled : memo[c.pos]? with
  | none => rfl
  | some known => exact if_neg (Nat.not_le_of_lt (lacks known recalled))

theorem run_skip_pure (lacks : memo.Lacks c.stop c.pos) {skipped : Skipped}
    (finds : findAnew md budget c = pure skipped) :
    (skip md budget c).run memo = (skipped, memo.insert c.pos skipped) := by
  rw [run_skip_anew lacks, finds]
  rfl

end

section

variable {md : Markdown} {source : Text} {stop pos budget : Nat}

/-- The chain of the dialect without the rule for plain text. -/
theorem inlineChain_withoutText (md : Markdown) :
    md.withoutText.inlineChain = md.inlineChain.filter (· ≠ .text) := by
  simp only [Markdown.inlineChain, Markdown.withoutText, RuleTable.rules, List.filter_append]
  congr 1
  · split
    · rw [List.filter_map]
      rfl
    · rfl
  · induction md.inlineRules.entries with
    | nil => rfl
    | cons entry entries ih =>
      by_cases isText : entry.rule = .text
      · simpa [isText] using ih
      · simpa [isText] using ih

theorem not_mem_withoutText (md : Markdown) : .text ∉ md.withoutText.inlineChain := by
  rw [inlineChain_withoutText]
  simp

theorem findAnew_run (inText : stop ≤ source.length) (ends : ¬PlainAt source stop)
    (member : .text ∈ md.inlineChain) (inWindow : pos < stop) (plain : PlainAt source pos) :
    findAnew md (budget + 1) (Cursor.inside source pos stop) =
      pure ⟨runEnd source pos, true⟩ := by
  obtain ⟨mark, rest, begins, here⟩ := inside_rest_cons inText inWindow
  have bounded := runEnd_le (Nat.le_of_lt inWindow) ends
  have behind := lt_runEnd plain
  rw [findAnew, skipByRules, firstLength_run begins (plain.of_getElem? here) member
    (plainRun_inside plain bounded) (Nat.sub_pos_of_lt behind), pure_bind]
  change pure (Skipped.mk (pos + (runEnd source pos - pos)) true) = _
  rw [Nat.add_sub_cancel' (Nat.le_of_lt behind)]

theorem findAnew_single (inText : stop ≤ source.length) (without : .text ∉ md.inlineChain)
    (inWindow : pos < stop) (plain : PlainAt source pos) :
    findAnew md (budget + 1) (Cursor.inside source pos stop) = pure ⟨pos + 1, false⟩ := by
  obtain ⟨mark, rest, begins, here⟩ := inside_rest_cons inText inWindow
  rw [findAnew, skipByRules, firstLength_plain begins (plain.of_getElem? here) without, pure_bind]
  rfl

/-- With the rule for plain text a run is skipped as a whole. -/
theorem run_skip_run {memo : Memo} (inText : stop ≤ source.length) (ends : ¬PlainAt source stop)
    (member : .text ∈ md.inlineChain) (inWindow : pos < stop) (plain : PlainAt source pos)
    (levels : 0 < budget) (lacks : memo.Lacks stop pos) :
    (skip md budget (Cursor.inside source pos stop)).run memo =
      (⟨runEnd source pos, true⟩, memo.insert pos ⟨runEnd source pos, true⟩) := by
  obtain ⟨budget, rfl⟩ := Nat.exists_eq_succ_of_ne_zero (Nat.ne_of_gt levels)
  refine run_skip_pure ?_ (findAnew_run inText ends member inWindow plain)
  rwa [Cursor.stop_inside inText (Nat.le_of_lt inWindow)]

/-- Without that rule the first character is skipped. -/
theorem run_skip_single {memo : Memo} (inText : stop ≤ source.length)
    (without : .text ∉ md.inlineChain) (inWindow : pos < stop) (plain : PlainAt source pos)
    (levels : 0 < budget) (lacks : memo.Lacks stop pos) :
    (skip md budget (Cursor.inside source pos stop)).run memo =
      (⟨pos + 1, false⟩, memo.insert pos ⟨pos + 1, false⟩) := by
  obtain ⟨budget, rfl⟩ := Nat.exists_eq_succ_of_ne_zero (Nat.ne_of_gt levels)
  refine run_skip_pure ?_ (findAnew_single inText without inWindow plain)
  rwa [Cursor.stop_inside inText (Nat.le_of_lt inWindow)]

/-- At the greatest depth of nesting the window is skipped. -/
theorem run_skip_limit {memo : Memo} (inText : stop ≤ source.length) (inWindow : pos < stop)
    (lacks : memo.Lacks stop pos) :
    (skip md 0 (Cursor.inside source pos stop)).run memo =
      (⟨stop, true⟩, memo.insert pos ⟨stop, true⟩) := by
  have stop_eq : (Cursor.inside source pos stop).stop = stop :=
    Cursor.stop_inside inText (Nat.le_of_lt inWindow)
  have finds : findAnew md 0 (Cursor.inside source pos stop) = pure ⟨stop, true⟩ := by
    change pure (Skipped.mk (Cursor.inside source pos stop).stop true) = _
    rw [stop_eq]
  exact run_skip_pure (by rwa [stop_eq]) finds

theorem run_skip_known {memo : Memo} {known : Skipped} (inText : stop ≤ source.length)
    (inWindow : pos < stop) (found : memo[pos]? = some known) (inside : known.stop ≤ stop) :
    (skip md budget (Cursor.inside source pos stop)).run memo = (known, memo) := by
  refine run_skip_recalled found ?_
  rwa [Cursor.stop_inside inText (Nat.le_of_lt inWindow)]

end

/-! ## Searches -/

/-- The outcome lies behind `pos` in the window, and is one character if no rule took it. -/
structure Skipped.Advances (pos stop : Nat) (skipped : Skipped) : Prop where
  behind : pos < skipped.stop
  inside : skipped.stop ≤ stop
  single : skipped.consumed = false → skipped.stop = pos + 1

/-- Skipping does the same at the position with and without the rule for plain text. -/
def SkipsAlike (md : Markdown) (source : Text) (stop budget pos : Nat) : Prop :=
  Relates (Abreast source budget pos) (skip md budget (Cursor.inside source pos stop))
    (skip md.withoutText budget (Cursor.inside source pos stop))
    fun skipped skipped' memo other => skipped = skipped' ∧ skipped.Advances pos stop ∧
      Abreast source budget skipped.stop memo other

section

variable {md : Markdown} {source : Text} {stop pos budget : Nat}

/-- A search passes over a plain character. -/
theorem Search.Quiet.run_go {State : Type} {search : Search State} (quiet : search.Quiet)
    (inText : stop ≤ source.length) (inWindow : pos < stop) (plain : PlainAt source pos)
    {skip : Skip} {memo memo' : Memo} {skipped : Skipped}
    (skips : (skip (Cursor.inside source pos stop)).run memo = (skipped, memo'))
    (behind : pos ≤ skipped.stop) (inside : skipped.stop ≤ stop) (fuel : Nat) (state : State) :
    (search.go skip (fuel + 1) state (Cursor.inside source pos stop)).run memo =
      (search.go skip fuel state (Cursor.inside source skipped.stop stop)).run memo' := by
  obtain ⟨mark, rest, begins, here⟩ := inside_rest_cons inText inWindow
  have notEmpty : (Cursor.inside source pos stop).rest.isEmpty = false := by rw [begins]; rfl
  obtain ⟨goesOn, stays⟩ := quiet.passes begins (plain.of_getElem? here)
  rw [Search.go, notEmpty, goesOn]
  simp only [Bool.false_eq_true, if_false]
  rw [Memoized.run_bind, skips]
  dsimp only
  rw [stays]
  dsimp only
  rw [Cursor.moveTo_inside behind inside]

/-- Without the rule for plain text a search passes plain characters one by one. -/
theorem Search.Quiet.run_go_passing {State : Type} {search : Search State} (quiet : search.Quiet)
    (inText : stop ≤ source.length) (without : .text ∉ md.inlineChain) {next : Nat}
    (inWindow : next ≤ stop) (ordered : pos ≤ next)
    (plain : ∀ i, pos ≤ i → i < next → PlainAt source i) {memo : Memo}
    (passable : memo.Passable stop budget pos next) (fuel : Nat) (state : State) :
    ∃ memo', Passed pos next memo memo' ∧
      (search.go (skip md budget) (fuel + (next - pos)) state (Cursor.inside source pos stop)).run
          memo =
        (search.go (skip md budget) fuel state (Cursor.inside source next stop)).run memo' := by
  obtain ⟨count, rfl⟩ := Nat.exists_eq_add_of_le ordered
  rw [Nat.add_sub_cancel_left]
  induction count generalizing pos memo with
  | zero =>
    refine ⟨memo, fun i => ?_, rfl⟩
    rw [if_neg (by omega)]
  | succ count ih =>
    have here : pos < stop := by omega
    have isPlain := plain pos (Nat.le_refl _) (by omega)
    have skips : ∃ memo', (skip md budget (Cursor.inside source pos stop)).run memo =
        (⟨pos + 1, false⟩, memo') ∧
          ∀ i, memo'[i]? = if i = pos then some ⟨pos + 1, false⟩ else memo[i]? := by
      rcases passable pos (Nat.le_refl _) (by omega) with known | ⟨levels, lacks⟩
      · refine ⟨memo, run_skip_known inText here known here, fun i => ?_⟩
        split
        · next same => rw [same, known]
        · rfl
      · exact ⟨_, run_skip_single inText without here isPlain levels lacks,
          memo.getElem?_insert pos _⟩
    obtain ⟨memo', skipped, holds⟩ := skips
    have passable' : memo'.Passable stop budget (pos + 1) (pos + 1 + count) := by
      intro i behind before
      unfold Memo.Lacks
      rw [holds, if_neg (by omega)]
      exact passable i (by omega) (by omega)
    obtain ⟨memo'', passed, goes⟩ := ih (by omega) (by omega)
      (fun i behind before => plain i (by omega) (by omega)) passable'
    rw [show fuel + (count + 1) = fuel + count + 1 from rfl,
      quiet.run_go inText here isPlain skipped (Nat.le_succ _) here, Nat.add_comm count 1,
      ← Nat.add_assoc pos 1 count]
    refine ⟨memo'', fun i => ?_, goes⟩
    rw [passed, holds]
    by_cases first : i = pos
    · rw [if_neg (by omega), if_pos first, if_pos (by omega), first]
    · rw [if_neg first]
      exact ite_congr (propext (by omega)) (fun _ => rfl) fun _ => rfl

end

section

variable {md : Markdown} {source : Text} {stop pos budget : Nat} {memo other : Memo}
  (inText : stop ≤ source.length) (ends : ¬PlainAt source stop) (member : .text ∈ md.inlineChain)

include inText ends member

/-- Where a plain character stands, either both sides skip the same, or one skips a run that the
other one can pass. -/
theorem skips_plain (abreast : Abreast source budget pos memo other) (inWindow : pos < stop)
    (plain : PlainAt source pos) :
    (∃ skipped memo' other', pos < skipped.stop ∧ skipped.stop ≤ stop ∧
      (skip md budget (Cursor.inside source pos stop)).run memo = (skipped, memo') ∧
      (skip md.withoutText budget (Cursor.inside source pos stop)).run other = (skipped, other') ∧
      Abreast source budget skipped.stop memo' other') ∨
    (∃ memo',
      (skip md budget (Cursor.inside source pos stop)).run memo =
        (⟨runEnd source pos, true⟩, memo') ∧
      other.Passable stop budget pos (runEnd source pos) ∧
      ∀ other', Passed pos (runEnd source pos) other other' →
        Abreast source budget (runEnd source pos) memo' other') := by
  have twin := abreast.twin
  have ranAnew (levels : 0 < budget) (lacks : memo.Lacks stop pos) :=
    run_skip_run inText ends member inWindow plain levels lacks
  rcases twin.plain plain with ⟨same, limit⟩ | ⟨single, run⟩
  · rcases memo.lacks_or_recalls stop pos with lacks | ⟨known, found, inside⟩
    · have lacks' : other.Lacks stop pos := fun known found => lacks known (same ▸ found)
      rcases Nat.eq_zero_or_pos budget with rfl | levels
      · have atHead : ¬InsideRun source pos := by
          cases found : memo[pos]? with
          | none => exact fun inside => abreast.limit rfl inside found
          | some known => exact (limit known found).2
        exact .inl ⟨⟨stop, true⟩, _, _, inWindow, Nat.le_refl _,
          run_skip_limit inText inWindow lacks, run_skip_limit inText inWindow lacks',
          abreast.insert inWindow (by simp) (fun _ => ⟨rfl, atHead⟩) fun _ => not_insideRun ends⟩
      · exact .inr ⟨_, ranAnew levels lacks, twin.passable levels (.inr lacks'),
          fun other' passed => abreast.run plain (memo.getElem?_insert pos _) passed⟩
    · exact .inl ⟨known, memo, other, twin.forward pos known found, inside,
        run_skip_known inText inWindow found inside,
        run_skip_known inText inWindow (same.trans found) inside, abreast.recall found⟩
  · rcases run with found | ⟨none, inside⟩
    · have inside := runEnd_le (Nat.le_of_lt inWindow) ends
      refine .inr ⟨memo, run_skip_known inText inWindow found inside,
        fun i from_pos inRun => .inl (twin.singles single from_pos inRun), fun other' passed => ?_⟩
      refine abreast.run plain (fun i => ?_) passed
      split
      · next here => rw [here, found]
      · rfl
    · have levels : 0 < budget :=
        Nat.pos_of_ne_zero fun atLimit => abreast.limit atLimit inside none
      have lacks : memo.Lacks stop pos := fun known found => by rw [none] at found; cases found
      exact .inr ⟨_, ranAnew levels lacks, twin.passable levels (.inl single),
        fun other' passed => abreast.run plain (memo.getElem?_insert pos _) passed⟩

/-- Searches find the same places on either side, if skipping does the same at special
characters. -/
theorem relates_go {State : Type} {search : Search State} (quiet : search.Quiet)
    (without : .text ∉ md.withoutText.inlineChain)
    (skips : ∀ pos, pos < stop → ¬PlainAt source pos → SkipsAlike md source stop budget pos)
    (fuel fuel' : Nat) (enough : stop - pos < fuel) (enough' : stop - pos < fuel')
    (ordered : pos ≤ stop) (state : State) :
    Relates (Abreast source budget pos)
      (search.go (skip md budget) fuel state (Cursor.inside source pos stop))
      (search.go (skip md.withoutText budget) fuel' state (Cursor.inside source pos stop))
      fun found found' memo other => found = found' ∧ AtRest source memo other := by
  induction fuel generalizing pos fuel' state with
  | zero => omega
  | succ fuel ih =>
    obtain ⟨fuel', rfl⟩ := Nat.exists_eq_succ_of_ne_zero (Nat.ne_of_gt (Nat.zero_lt_of_lt enough'))
    rcases Nat.eq_or_lt_of_le ordered with atEnd | inWindow
    · have ended : (Cursor.inside source pos stop).rest = [] :=
        Cursor.inside_rest_eq_nil (Nat.le_of_eq atEnd.symm)
      rw [Search.go, Search.go, ended]
      exact .pure fun _ _ abreast => ⟨rfl, abreast.atRest (not_insideRun (atEnd ▸ ends))⟩
    · by_cases plain : PlainAt source pos
      · intro memo other abreast
        rcases skips_plain inText ends member abreast inWindow plain with
          ⟨skipped, memo', other', behind, inside, here, there, goesOn⟩ |
            ⟨memo', here, passable, goesOn⟩
        · rw [quiet.run_go inText inWindow plain here (Nat.le_of_lt behind) inside,
            quiet.run_go inText inWindow plain there (Nat.le_of_lt behind) inside]
          exact ih fuel' (by omega) (by omega) inside state memo' other' goesOn
        · have behind := lt_runEnd plain
          have inside := runEnd_le ordered ends
          obtain ⟨other', passed, there⟩ := quiet.run_go_passing inText without inside
            (Nat.le_of_lt behind) (fun i => plainAt_of_lt_runEnd) passable
            (fuel' + 1 - (runEnd source pos - pos)) state
          rw [Nat.sub_add_cancel (by omega)] at there
          rw [quiet.run_go inText inWindow plain here (Nat.le_of_lt behind) inside, there]
          exact ih _ (by omega) (by omega) inside state memo' other' (goesOn other' passed)
      · have apart : ¬InsideRun source pos := not_insideRun plain
        have notEmpty : (Cursor.inside source pos stop).rest.isEmpty = false :=
          List.isEmpty_eq_false_iff.mpr (Cursor.inside_rest_ne_nil inText inWindow)
        rw [Search.go, Search.go, notEmpty]
        simp only [Bool.false_eq_true, if_false]
        split
        · exact .pure fun _ _ abreast => ⟨rfl, abreast.atRest apart⟩
        · refine (skips pos inWindow plain).bind fun skipped skipped' =>
            .assume fun same => .assume fun bounds => ?_
          obtain ⟨behind, inside, single⟩ := bounds
          subst same
          cases next : search.next state (Cursor.inside source pos stop) skipped with
          | none =>
            have isNext := single (quiet.single next)
            refine .pure fun _ _ abreast => ⟨rfl, abreast.atRest ?_⟩
            rintro ⟨-, before, -⟩
            rw [isNext] at before
            exact plain before
          | some state =>
            dsimp only
            rw [Cursor.moveTo_inside (Nat.le_of_lt behind) inside]
            exact ih fuel' (by omega) (by omega) inside state

end

/-! ## Skipping at a special character -/

section

variable {md : Markdown} {source : Text} {stop pos budget : Nat}

/-- The rules themselves do not depend on the chain. -/
theorem scan_withoutText (md : Markdown) (skip : Skip) (rule : InlineRule) (c : Cursor) :
    scan md.withoutText skip rule c = scan md skip rule c := by
  cases rule <;> rfl

/-- Both sides skip the same at a special character, if they do when nothing is recalled. -/
theorem skips_special (inText : stop ≤ source.length) (inWindow : pos < stop)
    (special : ¬PlainAt source pos)
    (finds : Relates (AtRest source) (findAnew md budget (Cursor.inside source pos stop))
      (findAnew md.withoutText budget (Cursor.inside source pos stop))
      fun skipped skipped' memo other => skipped = skipped' ∧ skipped.Advances pos stop ∧
        (budget = 0 → ¬InsideRun source skipped.stop) ∧ AtRest source memo other) :
    SkipsAlike md source stop budget pos := by
  intro memo other abreast
  have apart : ¬InsideRun source pos := not_insideRun special
  have same := abreast.twin.special special
  have stop_eq : (Cursor.inside source pos stop).stop = stop :=
    Cursor.stop_inside inText (Nat.le_of_lt inWindow)
  rcases memo.lacks_or_recalls stop pos with lacks | ⟨known, found, inside⟩
  · have lacks' : other.Lacks stop pos := fun known found => lacks known (same ▸ found)
    obtain ⟨agree, bounds, ends, rests⟩ := finds memo other (abreast.atRest apart)
    rw [run_skip_anew (by rwa [stop_eq]), run_skip_anew (by rwa [stop_eq]), ← agree]
    exact ⟨rfl, bounds, (rests.abreast apart).insert bounds.behind bounds.single
      (fun plain => absurd plain special) ends⟩
  · rw [run_skip_known inText inWindow found inside,
      run_skip_known inText inWindow (same.trans found) inside]
    exact ⟨rfl, ⟨abreast.twin.forward pos known found, inside, abreast.twin.single found⟩,
      abreast.recall found⟩

variable (lawful : md.grammar.Lawful) (delimited : md.grammar.Delimited)
  (inText : stop ≤ source.length) (ends : ¬PlainAt source stop) (member : .text ∈ md.inlineChain)

include inText ends member

/-- Where skipping does the same at special characters, the searches of a rule go in step. -/
theorem steps_of_skips
    (skips : ∀ pos, pos < stop → ¬PlainAt source pos → SkipsAlike md source stop budget pos)
    (inWindow : pos < stop) :
    Steps (AtRest source) 0 (skip md budget) (skip md.withoutText budget)
      (Cursor.inside source pos stop) (Cursor.inside source pos stop) := by
  intro State search search' state n mark quiet shifts positive here special
  obtain rfl := shifts.eq
  have short := (List.getElem?_eq_some_iff.mp here).1
  rw [Cursor.length_inside inText] at short
  rw [getElem?_inside (by omega), ← Nat.add_sub_assoc positive] at here
  have apart : ¬InsideRun source (pos + n) := not_insideRun_behind here special
  rw [Cursor.advance_inside (by omega), Search.find, Search.find, Cursor.length_inside inText]
  intro memo other rests
  obtain ⟨same, rests⟩ := relates_go inText ends member quiet (not_mem_withoutText md) skips _ _
    (Nat.lt_succ_self _) (Nat.lt_succ_self _) (by omega) state memo other (rests.abreast apart)
  refine ⟨?_, rests⟩
  rw [← same]
  cases (StateT.run (search.go _ _ _ _) memo).1 with
  | none => exact .none
  | some place => exact .some (.refl place)

include lawful delimited

theorem relates_skip (inWindow : pos < stop) (special : ¬PlainAt source pos) :
    SkipsAlike md source stop budget pos := by
  induction budget generalizing pos with
  | zero =>
    refine skips_special inText inWindow special (.pure fun _ _ rests => ?_)
    rw [Cursor.stop_inside inText (Nat.le_of_lt inWindow)]
    exact ⟨rfl, ⟨inWindow, Nat.le_refl _, fun none => by cases none⟩, fun _ => not_insideRun ends,
      rests⟩
  | succ budget ih =>
    refine skips_special inText inWindow special ?_
    obtain ⟨mark, rest, begins, here⟩ := inside_rest_cons inText inWindow
    have isSpecial := isSpecial_of_not_plainAt special here
    have steps : Steps (AtRest source) 0 (skip md budget) (skip md.withoutText budget)
        (Cursor.inside source pos stop) (Cursor.inside source pos stop) :=
      steps_of_skips inText ends member (fun pos => ih) inWindow
    have scans (rule : InlineRule) : Agrees (AtRest source)
        (scan md (skip md budget) rule (Cursor.inside source pos stop))
        (scan md.withoutText (skip md.withoutText budget) rule
          (Cursor.inside source pos stop)) := by
      rw [scan_withoutText]
      exact relates_scan lawful delimited steps (Cursor.Shifted.refl _).resembles rule
    have bounds := ensures_firstLength
      (fun rule => ensures_scan lawful (forward_skip lawful budget) rule
        (Cursor.inside source pos stop))
      (md.inlineChain.filter (· ≠ .text))
    rw [findAnew, findAnew, skipByRules, skipByRules, firstLength_special begins isSpecial,
      inlineChain_withoutText]
    refine ((relates_firstLength scans _).ensuring bounds
      fun _ _ rests => rests.twin.forward).bind fun found found' => ?_
    refine .assume fun bounded => .assume fun same => ?_
    subst same
    cases found with
    | none =>
      exact .pure fun _ _ rests =>
        ⟨rfl, ⟨Nat.lt_succ_self _, inWindow, fun _ => rfl⟩, (absurd · (Nat.succ_ne_zero budget)),
          rests⟩
    | some length =>
      obtain ⟨positive, fits⟩ := bounded length rfl
      rw [Cursor.length_inside inText] at fits
      refine .pure fun _ _ rests =>
        ⟨rfl, ⟨?_, ?_, (absurd · Bool.noConfusion)⟩, (absurd · (Nat.succ_ne_zero budget)), rests⟩
      · exact Nat.lt_add_of_pos_right positive
      · change pos + length ≤ stop
        omega

end

/-! ## Pieces -/

section

variable {next next' : Cursor → Memoized (List Inline × Nat)} {source : Text} {pos stop : Nat}

/-- Where no rule matches, the characters become literals one by one. -/
theorem parsePieces_passing (inText : stop ≤ source.length) {count : Nat}
    (inWindow : pos + count ≤ stop)
    (none : ∀ i, pos ≤ i → i < pos + count → next (Cursor.inside source i stop) = pure ([], 0))
    (fuel : Nat) :
    parsePieces next (fuel + count) (Cursor.inside source pos stop) =
      parsePieces next fuel (Cursor.inside source (pos + count) stop) >>= fun pieces =>
        return (((source.drop pos).take count).map fun char => .literal [char]) ++ pieces := by
  induction count generalizing pos with
  | zero => simp
  | succ count ih =>
    obtain ⟨mark, rest, begins, here⟩ := inside_rest_cons inText (show pos < stop by omega)
    have moved : (Cursor.inside source pos stop).advance 1 = Cursor.inside source (pos + 1) stop :=
      Cursor.advance_inside (by omega)
    have text :
        (source.drop pos).take (count + 1) = mark :: (source.drop (pos + 1)).take count := by
      obtain ⟨short, same⟩ := List.getElem?_eq_some_iff.mp here
      rw [List.drop_eq_getElem_cons short, same, List.take_succ_cons]
    have more : parsePieces next (fuel + count) (Cursor.inside source (pos + 1) stop) = _ :=
      ih (by omega) fun i behind before => none i (by omega) (by omega)
    rw [Nat.add_assoc, Nat.add_comm 1 count] at more
    rw [show fuel + (count + 1) = fuel + count + 1 from rfl, parsePieces, begins]
    dsimp only
    rw [none pos (Nat.le_refl _) (by omega), pure_bind]
    dsimp only
    rw [if_neg (Nat.lt_irrefl 0), moved, more, text, bind_assoc]
    rfl

/-- The pieces of a window are alike, if they are at special characters, and if one side takes a run
where the other takes nothing. -/
theorem relates_parsePieces (inText : stop ≤ source.length) (ends : ¬PlainAt source stop)
    (plain : ∀ pos, pos < stop → PlainAt source pos →
      next (Cursor.inside source pos stop) =
          pure ([.literal ((source.drop pos).take (runEnd source pos - pos))],
            runEnd source pos - pos) ∧
        next' (Cursor.inside source pos stop) = pure ([], 0))
    (special : ∀ pos, pos < stop → ¬PlainAt source pos →
      Relates (AtRest source) (next (Cursor.inside source pos stop))
        (next' (Cursor.inside source pos stop)) fun made made' memo other =>
          pos + made.2 ≤ stop ∧ AllAlike made.1 made'.1 ∧ made.2 = made'.2 ∧
            AtRest source memo other)
    (fuel fuel' : Nat) (enough : stop - pos ≤ fuel) (enough' : stop - pos ≤ fuel') :
    Relates (AtRest source) (parsePieces next fuel (Cursor.inside source pos stop))
      (parsePieces next' fuel' (Cursor.inside source pos stop))
      fun pieces others memo other => AllAlike pieces others ∧ AtRest source memo other := by
  induction fuel generalizing pos fuel' with
  | zero =>
    have ended : (Cursor.inside source pos stop).rest = [] :=
      Cursor.inside_rest_eq_nil (by omega)
    rw [parsePieces_ended ended, parsePieces_ended ended]
    exact .pure fun _ _ rests => ⟨.refl _, rests⟩
  | succ fuel ih =>
    rcases Nat.lt_or_ge pos stop with inWindow | ended
    · obtain ⟨fuel', rfl⟩ := Nat.exists_eq_succ_of_ne_zero (show fuel' ≠ 0 by omega)
      obtain ⟨mark, rest, begins, here⟩ := inside_rest_cons inText inWindow
      have moved {n : Nat} (fits : pos + n ≤ stop) :
          (Cursor.inside source pos stop).advance n = Cursor.inside source (pos + n) stop :=
        Cursor.advance_inside fits
      by_cases isPlain : PlainAt source pos
      · have behind := lt_runEnd isPlain
        have inside := runEnd_le (Nat.le_of_lt inWindow) ends
        have passing := @parsePieces_passing next' source pos stop inText (runEnd source pos - pos)
          (by omega)
          (fun i from_pos before => (plain i (by omega)
            (plainAt_of_lt_runEnd from_pos (by omega))).2)
          (fuel' + 1 - (runEnd source pos - pos))
        rw [Nat.sub_add_cancel (by omega)] at passing
        rw [passing, parsePieces, begins]
        dsimp only
        rw [(plain pos inWindow isPlain).1, pure_bind]
        dsimp only
        rw [if_pos (Nat.sub_pos_of_lt behind), moved (by omega)]
        refine (ih _ (by omega) (by omega)).bind fun pieces others => .pure ?_
        rintro _ _ ⟨alike, rests⟩
        refine ⟨.append (fun level pending => ?_) alike, rests⟩
        rw [InlineRun.emitPieces_literals]
        simp [InlineRun.emitPieces, Inline.emit]
      · rw [parsePieces, parsePieces, begins]
        dsimp only
        refine (special pos inWindow isPlain).bind fun made made' => .assume fun bounded =>
          .assume fun alike => .assume fun same => ?_
        rw [← same]
        split
        · rw [moved bounded]
          refine (ih fuel' (by omega) (by omega)).bind fun pieces others => .pure ?_
          rintro _ _ ⟨more, rests⟩
          exact ⟨alike.append more, rests⟩
        · rw [moved (Nat.succ_le_of_lt inWindow)]
          refine (ih fuel' (by omega) (by omega)).bind fun pieces others => .pure ?_
          rintro _ _ ⟨more, rests⟩
          exact ⟨alike.append (Inline.AllAlike.append (.refl [_]) more), rests⟩
    · have none : (Cursor.inside source pos stop).rest = [] := Cursor.inside_rest_eq_nil ended
      rw [parsePieces_ended none, parsePieces_ended none]
      exact .pure fun _ _ rests => ⟨.refl _, rests⟩

end

section

variable {md : Markdown} {source : Text} {pos stop : Nat}
  {parseLabel parseLabel' : Text → List Inline} (lawful : md.grammar.Lawful)
  (delimited : md.grammar.Delimited) (member : .text ∈ md.inlineChain)
  (labels : ∀ label, AllAlike (parseLabel label) (parseLabel' label))

include lawful delimited member labels

theorem relates_parseWindow (budget : Nat) (inText : stop ≤ source.length)
    (ends : ¬PlainAt source stop) (ordered : pos ≤ stop) :
    Relates (AtRest source) (parseWindow md parseLabel budget (Cursor.inside source pos stop))
      (parseWindow md.withoutText parseLabel' budget (Cursor.inside source pos stop))
      fun pieces others memo other => AllAlike pieces others ∧ AtRest source memo other := by
  induction budget generalizing pos stop with
  | zero => exact .pure fun _ _ rests => ⟨.refl _, rests⟩
  | succ budget ih =>
    refine relates_parsePieces inText ends (fun pos inWindow plain => ?_)
      (fun pos inWindow special => ?_) _ _ ?_ ?_
    · obtain ⟨mark, rest, begins, here⟩ := inside_rest_cons inText inWindow
      have isPlain := plain.of_getElem? here
      have bounded := runEnd_le (Nat.le_of_lt inWindow) ends
      exact ⟨firstPieces_run begins isPlain member (plainRun_inside plain bounded)
          (Nat.sub_pos_of_lt (lt_runEnd plain)),
        firstPieces_plain begins isPlain (not_mem_withoutText md)⟩
    · obtain ⟨mark, rest, begins, here⟩ := inside_rest_cons inText inWindow
      have steps : Steps (AtRest source) 0 (skip md (budget + 1))
          (skip md.withoutText (budget + 1)) (Cursor.inside source pos stop)
          (Cursor.inside source pos stop) :=
        steps_of_skips inText ends member
          (fun pos => relates_skip lawful delimited inText ends member) inWindow
      rw [firstPieces_special begins (isSpecial_of_not_plainAt special here),
        inlineChain_withoutText]
      refine (@relates_firstPieces (AtRest source) (Cursor.inside source pos stop) _
        (·.Framed (Cursor.inside source pos stop).rest) _ _ _ _ (fun _ => AtRest source)
        (fun _ _ => id) (fun rule => ?scan) (fun construct fits framed => ?resolve) _).mono
          fun made made' _ _ ⟨bounded, others⟩ => ⟨?bounded, others⟩
      case scan =>
        rw [scan_withoutText]
        exact relates_scan_framed lawful delimited steps (Cursor.Shifted.refl _).resembles
          (forward_skip lawful _) (fun _ _ rests => rests.twin.forward) rule
      case resolve =>
        refine relates_resolve (fun _ _ => rfl) (fun _ _ => id) (fun _ _ _ _ => labels _)
          fun enclosure skip length isForm _ => ?_
        obtain ⟨inside, apart, isWindow⟩ := framed.window inText isForm
        rw [isWindow]
        exact ih (Nat.le_trans inside inText) apart (Nat.le_add_right _ _)
      case bounded =>
        rw [Cursor.length_inside inText] at bounded
        omega
    · exact Nat.le_of_eq (Cursor.length_inside inText).symm
    · exact Nat.le_of_eq (Cursor.length_inside inText).symm

end

theorem not_plainAt_length (source : Text) : ¬PlainAt source source.length := by
  rintro ⟨c, here, -⟩
  rw [List.getElem?_eq_none (Nat.le_refl _)] at here
  cases here

theorem alike_parseNested {md : Markdown} (lawful : md.grammar.Lawful)
    (delimited : md.grammar.Delimited) (member : .text ∈ md.inlineChain) (depth : Nat)
    (source : Text) :
    AllAlike (parseNested md depth source) (parseNested md.withoutText depth source) := by
  induction depth generalizing source with
  | zero => exact .refl _
  | succ depth ih =>
    rw [parseNested, parseNested, ← Cursor.inside_whole]
    exact (relates_parseWindow lawful delimited member ih md.maxNesting (Nat.le_refl _)
      (not_plainAt_length source) (Nat.zero_le _) ∅ ∅ (Memo.atRest_empty source)).1

/-- A chain without the rule for plain text is what it is without it. -/
theorem withoutText_eq {md : Markdown} (without : .text ∉ md.inlineChain) :
    md.withoutText = md := by
  have same : md.inlineRules.entries.filter (·.rule ≠ .text) = md.inlineRules.entries := by
    refine List.filter_eq_self.mpr fun entry member => decide_eq_true fun isText => without ?_
    exact List.mem_append_left _ (List.mem_map.mpr ⟨entry, member, isText⟩)
  rw [Markdown.withoutText, same]

/-- The rule for plain text makes no difference: without it, in whatever chain of rules and on
whatever level of nesting, every text has the same tokens. -/
theorem parse_withoutText {md : Markdown} (jsx : md.grammar = .jsx) (source : Text) :
    InlineRun.parse md.withoutText source = InlineRun.parse md source := by
  have lawful : md.grammar.Lawful := jsx ▸ TagGrammar.jsx_lawful
  have delimited : md.grammar.Delimited := jsx ▸ TagGrammar.jsx_delimited
  by_cases member : .text ∈ md.inlineChain
  · have lawful' : md.withoutText.grammar.Lawful := lawful
    rw [InlineRun.parse_eq lawful, InlineRun.parse_eq lawful']
    exact ((alike_parseNested lawful delimited member _ source).emitAll 0 []).symm
  · rw [withoutText_eq member]

/-- A run begins behind the parenthesis of a link, inside emphasis. -/
theorem parse_withoutText_link :
    let md : Markdown := { transform := .ok }
    let source := ['*', 'a', ' ', '[', 'b', ']', '(', 'c', ')', ' ', 'd', '*', ' ', 'e']
    InlineRun.parse md.withoutText source = InlineRun.parse md source ∧
      (InlineRun.parse md source).map (·.kind) =
        [.emOpen, .text, .linkOpen, .text, .linkClose, .text, .emClose, .text] := by
  intro md source
  exact ⟨parse_withoutText rfl source, by decide +kernel⟩

end ComponentMarkdown
