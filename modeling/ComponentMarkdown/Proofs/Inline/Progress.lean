import ComponentMarkdown.Inline.Parse
import ComponentMarkdown.Proofs.Inline.Fits
import ComponentMarkdown.Proofs.Inline.Targets
import ComponentMarkdown.Proofs.TagGrammar.Extent

/-!
# Progress of inline parsing

What a rule matches lies inside the window and takes at least one character, whatever skipping has
found before. The invariant is about the memo: every remembered outcome lies behind its position
(`Memo.Forward`). The file has:

* `Ensures`, what a memoized computation gives while it keeps the invariant;
* the searches for the end of a construct, and `ensures_scan` for any rule;
* `forward_skip` for skipping and `ensures_parseWindow` for parsing.
-/

namespace ComponentMarkdown

/-- Every remembered outcome lies behind its position. -/
def Memo.Forward (memo : Memo) : Prop :=
  ∀ (pos : Nat) (known : Skipped), memo[pos]? = some known → pos < known.stop

theorem Memo.forward_empty : Memo.Forward ∅ := by
  intro pos known found
  simp at found

theorem Memo.Forward.insert {memo : Memo} (forward : memo.Forward) {pos : Nat}
    {outcome : Skipped} (behind : pos < outcome.stop) :
    Memo.Forward (memo.insert pos outcome) := by
  intro other known found
  rw [Std.TreeMap.getElem?_insert] at found
  split at found
  · next same =>
    cases found
    rwa [← Nat.compare_eq_eq.mp same]
  · exact forward other known found

/-! ## Memoized computations -/

namespace Memoized

variable {α β : Type}

/-- The result of `x` satisfies `post`, and `x` keeps the invariant of the memo. -/
def Ensures (x : Memoized α) (post : α → Prop) : Prop :=
  ∀ memo : Memo, memo.Forward → post (x.run memo).1 ∧ Memo.Forward (x.run memo).2

theorem run_pure (value : α) (memo : Memo) :
    (pure value : Memoized α).run memo = (value, memo) := rfl

theorem run_bind (x : Memoized α) (f : α → Memoized β) (memo : Memo) :
    (x >>= f).run memo = (f (x.run memo).1).run (x.run memo).2 := rfl

theorem Ensures.pure {post : α → Prop} {value : α} (holds : post value) :
    Ensures (Pure.pure value) post :=
  fun _ forward => ⟨holds, forward⟩

theorem Ensures.bind {x : Memoized α} {f : α → Memoized β} {mid : α → Prop} {post : β → Prop}
    (first : Ensures x mid) (next : ∀ value, mid value → Ensures (f value) post) :
    Ensures (x >>= f) post := by
  intro memo forward
  obtain ⟨holds, kept⟩ := first memo forward
  exact next _ holds _ kept

theorem Ensures.mono {x : Memoized α} {post weaker : α → Prop} (ensured : Ensures x post)
    (weaken : ∀ value, post value → weaker value) : Ensures x weaker := by
  intro memo forward
  obtain ⟨holds, kept⟩ := ensured memo forward
  exact ⟨weaken _ holds, kept⟩

end Memoized

open Memoized (Ensures)

/-- Skipping moves forward inside the window. -/
def Skip.Forward (skip : Skip) : Prop :=
  ∀ c : Cursor, c.rest ≠ [] →
    Ensures (skip c) fun skipped => c.pos < skipped.stop ∧ skipped.stop ≤ c.stop

namespace Cursor

theorem stop_advance {c : Cursor} {n : Nat} (fits : n ≤ c.rest.length) :
    (c.advance n).stop = c.stop := by
  simp only [stop, advance, List.length_drop]
  omega

@[simp] theorem moveTo_pos {c : Cursor} {next : Nat} (forward : c.pos ≤ next) :
    (c.moveTo next).pos = next := by
  simp only [moveTo, advance]
  omega

theorem stop_moveTo {c : Cursor} {next : Nat} (inWindow : next ≤ c.stop) :
    (c.moveTo next).stop = c.stop :=
  stop_advance (by rw [stop] at inWindow; omega)

theorem pos_lt_stop {c : Cursor} (notEmpty : c.rest ≠ []) : c.pos < c.stop := by
  have := List.length_pos_iff.mpr notEmpty
  rw [stop]
  omega

end Cursor

/-! ## Searches -/

variable {skip : Skip}

/-- A search goes on behind what was skipped, with a cursor of the same window. -/
theorem Skip.Forward.bind {α : Type} {post : α → Prop} {c : Cursor} (forward : skip.Forward)
    (notEmpty : c.rest ≠ []) {next : Skipped → Memoized α}
    (goOn : ∀ skipped : Skipped, c.pos < (c.moveTo skipped.stop).pos →
      (c.moveTo skipped.stop).stop = c.stop → Ensures (next skipped) post) :
    Ensures (skip c >>= next) post := by
  refine (forward c notEmpty).bind fun skipped ⟨behind, inWindow⟩ => ?_
  refine goOn skipped ?_ (Cursor.stop_moveTo inWindow)
  rwa [Cursor.moveTo_pos (Nat.le_of_lt behind)]

theorem ensures_findCloser (forward : skip.Forward) (marker : Char) (count bodyStart fuel : Nat)
    (c : Cursor) :
    Ensures (findCloser skip marker count bodyStart fuel c) fun found =>
      ∀ closer, found = some closer →
        c.pos ≤ closer ∧ bodyStart < closer ∧ closer + count ≤ c.stop := by
  induction fuel generalizing c with
  | zero => exact .pure (by simp)
  | succ fuel ih =>
    rw [findCloser]
    split
    · exact .pure (by simp)
    · next notEmpty =>
      dsimp only
      split
      · next closes =>
        refine .pure fun closer found => ?_
        cases found
        simp only [Bool.and_eq_true, decide_eq_true_eq] at closes
        have := Text.runLength_le marker c.rest
        rw [Cursor.stop]
        omega
      · refine forward.bind (by simpa using notEmpty) fun skipped behind same => ?_
        refine (ih _).mono fun found bounds closer isCloser => ?_
        obtain ⟨after, inBody, inWindow⟩ := bounds closer isCloser
        exact ⟨by omega, inBody, same ▸ inWindow⟩

theorem ensures_findLabelEnd (forward : skip.Forward) (fuel depth : Nat) (c : Cursor) :
    Ensures (findLabelEnd skip fuel depth c) fun found =>
      ∀ labelEnd, found = some labelEnd → c.pos ≤ labelEnd ∧ labelEnd < c.stop := by
  induction fuel generalizing depth c with
  | zero => exact .pure (by simp)
  | succ fuel ih =>
    rw [findLabelEnd]
    split
    · exact .pure (by simp)
    · next mark rest begins =>
      have notEmpty : c.rest ≠ [] := by simp [begins]
      dsimp only
      generalize (if (mark == ']') = true then depth - 1 else depth) = depth
      split
      · refine .pure fun labelEnd found => ?_
        cases found
        exact ⟨Nat.le_refl _, Cursor.pos_lt_stop notEmpty⟩
      · refine forward.bind notEmpty fun skipped behind same => ?_
        refine (ih _ _).mono fun found bounds labelEnd isEnd => ?_
        obtain ⟨after, inWindow⟩ := bounds labelEnd isEnd
        exact ⟨by omega, same ▸ inWindow⟩

theorem ensures_closeAhead {grammar : TagGrammar} (lawful : grammar.Lawful)
    (forward : skip.Forward) (name : Text) (fuel : Nat) (c : Cursor) :
    Ensures (closeAhead grammar skip name fuel c) fun found =>
      ∀ bodyEnd stop, found = some (bodyEnd, stop) →
        c.pos ≤ bodyEnd ∧ bodyEnd < stop ∧ stop ≤ c.stop := by
  induction fuel generalizing c with
  | zero => exact .pure (by simp)
  | succ fuel ih =>
    rw [closeAhead]
    split
    · exact .pure (by simp)
    · next notEmpty =>
      refine forward.bind (by simpa using notEmpty) fun skipped behind same => ?_
      have goOn : Ensures (closeAhead grammar skip name fuel (c.moveTo skipped.stop)) fun found =>
          ∀ bodyEnd stop, found = some (bodyEnd, stop) →
            c.pos ≤ bodyEnd ∧ bodyEnd < stop ∧ stop ≤ c.stop := by
        refine (ih _).mono fun found bounds bodyEnd stop isClose => ?_
        obtain ⟨after, ordered, inWindow⟩ := bounds bodyEnd stop isClose
        exact ⟨by omega, ordered, same ▸ inWindow⟩
      split
      · next tag closes =>
        obtain ⟨positive, bounded⟩ := lawful.closeTag closes
        split
        · refine .pure fun bodyEnd stop found => ?_
          cases found
          rw [Cursor.stop]
          omega
        · exact goOn
      · exact goOn

/-! ## Rules -/

theorem ensures_emphasis (forward : skip.Forward) (c : Cursor) :
    Ensures (emphasis? skip c) (Construct.AllFit · c.rest) := by
  rw [emphasis?]
  split
  · exact .pure (Construct.allFit_none _)
  · next marker rest begins =>
    dsimp only
    split
    · exact .pure (Construct.allFit_none _)
    · have run_pos : 0 < Text.runLength marker c.rest := begins ▸ Text.runLength_pos marker rest
      have run_le := Text.runLength_le marker c.rest
      generalize Text.runLength marker c.rest = run at *
      have same : (c.advance (min run 2)).stop = c.stop := Cursor.stop_advance (by omega)
      refine (ensures_findCloser forward marker _ _ _ _).bind fun found bounds => ?_
      split
      · exact .pure (Construct.allFit_none _)
      · next closer =>
        obtain ⟨-, inBody, inWindow⟩ := bounds closer rfl
        rw [same, Cursor.stop] at inWindow
        simp only [Cursor.advance] at inBody ⊢
        refine .pure fun construct made => ?_
        cases made
        exact ⟨by dsimp only; omega, by dsimp only; omega, by dsimp only; omega⟩

theorem ensures_labelled (forward : skip.Forward) {c : Cursor} {opening : Nat}
    (fits : opening ≤ c.rest.length) (enclosure : Target → Enclosure) :
    Ensures (labelled? skip c opening enclosure) (Construct.AllFit · c.rest) := by
  have same : (c.advance opening).stop = c.stop := Cursor.stop_advance fits
  rw [labelled?]
  dsimp only
  refine (ensures_findLabelEnd forward _ _ _).bind fun found bounds => ?_
  split
  · exact .pure (Construct.allFit_none _)
  · next labelEnd =>
    obtain ⟨after, inWindow⟩ := bounds labelEnd rfl
    rw [same, Cursor.stop] at inWindow
    simp only [Cursor.advance] at after ⊢
    split
    · exact .pure (Construct.allFit_none _)
    · next target behind read =>
      have := (Target.read_behind read).shorter
      simp only [List.length_drop] at this
      refine .pure fun construct made => ?_
      cases made
      exact ⟨by dsimp only; omega, by dsimp only; omega, by dsimp only; omega⟩

/-- An element fits if its body does, which makes no difference when the body is blank. -/
theorem Construct.fits_element {code body rest : Text} {length skip : Nat} (positive : 0 < length)
    (bounded : length ≤ rest.length) (room : skip + body.length ≤ length) :
    Construct.Fits ⟨length, if body.all isBlank then .leaf (.embedded code)
      else .enclosing (.element code) skip body.length⟩ rest := by
  refine ⟨positive, bounded, ?_⟩
  cases body.all isBlank with
  | true => trivial
  | false => exact room

theorem ensures_embedded {md : Markdown} (lawful : md.grammar.Lawful) (forward : skip.Forward)
    (c : Cursor) : Ensures (embedded? md skip c) (Construct.AllFit · c.rest) := by
  rw [embedded?]
  split
  · exact .pure (Construct.allFit_none _)
  · split
    · exact .pure (Construct.allFit_none _)
    · next closes =>
      obtain ⟨positive, bounded⟩ := lawful.selfClosing closes
      refine .pure fun construct found => ?_
      obtain ⟨code, -, rfl⟩ := Option.map_eq_some_iff.mp found
      exact ⟨positive, bounded, trivial⟩
    · next tag opens closes =>
      obtain ⟨positive, bounded⟩ := lawful.openTag opens
      have same : (c.advance tag.length).stop = c.stop := Cursor.stop_advance bounded
      dsimp only
      refine (ensures_closeAhead lawful forward _ _ _).bind fun found bounds => ?_
      split
      · exact .pure (Construct.allFit_none _)
      · next bodyEnd stop =>
        obtain ⟨after, ordered, inWindow⟩ := bounds bodyEnd stop rfl
        rw [same, Cursor.stop] at inWindow
        simp only [Cursor.advance] at after ⊢
        refine .pure fun construct found => ?_
        obtain ⟨code, -, rfl⟩ := Option.map_eq_some_iff.mp found
        refine Construct.fits_element (by omega) (by omega) ?_
        rw [List.length_take]
        omega

theorem ensures_scan {md : Markdown} (lawful : md.grammar.Lawful) (forward : skip.Forward)
    (rule : InlineRule) (c : Cursor) :
    Ensures (scan md skip rule c) (Construct.AllFit · c.rest) := by
  cases rule with
  | text => exact .pure (allLeaves_plainRun c.rest).allFit
  | newline => exact .pure (allLeaves_newline c.rest).allFit
  | escape => exact .pure (allLeaves_escape c.rest).allFit
  | backticks => exact .pure (allLeaves_codeSpan c.rest).allFit
  | emphasis => exact ensures_emphasis forward c
  | link =>
    rw [scan, link?]
    split
    · next begins => exact ensures_labelled forward (by simp [begins]) _
    · exact .pure (Construct.allFit_none _)
  | image =>
    rw [scan, image?]
    split
    · next begins => exact ensures_labelled forward (by simp [begins]) _
    · exact .pure (Construct.allFit_none _)
  | autolink => exact .pure (allLeaves_autolink c.rest).allFit
  | embedded => exact ensures_embedded lawful forward c
  | entity => exact .pure (allLeaves_entity c.rest).allFit

/-! ## Skipping -/

theorem ensures_firstLength {scanRule : InlineRule → Cursor → Memoized (Option Construct)}
    {c : Cursor} (fits : ∀ rule, Ensures (scanRule rule c) (Construct.AllFit · c.rest))
    (rules : List InlineRule) :
    Ensures (firstLength scanRule c rules) fun found =>
      ∀ length, found = some length → 0 < length ∧ length ≤ c.rest.length := by
  induction rules with
  | nil => exact .pure (by simp)
  | cons rule rules ih =>
    rw [firstLength]
    refine (fits rule).bind fun found allFit => ?_
    split
    · next construct =>
      have fit := allFit construct rfl
      rw [if_pos fit.positive]
      refine .pure fun length same => ?_
      cases same
      exact ⟨fit.positive, fit.bounded⟩
    · exact ih

/-- Remembering an outcome keeps the memo as it should be, since skipping moves forward. -/
theorem ensures_remember {find : Skip} {c : Cursor}
    (forward : Ensures (find c) fun skipped => c.pos < skipped.stop ∧ skipped.stop ≤ c.stop) :
    Ensures (remember find c) fun skipped => c.pos < skipped.stop ∧ skipped.stop ≤ c.stop := by
  intro memo kept
  obtain ⟨bounds, kept⟩ := forward memo kept
  exact ⟨bounds, kept.insert bounds.1⟩

theorem run_lookUp (find : Skip) (c : Cursor) (memo : Memo) :
    (lookUp find c).run memo =
      match memo[c.pos]? with
      | some known => if known.stop ≤ c.stop then (known, memo) else (remember find c).run memo
      | none => (remember find c).run memo := by
  rw [lookUp, Memoized.run_bind]
  change StateT.run (match memo[c.pos]? with
    | some known => if known.stop ≤ c.stop then pure known else remember find c
    | none => remember find c) memo = _
  split
  · split <;> rfl
  · rfl

theorem Skip.Forward.lookUp {find : Skip} (forward : find.Forward) :
    (lookUp find).Forward := by
  intro c notEmpty memo kept
  have found := ensures_remember (forward c notEmpty) memo kept
  rw [run_lookUp]
  split
  · next known recalled =>
    split
    · next inWindow => exact ⟨⟨kept _ _ recalled, inWindow⟩, kept⟩
    · exact found
  · exact found

/-- Skipping moves forward inside the window, on every level of nesting. -/
theorem forward_skip {md : Markdown} (lawful : md.grammar.Lawful) (budget : Nat) :
    (ComponentMarkdown.skip md budget).Forward := by
  induction budget with
  | zero =>
    refine Skip.Forward.lookUp fun c notEmpty => .pure ?_
    exact ⟨Cursor.pos_lt_stop notEmpty, Nat.le_refl _⟩
  | succ budget ih =>
    refine Skip.Forward.lookUp fun c notEmpty => ?_
    have := List.length_pos_iff.mpr notEmpty
    refine (ensures_firstLength (fun rule => ensures_scan lawful ih rule c) _).bind
      fun found bounds => ?_
    split
    · next length =>
      have := bounds length rfl
      refine .pure ⟨?_, ?_⟩
      · dsimp only; omega
      · rw [Cursor.stop]; dsimp only; omega
    · refine .pure ⟨?_, ?_⟩
      · dsimp only; omega
      · rw [Cursor.stop]; dsimp only; omega

end ComponentMarkdown
