import Mathlib.Data.Option.Basic
import Mathlib.Tactic.SplitIfs
import ComponentMarkdown.Proofs.Block.Spans

/-!
# Finished blocks

Rules look ahead for the end of what they make, but a block that is followed by a line with content
does not depend on what comes later. The file has:

* `Scope.Extends`: a scope goes on behind the last line of another one, after an empty line;
* `Scope.Halts`: parsing has come to its end before the last line of the scope;
* `extends_runRule`: a rule that halts makes the same block in the scope that goes on;
* `parsesFinished_parseBlocks`: so does parsing.
-/

namespace ComponentMarkdown

namespace Scope

/-- The other scope has the same lines first, and goes on with an empty one. -/
structure Extends (scope other : Scope) : Prop where
  lines : ∀ number < scope.lines.size, other.lines[number]? = scope.lines[number]?
  longer : scope.lines.size < other.lines.size
  gap : other.isEmpty scope.lines.size = true
  indent : other.indent = scope.indent
  parent : other.parent = scope.parent
  level : other.level = scope.level

/-- Windows of the two scopes: either they end at the same line, or neither ends before the last
line of the shorter scope. -/
structure EndsAlike (scope : Scope) (stop stop' : Nat) : Prop where
  inText : stop ≤ scope.lines.size
  alike : ∀ number < scope.lines.size, stop' ≤ number ↔ stop ≤ number

/-- What ends at line `behind` has been seen to end in the scope: a line with content follows, or
the window ends here anyway. -/
def Halts (scope : Scope) (stop stop' behind : Nat) : Prop :=
  ∃ number, behind ≤ number ∧ number < scope.lines.size ∧
    (scope.isEmpty number = false ∨ stop' = stop)

variable {scope other : Scope} {number stop stop' : Nat}

theorem Halts.mono {behind earlier : Nat} (halts : scope.Halts stop stop' behind)
    (before : earlier ≤ behind) : scope.Halts stop stop' earlier := by
  obtain ⟨number, follows, inText, shown⟩ := halts
  exact ⟨number, Nat.le_trans before follows, inText, shown⟩

theorem Halts.inText {behind : Nat} (halts : scope.Halts stop stop' behind) :
    behind < scope.lines.size := by
  obtain ⟨number, follows, inText, -⟩ := halts
  exact Nat.lt_of_le_of_lt follows inText

theorem EndsAlike.lt_size (alike : scope.EndsAlike stop stop') (inWindow : number < stop) :
    number < scope.lines.size :=
  Nat.lt_of_lt_of_le inWindow alike.inText

/-- What is in the window of the shorter scope is in that of the other one. -/
theorem EndsAlike.lt (alike : scope.EndsAlike stop stop') (inWindow : number < stop) :
    number < stop' :=
  Nat.lt_of_not_le fun beyond =>
    Nat.not_le_of_lt inWindow ((alike.alike number (alike.lt_size inWindow)).mp beyond)

namespace Extends

variable (extending : scope.Extends other)
include extending

theorem line (inText : number < scope.lines.size) : other.line number = scope.line number := by
  have same := extending.lines number inText
  rw [Array.getElem?_eq_getElem inText] at same
  rw [Scope.line, same, Option.getD_some, line_eq_getElem scope inText]

theorem isEmpty (inText : number ≤ scope.lines.size) :
    other.isEmpty number = scope.isEmpty number := by
  rcases Nat.eq_or_lt_of_le inText with rfl | inText
  · rw [extending.gap, isEmpty_of_le (Nat.le_refl _)]
  · rw [Scope.isEmpty, extending.line inText, Scope.isEmpty]

theorem content (inText : number ≤ scope.lines.size) :
    other.content number = scope.content number := by
  rcases Nat.eq_or_lt_of_le inText with rfl | inText
  · exact (List.isEmpty_iff.mp extending.gap).trans
      (List.isEmpty_iff.mp (isEmpty_of_le (Nat.le_refl _))).symm
  · rw [Scope.content, extending.line inText, Scope.content]

theorem isDedented (inText : number < scope.lines.size) :
    other.isDedented number = scope.isDedented number := by
  unfold Scope.isDedented
  rw [extending.line inText, extending.indent]

theorem isDeeplyIndented (inText : number < scope.lines.size) :
    other.isDeeplyIndented number = scope.isDeeplyIndented number := by
  unfold Scope.isDeeplyIndented
  rw [extending.line inText, extending.indent]

theorem source {first : Nat} (inText : stop ≤ scope.lines.size) (indent : Nat) (keepEnd : Bool) :
    other.source first stop indent keepEnd = scope.source first stop indent keepEnd := by
  unfold Scope.source
  refine congrArg _ (List.map_congr_left fun number member => extending.line ?_)
  rw [List.mem_range'_1] at member
  omega

theorem skipEmptyUpTo {fuel fuel' : Nat} (enough : scope.lines.size - number ≤ fuel)
    (enough' : scope.lines.size - number ≤ fuel')
    (inText : scope.skipEmptyUpTo fuel number < scope.lines.size) :
    other.skipEmptyUpTo fuel' number = scope.skipEmptyUpTo fuel number := by
  have here : number < scope.lines.size :=
    Nat.lt_of_le_of_lt (scope.le_skipEmptyUpTo fuel number) inText
  induction fuel generalizing number fuel' with
  | zero => omega
  | succ fuel ih =>
    obtain ⟨fuel', rfl⟩ : ∃ more, fuel' = more + 1 := ⟨fuel' - 1, by omega⟩
    have there := Nat.lt_trans here extending.longer
    rw [Scope.skipEmptyUpTo, decide_eq_true here, Bool.true_and] at inText
    rw [Scope.skipEmptyUpTo, Scope.skipEmptyUpTo, decide_eq_true here, decide_eq_true there,
      Bool.true_and, Bool.true_and, extending.isEmpty (Nat.le_of_lt here)]
    split at inText
    · next empty =>
      rw [if_pos empty, if_pos empty]
      exact ih (by omega) (by omega) inText
        (Nat.lt_of_le_of_lt (scope.le_skipEmptyUpTo fuel (number + 1)) inText)
    · next notEmpty => rw [if_neg notEmpty, if_neg notEmpty]

theorem skipEmpty (inText : scope.skipEmpty number < scope.lines.size) :
    other.skipEmpty number = scope.skipEmpty number :=
  extending.skipEmptyUpTo (Nat.sub_le _ _)
    (Nat.le_trans (Nat.sub_le _ _) (Nat.le_of_lt extending.longer)) inText

/-- Where the window ends in one scope, or an empty line, it does so in the other one. -/
theorem beyond (alike : scope.EndsAlike stop stop') (inText : number ≤ scope.lines.size) :
    (decide (stop' ≤ number) || other.isEmpty number) =
      (decide (stop ≤ number) || scope.isEmpty number) := by
  rw [extending.isEmpty inText]
  rcases Nat.eq_or_lt_of_le inText with rfl | inText
  · rw [isEmpty_of_le (Nat.le_refl _), Bool.or_true, Bool.or_true]
  · rw [decide_eq_decide.mpr (alike.alike number inText)]

/-- Behind a block that has been seen to end, both scopes have a gap or neither has. -/
theorem gapAt {behind : Nat} (alike : scope.EndsAlike stop stop')
    (seen : scope.Halts stop stop' behind) :
    other.gapAt stop' behind = scope.gapAt stop behind := by
  have agree := alike.alike behind seen.inText
  rw [Scope.gapAt, Scope.gapAt, extending.isEmpty (Nat.le_of_lt seen.inText)]
  exact congrArg (· && _) (decide_eq_decide.mpr (by omega))

/-! ### Changes -/

theorem withParent (parent : Parent) : Extends { scope with parent } { other with parent } :=
  { extending with parent := rfl }

theorem withIndent (indent : Nat) : Extends { scope with indent } { other with indent } :=
  { extending with indent := rfl }

theorem withLevel (more : Nat) :
    Extends { scope with level := scope.level + more }
      { other with level := other.level + more } :=
  { extending with level := congrArg (· + more) extending.level }

theorem setLine (inText : number < scope.lines.size) (line : Line) :
    Extends { scope with lines := scope.lines.setIfInBounds number line }
      { other with lines := other.lines.setIfInBounds number line } where
  lines looked before := by
    rw [Array.size_setIfInBounds] at before
    rw [Array.getElem?_setIfInBounds, Array.getElem?_setIfInBounds,
      if_pos (Nat.lt_trans inText extending.longer), if_pos inText,
      extending.lines looked before]
  longer := by
    rw [Array.size_setIfInBounds, Array.size_setIfInBounds]
    exact extending.longer
  gap := by
    rw [Array.size_setIfInBounds, Scope.isEmpty, Scope.line]
    dsimp only
    rw [Array.getElem?_setIfInBounds_ne (Nat.ne_of_lt inText),
      Array.getElem?_eq_getElem extending.longer, Option.getD_some, ← line_eq_getElem]
    exact extending.gap
  indent := extending.indent
  parent := extending.parent
  level := extending.level

theorem replaceLines {first : Nat} {more : List Line}
    (fits : first + more.length ≤ scope.lines.size) :
    Extends { scope with lines := replaceLines scope.lines first more }
      { other with lines := ComponentMarkdown.replaceLines other.lines first more } := by
  induction more generalizing first scope other with
  | nil => exact extending
  | cons line more ih =>
    rw [List.length_cons] at fits
    refine ih (extending.setLine (show first < scope.lines.size by omega) line) ?_
    rw [Array.size_setIfInBounds]
    omega

end Extends

end Scope

/-! ## Blocks without blocks in them -/

theorem codeEnd_of_le (scope : Scope) {stop next : Nat} (beyond : stop ≤ next) (fuel last : Nat) :
    codeEnd scope stop fuel next last = last := by
  cases fuel with
  | zero => rfl
  | succ fuel => exact if_pos beyond

theorem fenceEnd_of_le (scope : Scope) (mark : Char) (length : Nat) {stop next : Nat}
    (beyond : stop ≤ next) (fuel : Nat) :
    fenceEnd scope mark length stop fuel next = (next, false) := by
  cases fuel with
  | zero => rfl
  | succ fuel => exact if_pos beyond

theorem paragraphEnd_of_beyond (md : Markdown) (scope : Scope) {stop next : Nat}
    (beyond : (decide (stop ≤ next) || scope.isEmpty next) = true) (fuel : Nat) :
    paragraphEnd md scope stop fuel next = next := by
  cases fuel with
  | zero => rfl
  | succ fuel => exact if_pos beyond

theorem quoteLines_of_beyond (md : Markdown) (scope : Scope) {stop next : Nat}
    (beyond : (decide (stop ≤ next) || scope.isEmpty next) = true) (fuel : Nat) (lastEmpty : Bool) :
    quoteLines md scope stop fuel lastEmpty next = [] := by
  cases fuel with
  | zero => rfl
  | succ fuel =>
    rw [Bool.or_eq_true, decide_eq_true_eq] at beyond
    unfold quoteLines
    rcases beyond with beyond | empty
    · rw [if_pos beyond]
    · dsimp only
      rw [List.isEmpty_iff.mp empty, ite_self]

section

variable {md : Markdown} {scope other : Scope} (extending : scope.Extends other)
variable {stop stop' : Nat} (alike : scope.EndsAlike stop stop')
include extending

theorem extends_endsAt {number : Nat} (inText : number < scope.lines.size) (chain : String) :
    endsAt md chain other number = endsAt md chain scope number :=
  endsAt_congr (extending.line inText) extending.indent extending.parent chain

theorem extends_nextMarker? {next : Nat} (inText : next < scope.lines.size) (marker : Marker) :
    nextMarker? other marker next = nextMarker? scope marker next := by
  unfold nextMarker?
  rw [extending.content (Nat.le_of_lt inText)]

theorem extends_hr? {first : Nat} (inText : first < scope.lines.size) :
    hr? other first = hr? scope first := by
  unfold hr?
  rw [extending.isDeeplyIndented inText, extending.content (Nat.le_of_lt inText)]

theorem extends_heading? {first : Nat} (inText : first < scope.lines.size) :
    heading? other first = heading? scope first := by
  unfold heading?
  rw [extending.isDeeplyIndented inText, extending.content (Nat.le_of_lt inText)]

include alike

theorem extends_paragraphEnd {fuel fuel' next : Nat} (enough : stop - next ≤ fuel)
    (enough' : stop' - next ≤ fuel') (inText : next ≤ scope.lines.size) :
    paragraphEnd md other stop' fuel' next = paragraphEnd md scope stop fuel next := by
  induction fuel generalizing fuel' next with
  | zero =>
    have beyond : (decide (stop ≤ next) || scope.isEmpty next) = true := by
      rw [decide_eq_true (by omega), Bool.true_or]
    rw [paragraphEnd_of_beyond md other ((extending.beyond alike inText).trans beyond),
      paragraphEnd]
  | succ fuel ih =>
    cases beyond : decide (stop ≤ next) || scope.isEmpty next with
    | true =>
      rw [paragraphEnd_of_beyond md other ((extending.beyond alike inText).trans beyond),
        paragraphEnd_of_beyond md scope beyond]
    | false =>
      have inWindow : next < stop := by
        rw [Bool.or_eq_false_iff, decide_eq_false_iff_not] at beyond
        omega
      have inside := alike.lt_size inWindow
      have there := alike.lt inWindow
      obtain ⟨fuel', rfl⟩ : ∃ more, fuel' = more + 1 := ⟨fuel' - 1, by omega⟩
      unfold paragraphEnd
      rw [extending.beyond alike inText, beyond, extending.isDeeplyIndented inside,
        extending.line inside, extends_endsAt (extending.withParent .paragraph) inside,
        ih (by omega) (by omega) inside]

theorem extends_paragraph {first : Nat} (inWindow : first < stop) :
    paragraph md other first stop' = paragraph md scope first stop := by
  have ⟨_, inside⟩ := paragraphEnd_bounds md scope (stop - first)
    (show first + 1 ≤ stop from inWindow)
  have same : paragraphEnd md other stop' (stop' - first) (first + 1) =
      paragraphEnd md scope stop (stop - first) (first + 1) :=
    extends_paragraphEnd extending alike (by omega) (by omega) (alike.lt_size inWindow)
  unfold paragraph
  dsimp only
  rw [same, extending.indent, extending.source (Nat.le_trans inside alike.inText)]

theorem extends_codeEnd {fuel fuel' next last : Nat} (enough : stop - next ≤ fuel)
    (enough' : stop' - next ≤ fuel') (ordered : last ≤ next) (inWindow : last ≤ stop)
    {number : Nat} (behind : codeEnd scope stop fuel next last ≤ number)
    (inText : number < scope.lines.size)
    (shown : next ≤ number ∧ scope.isEmpty number = false ∨ stop' = stop) :
    codeEnd other stop' fuel' next last = codeEnd scope stop fuel next last := by
  induction fuel generalizing fuel' next last with
  | zero =>
    have beyond : stop' ≤ next := by
      rcases shown with ⟨before, -⟩ | same
      · exact (alike.alike next (by omega)).mpr (by omega)
      · omega
    rw [codeEnd_of_le other beyond, codeEnd]
  | succ fuel ih =>
    by_cases beyond : stop ≤ next
    · have beyond' : stop' ≤ next := by
        rcases shown with ⟨before, -⟩ | same
        · exact (alike.alike next (by omega)).mpr beyond
        · omega
      rw [codeEnd_of_le other beyond', codeEnd_of_le scope beyond]
    · have inWindow := Nat.lt_of_not_le beyond
      have inside := alike.lt_size inWindow
      have there := alike.lt inWindow
      obtain ⟨fuel', rfl⟩ : ∃ more, fuel' = more + 1 := ⟨fuel' - 1, by omega⟩
      unfold codeEnd at behind ⊢
      rw [if_neg beyond] at behind ⊢
      rw [if_neg (Nat.not_le_of_lt there), extending.isEmpty (Nat.le_of_lt inside),
        extending.isDeeplyIndented inside]
      split_ifs at behind ⊢ with empty deep
      · refine ih (by omega) (by omega) (by omega) (by omega) behind ?_
        -- The line with content is another one.
        refine shown.imp_left fun there => ⟨?_, there.2⟩
        obtain ⟨before, notEmpty⟩ := there
        refine Nat.lt_of_le_of_ne before ?_
        rintro rfl
        rw [empty] at notEmpty
        cases notEmpty
      · obtain ⟨later, -⟩ := codeEnd_bounds scope fuel (Nat.le_refl (next + 1)) inWindow
        exact ih (by omega) (by omega) (Nat.le_refl _) inWindow behind
          (shown.imp_left fun there => ⟨Nat.le_trans later behind, there.2⟩)
      · rfl

theorem extends_fenceEnd (mark : Char) (length : Nat) {fuel fuel' next : Nat}
    (enough : stop - next ≤ fuel) (enough' : stop' - next ≤ fuel') (ordered : next ≤ stop)
    (inText : (fenceEnd scope mark length stop fuel next).1 < scope.lines.size) :
    fenceEnd other mark length stop' fuel' next = fenceEnd scope mark length stop fuel next := by
  -- The search goes on up to its end.
  have inside : next < scope.lines.size :=
    Nat.lt_of_le_of_lt (fenceEnd_bounds scope mark length fuel ordered).1 inText
  induction fuel generalizing fuel' next with
  | zero =>
    have beyond : stop' ≤ next := (alike.alike next inside).mpr (by omega)
    rw [fenceEnd_of_le other mark length beyond, fenceEnd]
  | succ fuel ih =>
    by_cases beyond : stop ≤ next
    · have beyond' := (alike.alike next inside).mpr beyond
      rw [fenceEnd_of_le other mark length beyond', fenceEnd_of_le scope mark length beyond]
    · have inWindow := Nat.lt_of_not_le beyond
      have there := alike.lt inWindow
      obtain ⟨fuel', rfl⟩ : ∃ more, fuel' = more + 1 := ⟨fuel' - 1, by omega⟩
      unfold fenceEnd at inText ⊢
      rw [if_neg beyond] at inText ⊢
      rw [if_neg (Nat.not_le_of_lt there), extending.isEmpty (Nat.le_of_lt inside),
        extending.isDedented inside, extending.isDeeplyIndented inside,
        extending.content (Nat.le_of_lt inside)]
      split_ifs at inText ⊢
      · rfl
      · rfl
      · exact ih (by omega) (by omega) inWindow inText (Nat.lt_of_le_of_lt
          (fenceEnd_bounds scope mark length fuel inWindow).1 inText)

theorem extends_indentedCode? {first : Nat} (inWindow : first < stop)
    (halts : ∀ block ∈ indentedCode? scope first stop, scope.Halts stop stop' block.span.2) :
    indentedCode? other first stop' = indentedCode? scope first stop := by
  unfold indentedCode? at halts ⊢
  dsimp only at halts ⊢
  rw [extending.isDeeplyIndented (alike.lt_size inWindow)]
  cases deep : scope.isDeeplyIndented first with
  | false => rfl
  | true =>
    rw [deep] at halts
    obtain ⟨number, behind, inText, shown⟩ := halts _ rfl
    have ⟨later, inside⟩ := codeEnd_bounds scope (stop - first) (Nat.le_refl (first + 1)) inWindow
    have same := extends_codeEnd extending alike
      (show stop - (first + 1) ≤ stop - first by omega)
      (show stop' - (first + 1) ≤ stop' - first by omega) (Nat.le_refl _) inWindow behind inText
      (shown.imp_left fun notEmpty => ⟨Nat.le_trans later behind, notEmpty⟩)
    rw [same, extending.indent, extending.source (Nat.le_trans inside alike.inText)]

theorem extends_fence? {first : Nat} (inWindow : first < stop)
    (halts : ∀ block ∈ fence? scope first stop, scope.Halts stop stop' block.span.2) :
    fence? other first stop' = fence? scope first stop := by
  have here := alike.lt_size inWindow
  unfold fence? at halts ⊢
  rw [extending.isDeeplyIndented here, extending.content (Nat.le_of_lt here), extending.line here]
  cases shallow : scope.isDeeplyIndented first with
  | true => rfl
  | false =>
    cases opening : fenceOpening? (scope.content first) with
    | none => rfl
    | some found =>
      obtain ⟨mark, length, info⟩ := found
      rw [shallow, opening] at halts
      have ⟨_, inside, closes⟩ := fenceEnd_bounds scope mark length (stop - first)
        (show first + 1 ≤ stop from inWindow)
      have inText : (fenceEnd scope mark length stop (stop - first) (first + 1)).1 <
          scope.lines.size := by
        refine Nat.lt_of_le_of_lt ?_ (halts _ rfl).inText
        show _ ≤ if _ then _ else _
        split
        · exact Nat.le_succ _
        · exact Nat.le_refl _
      have same := extends_fenceEnd extending alike mark length
        (show stop - (first + 1) ≤ stop - first by omega)
        (show stop' - (first + 1) ≤ stop' - first by omega) inWindow inText
      simp only [Option.bind_eq_bind, Option.bind_some, same,
        extending.source (Nat.le_of_lt inText)]

/-! ## Quotes -/

theorem extends_quoteLines {fuel fuel' next : Nat} (enough : stop - next ≤ fuel)
    (enough' : stop' - next ≤ fuel') (inText : next ≤ scope.lines.size) (lastEmpty : Bool) :
    quoteLines md other stop' fuel' lastEmpty next =
      quoteLines md scope stop fuel lastEmpty next := by
  induction fuel generalizing fuel' next lastEmpty with
  | zero =>
    have beyond : (decide (stop ≤ next) || scope.isEmpty next) = true := by
      rw [decide_eq_true (by omega), Bool.true_or]
    rw [quoteLines_of_beyond md other ((extending.beyond alike inText).trans beyond), quoteLines]
  | succ fuel ih =>
    cases beyond : decide (stop ≤ next) || scope.isEmpty next with
    | true =>
      rw [quoteLines_of_beyond md other ((extending.beyond alike inText).trans beyond),
        quoteLines_of_beyond md scope beyond]
    | false =>
      have inWindow : next < stop := by
        rw [Bool.or_eq_false_iff, decide_eq_false_iff_not] at beyond
        omega
      have inside := alike.lt_size inWindow
      have there := alike.lt inWindow
      obtain ⟨fuel', rfl⟩ : ∃ more, fuel' = more + 1 := ⟨fuel' - 1, by omega⟩
      unfold quoteLines
      simp only [if_neg (Nat.not_le_of_lt inWindow), if_neg (Nat.not_le_of_lt there),
        extending.isDedented inside, extending.line inside,
        extends_endsAt ((extending.withIndent 0).withParent .blockquote) inside,
        ih (show stop - (next + 1) ≤ fuel by omega) (show stop' - (next + 1) ≤ fuel' by omega)
          inside]

end

/-! ## Containers -/

theorem isEmpty_setLine (scope : Scope) {next number : Nat} (behind : next < number)
    (inText : number < scope.lines.size) (line : Line) (indent : Nat) (parent : Parent)
    (level : Nat) :
    Scope.isEmpty ⟨scope.lines.setIfInBounds next line, indent, parent, level⟩ number =
      scope.isEmpty number := by
  unfold Scope.isEmpty Scope.line
  dsimp only
  rw [Array.getElem?_setIfInBounds_ne (Nat.ne_of_lt behind), Array.getElem?_eq_getElem inText,
    Option.getD_some, Option.getD_some]

/-- Parsing that halts gives the same in a scope that goes on, if at most `depth` levels are
left. -/
def ParsesFinished (md : Markdown) (depth : Nat) (tree : ParseBlocks) : Prop :=
  ∀ {scope other : Scope}, scope.Extends other → md.maxNesting ≤ scope.level + depth →
    ∀ {stop stop' : Nat}, scope.EndsAlike stop stop' → ∀ progress {first : Nat}, first < stop →
      scope.Halts stop stop' (tree scope progress first stop).2.line →
        tree other progress first stop' = tree scope progress first stop

section

variable {md : Markdown} {depth : Nat} {tree : ParseBlocks} {scope other : Scope}
variable (finished : ParsesFinished md depth tree) (takesLines : TakesLines md depth tree)
variable (levels : md.maxNesting ≤ scope.level + (depth + 1))
variable (extending : scope.Extends other) {stop stop' : Nat} (alike : scope.EndsAlike stop stop')
include finished levels extending alike

theorem extends_blockquote? (progress : Progress) {first : Nat} (inWindow : first < stop)
    (notDedented : scope.isDedented first = false)
    (halts : ∀ made ∈ blockquote? md tree scope progress first stop,
      scope.Halts stop stop' made.2.line) :
    blockquote? md tree other progress first stop' =
      blockquote? md tree scope progress first stop := by
  have inText := alike.lt_size inWindow
  have same : quoteLines md other stop' (stop' - first) false first =
      quoteLines md scope stop (stop - first) false first :=
    extends_quoteLines extending alike (Nat.le_refl _) (Nat.le_refl _) (Nat.le_of_lt inText) false
  have opens : BlockRule.blockquote.opens md other first =
      BlockRule.blockquote.opens md scope first :=
    BlockRule.opens_congr (extending.line inText) extending.indent extending.parent .blockquote
  change opensBlockquote other first = opensBlockquote scope first at opens
  unfold blockquote? at halts ⊢
  dsimp only at halts ⊢
  rw [opens, same]
  cases begins : opensBlockquote scope first with
  | false => rfl
  | true =>
    rw [begins] at halts
    obtain ⟨number, behind, inside, -⟩ := halts _ rfl
    have fits := BlockRun.quoteLines_length md scope (stop - first) false (Nat.le_of_lt inWindow)
    obtain ⟨text, more, notEmpty⟩ := exists_quoteLines md begins notDedented inWindow
    have hasLine : 0 < (quoteLines md scope stop (stop - first) false first).length :=
      notEmpty ▸ Nat.succ_pos _
    generalize quoteLines md scope stop (stop - first) false first = inner at *
    have size := size_replaceLines scope.lines first inner
    have fits := Nat.le_trans fits alike.inText
    have goesOn := ((((extending.replaceLines fits).withIndent 0).withParent .blockquote).withLevel
      1)
    rw [finished goesOn (by dsimp only; omega) ⟨size.symm ▸ fits, fun _ _ => Iff.rfl⟩ progress
      (Nat.lt_add_of_pos_right hasLine) ⟨number, behind, size.symm ▸ inside, .inr rfl⟩]

theorem extends_itemBlocks {next : Nat} (inWindow : next < stop) (marker : Marker)
    (halts : scope.Halts stop stop'
      (max (itemBlocks tree scope stop next marker).2.line (next + 1))) :
    itemBlocks tree other stop' next marker = itemBlocks tree scope stop next marker := by
  have inText := alike.lt_size inWindow
  unfold itemBlocks at halts ⊢
  dsimp only at halts ⊢
  rw [extending.line inText, extending.isEmpty inText]
  split at halts
  · next empty =>
    rw [if_pos empty, if_pos empty]
    -- The next line is before the end of the scope, so that the windows agree on it.
    have inside : next + 1 < scope.lines.size :=
      Nat.lt_of_le_of_lt (Nat.le_max_right _ _) halts.inText
    have there := alike.lt inWindow
    have agree := alike.alike (next + 1) inside
    rw [show min (next + 2) stop' = min (next + 2) stop by omega]
  · next notEmpty =>
    rw [if_neg notEmpty, if_neg notEmpty]
    obtain ⟨number, behind, inside, shown⟩ := halts
    have size : (scope.lines.setIfInBounds next (itemLine (scope.line next) marker)).size =
        scope.lines.size := Array.size_setIfInBounds
    have goesOn := ((((extending.setLine inText (itemLine (scope.line next) marker)).withIndent
      (itemIndent (scope.line next) marker)).withParent .list).withLevel 2)
    refine finished goesOn (by dsimp only; omega)
      ⟨size.symm ▸ alike.inText, size.symm ▸ alike.alike⟩ ⟨next, true⟩ inWindow
      ⟨number, Nat.le_trans (Nat.le_max_left _ _) behind, size.symm ▸ inside, ?_⟩
    exact shown.imp_left fun notEmpty =>
      (isEmpty_setLine scope (Nat.le_trans (Nat.le_max_right _ _) behind) inside _ _ _ _).trans
        notEmpty

include takesLines

theorem extends_listItems {fuel fuel' next : Nat} (enough : stop - next < fuel)
    (enough' : stop' - next < fuel') (marker : Marker) (gapBefore : Bool)
    (halts : scope.Halts stop stop'
      (listItems md tree scope stop fuel next marker gapBefore).next) :
    listItems md tree other stop' fuel' next marker gapBefore =
      listItems md tree scope stop fuel next marker gapBefore := by
  induction fuel generalizing fuel' next marker gapBefore with
  | zero => exact absurd enough (Nat.not_lt_zero _)
  | succ fuel ih =>
    obtain ⟨fuel', rfl⟩ : ∃ more, fuel' = more + 1 := ⟨fuel' - 1, by omega⟩
    unfold listItems at halts ⊢
    by_cases ended : stop ≤ next
    · rw [if_pos ended] at halts ⊢
      rw [if_pos ((alike.alike next halts.inText).mpr ended)]
    · have inWindow := Nat.lt_of_not_le ended
      rw [if_neg ended] at halts ⊢
      rw [if_neg (Nat.not_le_of_lt (alike.lt inWindow))]
      have all := takesAll_itemBlocks takesLines levels inWindow alike.inText marker
      have same := extends_itemBlocks finished levels extending alike inWindow marker
      generalize itemBlocks tree scope stop next marker = made at *
      obtain ⟨body, progress⟩ := made
      have inText : progress.line ≤ scope.lines.size := all.inText
      have inside := alike.lt_size inWindow
      dsimp only at halts same ⊢
      -- The items go on up to the end of the list.
      have ends : scope.Halts stop stop' (max progress.line (next + 1)) := by
        refine halts.mono ?_
        split
        · exact Nat.le_refl _
        · exact (takesItems_listItems takesLines levels alike.inText fuel (by omega) _
            _).inOrder.first_le_stop
      have here := ends.inText
      rw [same ends]
      dsimp only
      rw [decide_eq_decide.mpr (alike.alike _ here), extending.isDedented here,
        extending.isDeeplyIndented here, extends_endsAt (extending.withParent .list) here,
        extending.isEmpty (show progress.line - 1 ≤ scope.lines.size by omega),
        show nextMarker? other marker _ = _ from extends_nextMarker? extending here marker]
      have there := alike.lt inWindow
      split
      · next found => rw [found]
      · next another found =>
        rw [found] at halts ⊢
        rw [ih (by omega) (by omega) another _ halts]

theorem extends_list? (progress : Progress) {first : Nat} (inWindow : first < stop)
    (halts : ∀ made ∈ list? md tree scope progress first stop,
      scope.Halts stop stop' made.2.line) :
    list? md tree other progress first stop' = list? md tree scope progress first stop := by
  have inText := alike.lt_size inWindow
  unfold list? at halts ⊢
  rw [extending.isDeeplyIndented inText, extending.content (Nat.le_of_lt inText)]
  cases shallow : scope.isDeeplyIndented first with
  | true => rfl
  | false =>
    cases begins : Marker.of? (scope.content first) with
    | none => rfl
    | some marker =>
      rw [shallow, begins] at halts
      have same := extends_listItems finished takesLines levels extending alike
        (Nat.lt_succ_self (stop - first)) (Nat.lt_succ_self (stop' - first)) marker false
        (halts _ rfl)
      simp only [Option.bind_eq_bind, Option.bind_some, same]

end

/-! ## Any rule -/

/-- Paragraphs, headings and thematic breaks never go on behind an empty line. -/
def Block.IsComplete : Block → Prop
  | paragraph _ _ _ | heading _ _ _ | hr _ _ => True
  | _ => False

theorem not_isComplete_code {scope : Scope} {first stop : Nat} {block : Block}
    (isFound : block ∈ indentedCode? scope first stop) : ¬ block.IsComplete := by
  obtain ⟨-, -, made⟩ := Option.bind_eq_some_iff.mp isFound
  cases made
  exact id

theorem not_isComplete_fence {scope : Scope} {first stop : Nat} {block : Block}
    (isFound : block ∈ fence? scope first stop) : ¬ block.IsComplete := by
  obtain ⟨-, -, isFound⟩ := Option.bind_eq_some_iff.mp isFound
  obtain ⟨opening, -, made⟩ := Option.bind_eq_some_iff.mp isFound
  cases made
  exact id

theorem not_isComplete_blockquote {md : Markdown} {tree : ParseBlocks} {scope : Scope}
    {progress : Progress} {first stop : Nat} {made : Made}
    (isFound : made ∈ blockquote? md tree scope progress first stop) : ¬ made.1.IsComplete := by
  obtain ⟨-, -, made⟩ := Option.bind_eq_some_iff.mp isFound
  cases made
  exact id

theorem not_isComplete_list {md : Markdown} {tree : ParseBlocks} {scope : Scope}
    {progress : Progress} {first stop : Nat} {made : Made}
    (isFound : made ∈ list? md tree scope progress first stop) : ¬ made.1.IsComplete := by
  obtain ⟨-, -, isFound⟩ := Option.bind_eq_some_iff.mp isFound
  obtain ⟨marker, -, made⟩ := Option.bind_eq_some_iff.mp isFound
  cases made
  exact id

/-- Without tags no block is embedded markup. -/
theorem embeddedBlock?_eq_none {md : Markdown}
    (noTags : ∀ context text, md.grammar.openTag context text = none) (scope : Scope)
    (first stop : Nat) : embeddedBlock? md scope first stop = none := by
  unfold embeddedBlock? openTagAt?
  rw [noTags, ite_self]
  rfl

/-- A block that is complete, or whose end has been seen. -/
def Scope.Finishes (scope : Scope) (stop stop' : Nat) (made : Made) : Prop :=
  made.1.IsComplete ∨ scope.Halts stop stop' made.2.line

section

variable {md : Markdown} (noTags : ∀ context text, md.grammar.openTag context text = none)
variable {depth : Nat} {tree : ParseBlocks} {scope other : Scope}
variable (finished : ParsesFinished md depth tree) (takesLines : TakesLines md depth tree)
variable (levels : md.maxNesting ≤ scope.level + (depth + 1))
variable (extending : scope.Extends other) {stop stop' : Nat} (alike : scope.EndsAlike stop stop')
include noTags finished takesLines levels extending alike

/-- A rule makes the same block in a scope that goes on, if the block is finished. -/
theorem extends_runRule (rule : BlockRule) (progress : Progress) {first : Nat}
    (inWindow : first < stop) (notDedented : scope.isDedented first = false)
    (finishes : ∀ made ∈ runRule md tree rule scope progress first stop,
      scope.Finishes stop stop' made) :
    runRule md tree rule other progress first stop' =
      runRule md tree rule scope progress first stop := by
  have inText := alike.lt_size inWindow
  cases rule with
  | code =>
    refine congrArg (·.map (·.made progress)) (extends_indentedCode? extending alike inWindow ?_)
    exact fun block isFound => (finishes _ (Option.mem_map_of_mem _ isFound)).resolve_left
      (not_isComplete_code isFound)
  | fence =>
    refine congrArg (·.map (·.made progress)) (extends_fence? extending alike inWindow ?_)
    exact fun block isFound => (finishes _ (Option.mem_map_of_mem _ isFound)).resolve_left
      (not_isComplete_fence isFound)
  | blockquote =>
    refine extends_blockquote? finished levels extending alike progress inWindow notDedented ?_
    exact fun made isMade => (finishes made isMade).resolve_left (not_isComplete_blockquote isMade)
  | hr => exact congrArg (·.map (·.made progress)) (extends_hr? extending inText)
  | list =>
    refine extends_list? finished takesLines levels extending alike progress inWindow ?_
    exact fun made isMade => (finishes made isMade).resolve_left (not_isComplete_list isMade)
  | embedded =>
    rw [runRule, runRule, embeddedBlock?_eq_none noTags, embeddedBlock?_eq_none noTags]
  | heading => exact congrArg (·.map (·.made progress)) (extends_heading? extending inText)
  | paragraph =>
    exact congrArg (some <| ·.made progress) (extends_paragraph extending alike inWindow)

/-- So does the first rule that makes a block. -/
theorem extends_findSome? (rules : List BlockRule) (progress : Progress) {first : Nat}
    (inWindow : first < stop) (notDedented : scope.isDedented first = false)
    (finishes : ∀ made ∈ rules.findSome? (runRule md tree · scope progress first stop),
      scope.Finishes stop stop' made) :
    rules.findSome? (runRule md tree · other progress first stop') =
      rules.findSome? (runRule md tree · scope progress first stop) := by
  induction rules with
  | nil => rfl
  | cons rule rules ih =>
    have same := extends_runRule noTags finished takesLines levels extending alike rule progress
      inWindow notDedented
    rw [List.findSome?_cons] at finishes
    rw [List.findSome?_cons, List.findSome?_cons]
    cases tried : runRule md tree rule scope progress first stop with
    | none =>
      rw [tried] at finishes same
      rw [same (fun _ => nofun)]
      exact ih finishes
    | some made =>
      rw [tried] at finishes same
      rw [same finishes]

end

/-! ## Parsing -/

section

variable {md : Markdown} {scope : Scope} {stop : Nat} {run : Progress → Nat → Option Made}

/-- Parsing goes at least up to the first line with content. -/
theorem skipEmpty_le_blocksFrom (makes : MakesBlocks md scope stop run)
    (inText : stop ≤ scope.lines.size) (fuel : Nat) {next : Nat} (inWindow : next < stop)
    (progress : Progress) (sawEmpty : Bool) :
    scope.skipEmpty next ≤
      (blocksFrom md run scope stop (fuel + 1) progress next sawEmpty).2.line := by
  by_cases ends : stop ≤ scope.skipEmpty next ∨ scope.isDedented (scope.skipEmpty next) = true
  · have isFound := @blocksFrom_ends md _ _ run _ inWindow ends fuel progress sawEmpty
    exact Nat.le_of_eq (congrArg (·.2.line) isFound.symm)
  rw [not_or, Nat.not_le, Bool.not_eq_true] at ends
  obtain ⟨begins, inside⟩ := ends
  rcases Nat.lt_or_ge scope.level md.maxNesting with room | deep
  · obtain ⟨⟨block, behind⟩, isMade, takes⟩ := makes room
      { progress with line := scope.skipEmpty next } (scope.skipEmpty next) begins inside
    rw [blocksFrom_made room begins inside isMade takes.behind]
    exact Nat.le_trans (Nat.le_of_lt takes.behind) (Nat.le_trans (scope.le_goesOn stop _)
      (takesAll_blocksFrom makes inText fuel (scope.goesOn_le takes.inText inText) _
        _).inOrder.first_le_stop)
  · rw [blocksFrom_deep begins inside deep]
    exact Nat.le_of_lt begins

/-- A loop that halts gives the same in a scope that goes on. -/
theorem extends_blocksFrom {other : Scope} {stop' : Nat} {run' : Progress → Nat → Option Made}
    (makes : MakesBlocks md scope stop run) (extending : scope.Extends other)
    (alike : scope.EndsAlike stop stop')
    (same : ∀ progress first, first < stop → scope.isDedented first = false →
      (∀ made ∈ run progress first, scope.Halts stop stop' made.2.line) →
        run' progress first = run progress first)
    {fuel fuel' next : Nat} (enough : stop - next < fuel) (enough' : stop' - next < fuel')
    (tight sawEmpty : Bool)
    (halts : scope.Halts stop stop'
      (blocksFrom md run scope stop fuel ⟨next, tight⟩ next sawEmpty).2.line) :
    blocksFrom md run' other stop' fuel' ⟨next, tight⟩ next sawEmpty =
      blocksFrom md run scope stop fuel ⟨next, tight⟩ next sawEmpty := by
  induction fuel generalizing fuel' next tight sawEmpty with
  | zero => exact absurd enough (Nat.not_lt_zero _)
  | succ fuel ih =>
    obtain ⟨fuel', rfl⟩ : ∃ more, fuel' = more + 1 := ⟨fuel' - 1, by omega⟩
    rcases Nat.lt_or_ge next stop with inWindow | ended
    swap
    · rw [blocksFrom_of_le ended] at halts ⊢
      exact blocksFrom_of_le ((alike.alike next halts.inText).mpr ended) _ _ _
    have here : scope.skipEmpty next < scope.lines.size :=
      Nat.lt_of_le_of_lt (skipEmpty_le_blocksFrom makes alike.inText fuel inWindow _ _) halts.inText
    have sameFirst := extending.skipEmpty here
    have sameInside := extending.isDedented here
    by_cases ends : stop ≤ scope.skipEmpty next ∨ scope.isDedented (scope.skipEmpty next) = true
    · rw [blocksFrom_ends inWindow ends, blocksFrom_ends (alike.lt inWindow), sameFirst]
      rwa [sameFirst, sameInside, alike.alike _ here]
    rw [not_or, Nat.not_le, Bool.not_eq_true] at ends
    obtain ⟨begins, inside⟩ := ends
    have begins' : other.skipEmpty next < stop' := sameFirst ▸ alike.lt begins
    have inside' : other.isDedented (other.skipEmpty next) = false := by
      rw [sameFirst, sameInside, inside]
    rcases Nat.lt_or_ge scope.level md.maxNesting with room | deep
    swap
    · rw [blocksFrom_deep begins inside deep] at halts ⊢
      rw [blocksFrom_deep begins' inside' (extending.level ▸ deep)]
      -- The window ends before the scope does, so both end here.
      have agree := alike.alike stop halts.inText
      have before := alike.lt (show stop - 1 < stop by omega)
      rw [show stop' = stop by omega]
    obtain ⟨⟨block, behind⟩, isMade, takes⟩ := makes room ⟨scope.skipEmpty next, tight⟩ _ begins
      inside
    have moved := takes.behind
    have fits := takes.inText
    rw [blocksFrom_made room begins inside isMade moved] at halts ⊢
    dsimp only at moved fits halts
    have skips := scope.le_skipEmpty next
    have later := scope.le_goesOn stop behind.line
    -- The blocks that follow end later, so that the end of this one has been seen, too.
    have seen : scope.Halts stop stop' behind.line := halts.mono (Nat.le_trans later
      (takesAll_blocksFrom makes alike.inText fuel (scope.goesOn_le fits alike.inText) _
        _).inOrder.first_le_stop)
    have isMade' := same ⟨scope.skipEmpty next, tight⟩ _ begins inside fun made isFound =>
      Option.some.inj (isMade.symm.trans isFound) ▸ seen
    rw [isMade, ← sameFirst] at isMade'
    have sameGap := extending.gapAt alike seen
    rw [blocksFrom_made (extending.level ▸ room) begins' inside' isMade' (sameFirst ▸ moved),
      Scope.goesOn, sameGap, ← Scope.goesOn,
      extending.isEmpty (show behind.line - 1 ≤ scope.lines.size by omega)]
    rw [ih (by omega) (by omega) _ _ halts]

end

/-- Parsing that halts gives the same in a scope that goes on. -/
theorem parsesFinished_parseBlocks {md : Markdown}
    (noTags : ∀ context text, md.grammar.openTag context text = none)
    (paragraphs : .paragraph ∈ md.blockChain RuleTable.mainChain) (depth : Nat) :
    ParsesFinished md depth (parseBlocks md depth) := by
  -- What the loop starts from does not matter where there are lines.
  have loop : ∀ {scope other : Scope}, scope.Extends other → ∀ {stop stop' : Nat},
      scope.EndsAlike stop stop' → ∀ {run run' : Progress → Nat → Option Made},
      MakesBlocks md scope stop run →
      (∀ progress first, first < stop → scope.isDedented first = false →
        (∀ made ∈ run progress first, scope.Halts stop stop' made.2.line) →
          run' progress first = run progress first) →
      ∀ progress {first : Nat}, first < stop →
        scope.Halts stop stop'
          (blocksFrom md run scope stop (stop - first + 1) progress first false).2.line →
        blocksFrom md run' other stop' (stop' - first + 1) progress first false =
          blocksFrom md run scope stop (stop - first + 1) progress first false := by
    intro scope other extending stop stop' alike run run' makes same progress first inWindow halts
    have anew := @BlockRun.blocksFrom_congr md run scope progress ⟨first, progress.tight⟩ first stop
      (stop - first) false inWindow rfl
    have anew' := @BlockRun.blocksFrom_congr md run' other progress ⟨first, progress.tight⟩ first
      stop' (stop' - first) false (alike.lt inWindow) rfl
    rw [anew] at halts ⊢
    rw [anew']
    exact extends_blocksFrom makes extending alike same (Nat.lt_succ_self _) (Nat.lt_succ_self _) _
      _ halts
  induction depth with
  | zero =>
    intro scope other extending levels stop stop' alike progress first inWindow halts
    exact loop extending alike (fun room => absurd room (by omega)) (fun _ _ _ _ _ => rfl) progress
      inWindow halts
  | succ depth ih =>
    intro scope other extending levels stop stop' alike progress first inWindow halts
    have takesLines := takesLines_parseBlocks paragraphs depth
    have makes := makesBlocks_rules takesLines paragraphs levels alike.inText
    unfold parseBlocks at halts ⊢
    refine loop extending alike makes ?_ progress inWindow halts
    intro progress first inWindow notDedented seen
    exact extends_findSome? noTags ih takesLines levels extending alike _ progress inWindow
      notDedented fun made isMade => .inr (seen made isMade)

end ComponentMarkdown
