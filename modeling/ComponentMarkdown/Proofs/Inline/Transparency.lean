import ComponentMarkdown.Proofs.Inline.Contract
import ComponentMarkdown.Proofs.Inline.Recall

/-!
# Skipping with and without a memo

In the outermost window skipping leads where it leads with an empty memo, on every run that parsing
comes to, if the text has no more openings than levels of nesting are admitted. In a window inside
it, or at the greatest depth of nesting, it need not. The file has:

* what searches and parsing write, which lies before the end of their window;
* `Parses` and `Seeks`, the runs that parsing a text comes to;
* `skipNext_forgets`, the result.
-/

namespace ComponentMarkdown

/-! ## What is written -/

namespace Memoized

variable {α β : Type} {stop : Nat}

/-- What `x` writes into the memo lies before `stop`. -/
def WritesBefore (stop : Nat) (x : Memoized α) : Prop :=
  ∀ (memo : Memo) (pos : Nat), stop ≤ pos → (x.run memo).2[pos]? = memo[pos]?

theorem WritesBefore.pure (value : α) : WritesBefore stop (Pure.pure value) :=
  fun _ _ _ => rfl

theorem WritesBefore.bind {x : Memoized α} {f : α → Memoized β} (first : WritesBefore stop x)
    (next : ∀ value, WritesBefore stop (f value)) : WritesBefore stop (x >>= f) := by
  intro memo pos behind
  rw [run_bind, next _ _ pos behind, first memo pos behind]

end Memoized

open Memoized (Gives WritesBefore)

namespace Cursor

/-- The window ends at `stop` or before it, if there is anything left of it. -/
def EndsBy (c : Cursor) (stop : Nat) : Prop :=
  c.rest ≠ [] → c.stop ≤ stop

variable {c : Cursor} {stop : Nat}

theorem EndsBy.advance (ends : c.EndsBy stop) (n : Nat) : (c.advance n).EndsBy stop := by
  intro notEmpty
  have room : n < c.rest.length := by
    simpa [Cursor.advance] using notEmpty
  rw [stop_advance (Nat.le_of_lt room)]
  exact ends (List.length_pos_iff.mp (Nat.zero_lt_of_lt room))

theorem EndsBy.moveTo (ends : c.EndsBy stop) (pos : Nat) : (c.moveTo pos).EndsBy stop :=
  ends.advance _

theorem EndsBy.window (ends : c.EndsBy stop) (skip length : Nat) :
    (c.window skip length).EndsBy stop := by
  intro notEmpty
  have whole : (c.advance skip).rest ≠ [] := by
    intro none
    simp [Cursor.window, none] at notEmpty
  have inside := ends.advance skip whole
  simp only [Cursor.stop, Cursor.window, List.length_take] at inside ⊢
  omega

end Cursor

/-- Skipping writes only before the end of the window. -/
def Skip.IsLocal (skip : Skip) : Prop :=
  ∀ (c : Cursor) (stop : Nat), c.rest ≠ [] → c.EndsBy stop → WritesBefore stop (skip c)

section

variable {skip : Skip} {c : Cursor} {stop : Nat}

theorem writesBefore_findCloser (isLocal : skip.IsLocal) (marker : Char)
    (count bodyStart fuel : Nat) (ends : c.EndsBy stop) :
    WritesBefore stop (findCloser skip marker count bodyStart fuel c) := by
  induction fuel generalizing c with
  | zero => exact .pure none
  | succ fuel ih =>
    rw [findCloser]
    split
    · exact .pure none
    · next notEmpty =>
      dsimp only
      split
      · exact .pure _
      · exact (isLocal c stop (by simpa using notEmpty) ends).bind fun skipped =>
          ih (ends.moveTo _)

theorem writesBefore_findLabelEnd (isLocal : skip.IsLocal) (fuel depth : Nat)
    (ends : c.EndsBy stop) : WritesBefore stop (findLabelEnd skip fuel depth c) := by
  induction fuel generalizing depth c with
  | zero => exact .pure none
  | succ fuel ih =>
    rw [findLabelEnd]
    split
    · exact .pure none
    · next mark rest begins =>
      dsimp only
      generalize (if (mark == ']') = true then depth - 1 else depth) = depth
      split
      · exact .pure _
      · exact (isLocal c stop (by simp [begins]) ends).bind fun skipped => ih _ (ends.moveTo _)

theorem writesBefore_closeAhead (isLocal : skip.IsLocal) (grammar : TagGrammar) (name : Text)
    (fuel : Nat) (ends : c.EndsBy stop) :
    WritesBefore stop (closeAhead grammar skip name fuel c) := by
  induction fuel generalizing c with
  | zero => exact .pure none
  | succ fuel ih =>
    rw [closeAhead]
    split
    · exact .pure none
    · next notEmpty =>
      refine (isLocal c stop (by simpa using notEmpty) ends).bind fun skipped => ?_
      split
      · split
        · exact .pure _
        · exact ih (ends.moveTo _)
      · exact ih (ends.moveTo _)

theorem writesBefore_labelled (isLocal : skip.IsLocal) (opening : Nat)
    (enclosure : Target → Enclosure) (ends : c.EndsBy stop) :
    WritesBefore stop (labelled? skip c opening enclosure) := by
  rw [labelled?]
  refine (writesBefore_findLabelEnd isLocal _ _ (ends.advance _)).bind fun found => ?_
  split
  · exact .pure none
  · dsimp only
    split <;> exact .pure _

theorem writesBefore_scan (isLocal : skip.IsLocal) (md : Markdown) (rule : InlineRule)
    (ends : c.EndsBy stop) : WritesBefore stop (scan md skip rule c) := by
  cases rule with
  | emphasis =>
    rw [scan, emphasis?]
    split
    · exact .pure none
    · dsimp only
      split
      · exact .pure none
      · refine (writesBefore_findCloser isLocal _ _ _ _ (ends.advance _)).bind fun found => ?_
        split <;> exact .pure _
  | link =>
    rw [scan, link?]
    split
    · exact writesBefore_labelled isLocal _ _ ends
    · exact .pure none
  | image =>
    rw [scan, image?]
    split
    · exact writesBefore_labelled isLocal _ _ ends
    · exact .pure none
  | embedded =>
    rw [scan, embedded?]
    split
    · exact .pure none
    · split
      · exact .pure none
      · exact .pure _
      · refine (writesBefore_closeAhead isLocal _ _ _ (ends.advance _)).bind fun found => ?_
        split <;> exact .pure _
  | _ => exact .pure _

end

theorem writesBefore_firstLength {scanRule : InlineRule → Cursor → Memoized (Option Construct)}
    {c : Cursor} {stop : Nat} (scans : ∀ rule, WritesBefore stop (scanRule rule c))
    (rules : List InlineRule) : WritesBefore stop (firstLength scanRule c rules) := by
  induction rules with
  | nil => exact .pure none
  | cons rule rules ih =>
    rw [firstLength]
    refine (scans rule).bind fun found => ?_
    split
    · split
      · exact .pure _
      · exact ih
    · exact ih

theorem isLocal_lookUp {find : Skip} (isLocal : find.IsLocal) : (lookUp find).IsLocal := by
  intro c stop notEmpty ends memo pos behind
  have before : c.pos < pos :=
    Nat.lt_of_lt_of_le (Nat.lt_of_lt_of_le (Cursor.pos_lt_stop notEmpty) (ends notEmpty)) behind
  have written : ((remember find c).run memo).2[pos]? = memo[pos]? := by
    rw [← isLocal c stop notEmpty ends memo pos behind]
    change ((((find c).run memo).2.insert c.pos ((find c).run memo).1)[pos]?) = _
    rw [Std.TreeMap.getElem?_insert, if_neg]
    exact fun same => Nat.ne_of_lt before (Nat.compare_eq_eq.mp same)
  rw [run_lookUp]
  split
  · split
    · rfl
    · exact written
  · exact written

variable {md : Markdown}

theorem isLocal_skip (md : Markdown) (budget : Nat) : (skip md budget).IsLocal := by
  induction budget with
  | zero => exact isLocal_lookUp fun c stop _ _ => .pure _
  | succ budget ih =>
    refine isLocal_lookUp fun c stop _ ends => ?_
    refine (writesBefore_firstLength (fun rule => writesBefore_scan ih md rule ends) _).bind
      fun found => ?_
    split <;> exact .pure _

section

variable {parseLabel : Text → List Inline} {parseBody : Cursor → Memoized (List Inline)}
variable {stop : Nat}

theorem writesBefore_resolve
    (bodies : ∀ c : Cursor, c.EndsBy stop → WritesBefore stop (parseBody c)) {c : Cursor}
    {construct : Construct}
    (ends : ∀ enclosure skip length, construct.form = .enclosing enclosure skip length →
      (c.window skip length).EndsBy stop) :
    WritesBefore stop (resolve parseLabel parseBody c construct) := by
  obtain ⟨length, form⟩ := construct
  rw [resolve]
  cases form with
  | leaf piece => exact .pure _
  | enclosing enclosure skip length =>
    have body := bodies _ (ends enclosure skip length rfl)
    cases enclosure with
    | image target => exact .pure _
    | _ => exact body.bind fun _ => .pure _

theorem writesBefore_firstPieces {scanRule : InlineRule → Cursor → Memoized (Option Construct)}
    {resolve : Cursor → Construct → Memoized Inline} {c : Cursor}
    (scans : ∀ rule, WritesBefore stop (scanRule rule c))
    (resolves : ∀ construct, WritesBefore stop (resolve c construct)) (rules : List InlineRule) :
    WritesBefore stop (firstPieces scanRule resolve c rules) := by
  induction rules with
  | nil => exact .pure _
  | cons rule rules ih =>
    rw [firstPieces]
    refine (scans rule).bind fun found => ?_
    split
    · exact ih
    · refine (resolves _).bind fun piece => ?_
      split
      · exact .pure _
      · exact ih.bind fun _ => .pure _

theorem writesBefore_parsePieces {next : Cursor → Memoized (List Inline × Nat)}
    (steps : ∀ c : Cursor, c.EndsBy stop → WritesBefore stop (next c)) (fuel : Nat) {c : Cursor}
    (ends : c.EndsBy stop) : WritesBefore stop (parsePieces next fuel c) := by
  induction fuel generalizing c with
  | zero => exact .pure _
  | succ fuel ih =>
    rw [parsePieces]
    split
    · exact .pure _
    · refine (steps c ends).bind fun found => ?_
      dsimp only
      split <;> exact (ih (ends.advance _)).bind fun _ => .pure _

/-- Parsing a window writes only before its end. -/
theorem writesBefore_parseWindow (md : Markdown) (parseLabel : Text → List Inline) (budget : Nat)
    {c : Cursor} (ends : c.EndsBy stop) :
    WritesBefore stop (parseWindow md parseLabel budget c) := by
  induction budget generalizing c with
  | zero => exact .pure _
  | succ budget ih =>
    refine writesBefore_parsePieces (fun c ends => ?_) _ ends
    have scans := fun rule => writesBefore_scan (isLocal_skip md (budget + 1)) md rule ends
    refine writesBefore_firstPieces scans (fun construct => ?_) _
    exact writesBefore_resolve (fun _ ends => ih ends) fun _ _ _ _ => ends.window _ _

end

/-- What is written before a place leaves the memo settled from there on. -/
theorem Memo.Settled.written {outlook : Outlook} {first later : Nat} {memo : Memo} {α : Type}
    {x : Memoized α} (settled : memo.Settled outlook first) (behind : first ≤ later)
    (writes : WritesBefore later x) : Memo.Settled outlook later (x.run memo).2 := by
  intro pos known from_later inWindow found
  rw [writes memo pos from_later] at found
  exact settled pos known (Nat.le_trans behind from_later) inWindow found

/-- The body of a construct lies before the end of the construct. -/
theorem Construct.Fits.endsBy_window {c : Cursor} {construct : Construct} {rest : Text}
    (fits : construct.Fits rest) {enclosure : Enclosure} {skip length : Nat}
    (isForm : construct.form = .enclosing enclosure skip length) :
    (c.window skip length).EndsBy (c.pos + construct.length) := by
  intro notEmpty
  have inside := fits.inside
  rw [isForm] at inside
  simp only [Cursor.stop, Cursor.window, Cursor.advance, List.length_take] at inside ⊢
  omega

namespace InlineRun

/-! ## Runs that parsing a text comes to -/

/-- Where a rule at `base` looks while it searches: behind its own position, and one level deeper
only for each opening that it has passed. -/
structure Behind (base : InlineRun) (pos level : Nat) : Prop where
  after : base.pos < pos
  inside : pos ≤ base.posMax
  deeper : base.level ≤ level
  opened : level < base.level + openings ((base.source.take pos).drop base.pos)

/-- The runs on which a rule at `base` skips while it searches. -/
inductive Seeks (md : Markdown) (base : InlineRun) : InlineRun → Prop
  | start {pos level : Nat} (behind : base.Behind pos level) :
      Seeks md base { base with pos, level }
  | next {run : InlineRun} {pos level : Nat} (seeks : Seeks md base run)
      (inWindow : run.pos < run.posMax) (behind : base.Behind pos level) :
      Seeks md base { (skipNext md run).2 with pos, level }

/-- The runs on which parsing a text tries its rules: at the start of the text, behind a rule,
behind a literal character, and at the start of a body that a rule has found in the window. -/
inductive Parses (md : Markdown) : InlineRun → Prop
  | start (source : Text) : Parses md (ofSource source)
  | tried {run : InlineRun} (rule : InlineRule) (parses : Parses md run)
      (inWindow : run.pos < run.posMax) (shallow : run.level < md.maxNesting) :
      Parses md (tryRule md rule false run).2
  | literal {run : InlineRun} (pending : Text) (parses : Parses md run)
      (inWindow : run.pos < run.posMax) : Parses md { run with pos := run.pos + 1, pending }
  | entered {base run : InlineRun} {start stop : Nat} (pending : Text) (tokens : List Token)
      (parses : Parses md base) (seeks : Seeks md base run) (after : base.pos < start)
      (ordered : start ≤ stop) (inside : stop < base.posMax) :
      Parses md { run with pos := start, posMax := stop, level := base.level + 1, pending, tokens }

variable {md : Markdown} {base run : InlineRun}

theorem Seeks.behind (seeks : Seeks md base run) : base.Behind run.pos run.level := by
  cases seeks with
  | start behind => exact behind
  | next seeks inWindow behind => exact behind

/-- Skipping keeps the window and the memo as it should be. -/
theorem ready_skipNext (lawful : md.grammar.Lawful) (ready : run.Ready)
    (inWindow : run.pos < run.posMax) :
    (skipNext md run).2.source = run.source ∧ (skipNext md run).2.posMax = run.posMax ∧
      (skipNext md run).2.memo.Forward := by
  rw [skipNext_skips lawful run ready rfl inWindow]
  exact ⟨rfl, rfl, (forward_skip lawful _ run.cursor (cursor_rest_ne_nil ready inWindow) run.memo
    ready.forward).2⟩

theorem Seeks.ready (lawful : md.grammar.Lawful) (ready : base.Ready) (seeks : Seeks md base run) :
    run.Ready ∧ run.source = base.source ∧ run.posMax = base.posMax := by
  induction seeks with
  | start behind => exact ⟨⟨behind.inside, ready.inText, ready.forward⟩, rfl, rfl⟩
  | next seeks inWindow behind ih =>
    obtain ⟨readyThere, sameSource, sameEnd⟩ := ih
    obtain ⟨source, posMax, forward⟩ := ready_skipNext lawful readyThere inWindow
    rw [sameSource] at source
    rw [sameEnd] at posMax
    refine ⟨⟨?_, ?_, forward⟩, source, posMax⟩
    · dsimp only
      rw [posMax]
      exact behind.inside
    · dsimp only
      rw [posMax, source]
      exact ready.inText

theorem Parses.ready (lawful : md.grammar.Lawful) (parses : Parses md run) : run.Ready := by
  induction parses with
  | start source => exact ready_ofSource source
  | @tried run rule parses inWindow shallow ih =>
    have contract := contract_tryRule lawful rule false ih
    refine ⟨?_, ?_, forward_tryRule lawful rule false ih⟩
    · rw [contract.posMax]
      cases matched : (tryRule md rule false run).1 with
      | false => exact (contract.rejected matched).1 ▸ ih.ordered
      | true => exact (contract.accepted matched).2
    · rw [contract.posMax, contract.source]
      exact ih.inText
  | literal pending parses inWindow ih => exact ⟨inWindow, ih.inText, ih.forward⟩
  | entered pending tokens parses seeks after ordered inside ih =>
    obtain ⟨readyThere, sameSource, -⟩ := seeks.ready lawful ih
    refine ⟨ordered, ?_, readyThere.forward⟩
    dsimp only
    rw [sameSource]
    exact Nat.le_trans (Nat.le_of_lt inside) ih.inText

/-! ## The outermost window -/

/-- The window of the run ends with the text. -/
structure Spans (run : InlineRun) (source : Text) : Prop where
  sameSource : run.source = source
  toEnd : run.posMax = source.length

/-- A body ends before the window in which it was found does, and so before the text does. -/
theorem not_spans_entered (lawful : md.grammar.Lawful) {source pending : Text}
    {start stop level : Nat} {tokens : List Token} (ready : base.Ready) (seeks : Seeks md base run)
    (inside : stop < base.posMax) :
    ¬ Spans { run with pos := start, posMax := stop, level, pending, tokens } source := by
  rintro ⟨sameSource, whole⟩
  obtain ⟨-, sameBase, -⟩ := seeks.ready lawful ready
  dsimp only at sameSource whole
  have inText := ready.inText
  rw [← sameBase, sameSource] at inText
  omega

section

variable {lawful : md.grammar.Lawful} {source : Text} {outlook : Outlook}

theorem cursor_spans (isAnew : outlook = .anew lawful (Nat.le_refl source.length))
    (spans : run.Spans source) : run.cursor = outlook.cursor run.pos := by
  obtain ⟨rfl, whole⟩ := spans
  subst isAnew
  rw [cursor, whole]
  rfl

/-- In the outermost window skipping gives what it finds anew, on a level that leaves room for the
openings ahead. -/
theorem gives_skip_outermost (isAnew : outlook = .anew lawful (Nat.le_refl source.length))
    (enough : openings source ≤ md.maxNesting) {first pos level : Nat} (from_first : first ≤ pos)
    (inWindow : pos < source.length) (room : level + outlook.ahead pos < openings source) :
    Gives (Memo.Settled outlook first) (skip md (md.maxNesting - level) (outlook.cursor pos))
      (outlook.outcome pos) :=
  gives_skip isAnew from_first (by rwa [isAnew]) (by omega)

/-- The memo stays settled while a rule asks in the window of the run. -/
theorem settled_scan (ready : run.Ready) (isAnew : outlook = .anew lawful ready.inText)
    (room : outlook.ahead run.pos ≤ md.maxNesting - run.level) (rule : InlineRule)
    (settled : run.memo.Settled outlook run.pos) :
    Memo.Settled outlook run.pos
      ((scan md (skip md (md.maxNesting - run.level)) rule run.cursor).run run.memo).2 := by
  obtain ⟨value, determined⟩ : outlook.Determines run.pos (outlook.ahead run.pos) fun skip =>
      scan md skip rule (outlook.cursor run.pos) :=
    Outlook.determines_scan lawful rule (Nat.le_refl run.pos)
  have isCursor : run.cursor = outlook.cursor run.pos := by
    rw [isAnew]
    rfl
  rw [isCursor]
  refine (determined _ _ (fun inner after inside fewer => ?_) run.memo settled).2
  exact gives_skip isAnew after inside (Nat.lt_of_lt_of_le fewer room)

/-- The memo is settled behind a rule that was tried if it was so where the rule was tried: the body
of what the rule found lies before the end of what it found. -/
theorem settled_tryRule_inside (ready : run.Ready) (isAnew : outlook = .anew lawful ready.inText)
    (room : outlook.ahead run.pos ≤ md.maxNesting - run.level) (rule : InlineRule)
    (settled : run.memo.Settled outlook run.pos) :
    (tryRule md rule false run).2.memo.Settled outlook (tryRule md rule false run).2.pos := by
  have forward := forward_skip lawful (md.maxNesting - run.level)
  obtain ⟨fit, kept⟩ := ensures_scan lawful forward rule run.cursor run.memo ready.forward
  have scanned := settled_scan ready isAnew room rule settled
  rw [tryRule_eq lawful rule false ready]
  generalize (scan md _ rule run.cursor).run run.memo = found at *
  obtain ⟨found, memo⟩ := found
  cases found with
  | none => exact scanned
  | some construct =>
    have ready : Ready { run with memo } := ⟨ready.ordered, ready.inText, kept⟩
    have fit := fit construct rfl
    obtain ⟨pos, performed⟩ := perform_eq (parseRest_parses lawful) (parse_eq lawful) ready rfl fit
    simp only [outcome, performed, Bool.false_eq_true, if_false]
    refine Memo.Settled.written scanned (Nat.le_add_right _ _) (writesBefore_resolve
      (fun c ends => writesBefore_parseWindow md _ _ ends) fun enclosure skip length isForm => ?_)
    exact fit.endsBy_window isForm

/-- The outlook on the whole text is that of a run whose window ends with the text. -/
theorem Spans.outlook_eq (spans : run.Spans source) (ready : run.Ready) :
    Outlook.anew lawful ready.inText = .anew lawful (Nat.le_refl source.length) := by
  obtain ⟨rfl, whole⟩ := spans
  have same {stop : Nat} (inText : stop ≤ run.source.length) (toEnd : stop = run.source.length) :
      Outlook.anew lawful inText = .anew lawful (Nat.le_refl run.source.length) := by
    subst toEnd
    rfl
  exact same ready.inText whole

theorem settled_tryRule (isAnew : outlook = .anew lawful (Nat.le_refl source.length))
    (enough : openings source ≤ md.maxNesting) (ready : run.Ready) (spans : run.Spans source)
    (outer : run.level = 0) (rule : InlineRule) (settled : run.memo.Settled outlook run.pos) :
    (tryRule md rule false run).2.memo.Settled outlook (tryRule md rule false run).2.pos := by
  refine settled_tryRule_inside ready (isAnew.trans (spans.outlook_eq ready).symm) ?_ rule settled
  have all : outlook.ahead run.pos ≤ openings source := by
    subst isAnew
    exact Outlook.ahead_le_openings _ _
  omega

/-- On the outermost level the memo is settled from the position on, whatever the bodies before it
have left there. -/
theorem Parses.settled (isAnew : outlook = .anew lawful (Nat.le_refl source.length))
    (enough : openings source ≤ md.maxNesting) (parses : Parses md run)
    (spans : run.Spans source) : run.level = 0 ∧ run.memo.Settled outlook run.pos := by
  induction parses with
  | start => exact ⟨rfl, Memo.settled_empty outlook 0⟩
  | @tried run rule parses inWindow shallow ih =>
    have ready := parses.ready lawful
    have contract := contract_tryRule lawful rule false ready
    have spansBefore : run.Spans source :=
      ⟨contract.source ▸ spans.sameSource, contract.posMax ▸ spans.toEnd⟩
    obtain ⟨outer, settled⟩ := ih spansBefore
    exact ⟨contract.level.trans outer,
      settled_tryRule isAnew enough ready spansBefore outer rule settled⟩
  | literal pending parses inWindow ih =>
    obtain ⟨outer, settled⟩ := ih ⟨spans.sameSource, spans.toEnd⟩
    exact ⟨outer, settled.later (Nat.le_succ _)⟩
  | entered pending tokens parses seeks after ordered inside ih =>
    exact absurd spans (not_spans_entered lawful (parses.ready lawful) seeks inside)

/-- While a rule searches, there is room for the openings ahead. -/
theorem Behind.room (isAnew : outlook = .anew lawful (Nat.le_refl source.length))
    (sameSource : base.source = source) (outer : base.level = 0) {pos level : Nat}
    (behind : base.Behind pos level) : level + outlook.ahead pos < openings source := by
  have opened := behind.opened
  have all := openings_between_add_le source base.pos pos
  rw [outer, sameSource] at opened
  subst isAnew
  simp only [Outlook.ahead, Outlook.cursor, Outlook.anew, Cursor.inside, List.take_length]
  omega

/-- The memo stays settled while a rule searches, where there is room for the openings ahead. -/
theorem Seeks.settled_inside (ready : base.Ready) (isAnew : outlook = .anew lawful ready.inText)
    (room : ∀ {pos level : Nat}, base.Behind pos level →
      outlook.ahead pos < md.maxNesting - level)
    (settled : base.memo.Settled outlook base.pos) (seeks : Seeks md base run) :
    run.memo.Settled outlook base.pos := by
  induction seeks with
  | start behind => exact settled
  | @next run pos level seeks inWindow behind ih =>
    obtain ⟨readyThere, sameSource, sameEnd⟩ := seeks.ready lawful ready
    have place := seeks.behind
    have isCursor : run.cursor = outlook.cursor run.pos := by
      rw [isAnew, cursor, sameSource, sameEnd]
      rfl
    have inside : run.pos < outlook.stop := by
      rw [isAnew]
      rwa [sameEnd] at inWindow
    rw [skipNext_skips lawful run readyThere rfl inWindow, isCursor]
    exact (gives_skip isAnew (Nat.le_of_lt place.after) inside (room place) run.memo ih).2

theorem Seeks.settled (isAnew : outlook = .anew lawful (Nat.le_refl source.length))
    (enough : openings source ≤ md.maxNesting) (ready : base.Ready) (spans : base.Spans source)
    (outer : base.level = 0) (settled : base.memo.Settled outlook base.pos)
    (seeks : Seeks md base run) : run.memo.Settled outlook base.pos := by
  refine seeks.settled_inside ready (isAnew.trans (spans.outlook_eq ready).symm) (fun behind => ?_)
    settled
  have := behind.room isAnew spans.sameSource outer
  omega

end

/-! ## Skipping forgets -/

/-- In the outermost window, on every run on which a rule skips while a text with no more openings
than levels is parsed, skipping leads where it leads with an empty memo, and gives the same
answer. -/
theorem skipNext_forgets (lawful : md.grammar.Lawful) (parses : Parses md base)
    (seeks : Seeks md base run) (inWindow : run.pos < run.posMax)
    (whole : run.posMax = run.source.length) (enough : openings run.source ≤ md.maxNesting) :
    (skipNext md run).1 = (skipNext md { run with memo := ∅ }).1 ∧
      (skipNext md run).2.pos = (skipNext md { run with memo := ∅ }).2.pos := by
  obtain ⟨ready, sameSource, sameEnd⟩ := seeks.ready lawful (parses.ready lawful)
  obtain ⟨outlook, isAnew⟩ :
      ∃ outlook, outlook = Outlook.anew lawful (Nat.le_refl run.source.length) := ⟨_, rfl⟩
  have spans : base.Spans run.source := ⟨sameSource.symm, sameEnd.symm.trans whole⟩
  obtain ⟨outer, settledBefore⟩ := parses.settled isAnew enough spans
  have settled := seeks.settled isAnew enough (parses.ready lawful) spans outer settledBefore
  have gives := gives_skip_outermost isAnew enough (Nat.le_of_lt seeks.behind.after)
    (whole ▸ inWindow) (seeks.behind.room isAnew spans.sameSource outer)
  have recalled := (gives run.memo settled).1
  have anew := (gives ∅ (Memo.settled_empty outlook base.pos)).1
  have forgotten : InlineRun.Ready { run with memo := ∅ } :=
    ⟨ready.ordered, ready.inText, Memo.forward_empty⟩
  rw [skipNext_skips lawful run ready rfl inWindow,
    skipNext_skips lawful _ forgotten rfl inWindow]
  have sameCursor : ({ run with memo := ∅ } : InlineRun).cursor = run.cursor := rfl
  rw [sameCursor, cursor_spans isAnew ⟨rfl, whole⟩, recalled, anew]
  exact ⟨rfl, rfl⟩

theorem skipNext_forgets_emphasis :
    let md : Markdown := { transform := .ok }
    let base := ofSource ['*', '_', 'a', '*']
    let run : InlineRun := { (skipNext md { base with pos := 1 }).2 with pos := 2, level := 0 }
    (skipNext md run).1 = (skipNext md { run with memo := ∅ }).1 ∧
      (skipNext md run).2.pos = (skipNext md { run with memo := ∅ }).2.pos := by
  intro md base run
  have first : Seeks md base { base with pos := 1 } :=
    .start ⟨by decide, by decide, by decide, by decide⟩
  have seeks : Seeks md base run :=
    .next first (by decide) ⟨by decide, by decide, by decide, by decide⟩
  obtain ⟨-, sameSource, sameEnd⟩ := seeks.ready TagGrammar.jsx_lawful (ready_ofSource _)
  refine skipNext_forgets TagGrammar.jsx_lawful (.start _) seeks ?inWindow ?whole ?enough
  case inWindow => rw [sameEnd]; decide
  case whole => rw [sameEnd, sameSource]; rfl
  case enough => rw [sameSource]; decide

/-- Neither condition can be left out: at the greatest depth of nesting the rest of the window is
remembered as skipped, and in the window of a body a construct may end that does not end in the
window around it. -/
theorem skipNext_remembers :
    (∃ md base run, md.grammar.Lawful ∧ Parses md base ∧ Seeks md base run ∧
      run.pos < run.posMax ∧ run.posMax = run.source.length ∧
      (skipNext md run).2.pos ≠ (skipNext md { run with memo := ∅ }).2.pos) ∧
    (∃ md base run, md.grammar.Lawful ∧ Parses md base ∧ Seeks md base run ∧
      run.pos < run.posMax ∧ openings run.source ≤ md.maxNesting ∧
      (skipNext md run).2.pos ≠ (skipNext md { run with memo := ∅ }).2.pos) := by
  refine ⟨?limit, ?window⟩
  case limit =>
    let md : Markdown := { transform := .ok, maxNesting := 1 }
    let base := ofSource ['*', '_', 'a', '*']
    -- The underscore at 1 looks for its partner at 2, where no level of nesting is left.
    have first : Seeks md base { base with pos := 1 } :=
      .start ⟨by decide, by decide, by decide, by decide⟩
    have second :
        Seeks md base { (skipNext md { base with pos := 1 }).2 with pos := 2, level := 0 } :=
      .next first (by decide) ⟨by decide, by decide, by decide, by decide⟩
    refine ⟨md, base, _, TagGrammar.jsx_lawful, .start _, second, ?_⟩
    decide +kernel
  case window =>
    let md : Markdown := { transform := .ok }
    let base := ofSource ['*', '[', 'x', ' ', '*', 'y', ']', '(', '\x60', 'b', '*', ')', ' ', 'c',
      '*', ' ', 'd', '\x60']
    let afterLink : InlineRun :=
      { (skipNext md { base with pos := 1 }).2 with pos := 12, level := 0 }
    let closer : InlineRun := { (skipNext md afterLink).2 with pos := 14, level := 0 }
    let body : InlineRun :=
      { closer with pos := 1, posMax := 14, level := 1, pending := [], tokens := [] }
    let inLabel : InlineRun :=
      { (skipNext md { body with pos := 2, level := 1 }).2 with pos := 4, level := 1 }
    -- In the whole text the asterisk at 4 has no partner: the one at 10 is part of a code span.
    have atLink : Seeks md base { base with pos := 1 } :=
      .start ⟨by decide, by decide, by decide, by decide⟩
    have behindLink : Seeks md base afterLink :=
      .next atLink (by decide) ⟨by decide, by decide, by decide, by decide⟩
    have atCloser : Seeks md base closer :=
      .next behindLink (by decide +kernel) ⟨by decide, by decide, by decide, by decide⟩
    -- In the body, which ends at 14, that code span is left open.
    have entered : Parses md body :=
      .entered [] [] (.start _) atCloser (by decide) (by decide) (by decide)
    have atLabel : Seeks md body { body with pos := 2, level := 1 } :=
      .start ⟨by decide, by decide, by decide, by decide +kernel⟩
    have behindText : Seeks md body inLabel :=
      .next atLabel (by decide) ⟨by decide, by decide, by decide, by decide +kernel⟩
    exact ⟨md, body, inLabel, TagGrammar.jsx_lawful, entered, behindText, by decide +kernel⟩

end InlineRun

end ComponentMarkdown
