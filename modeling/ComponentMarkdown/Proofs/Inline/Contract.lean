import ComponentMarkdown.Proofs.Inline.InPlace

/-!
# The contract of inline rules

A rule that does not match leaves the run as it was, and one that matches moves on inside the
window. Silent runs and others agree. The file has:

* `Contract`, what a rule promises about the run that it gives back, and `contract_tryRule`;
* `tryRule_silent`: silent runs and others agree;
* `Reachable`, the runs that parsing can come to, and what holds of their memos.
-/

namespace ComponentMarkdown.InlineRun

variable {md : Markdown}

/-! ## Rules on ready runs -/

theorem tryRule_eq (lawful : md.grammar.Lawful) (rule : InlineRule) (silent : Bool)
    {run : InlineRun} (ready : run.Ready) :
    tryRule md rule silent run =
      outcome silent (perform (parseRest md) (parse md)) run
        ((scan md (skip md (md.maxNesting - run.level)) rule run.cursor).run run.memo) :=
  runRule_eq lawful (skipNext_skips lawful) (forward_skip lawful _) rule silent ready rfl

/-- What a rule promises: it keeps the window and the level, and it only appends to the tokens. A
rule that does not match changes nothing but the memo. One that matches moves on inside the window,
and adds nothing when it runs silently. -/
structure Contract (run : InlineRun) (silent : Bool) (result : Bool × InlineRun) : Prop where
  source : result.2.source = run.source
  posMax : result.2.posMax = run.posMax
  level : result.2.level = run.level
  tokens : run.tokens <+: result.2.tokens
  rejected : result.1 = false →
    result.2.pos = run.pos ∧ result.2.pending = run.pending ∧ result.2.tokens = run.tokens
  accepted : result.1 = true → run.pos < result.2.pos ∧ result.2.pos ≤ run.posMax
  quiet : silent = true → result.2.pending = run.pending ∧ result.2.tokens = run.tokens

/-- What a run does with what was found keeps the contract, if what was found fits into the window
and what is performed adds a piece. -/
theorem contract_outcome {silent : Bool} {perform : Construct → InlineRun → InlineRun}
    {run : InlineRun} {found : Option Construct} {memo : Memo}
    (inside : ∀ construct, found = some construct →
      0 < construct.length ∧ run.pos + construct.length ≤ run.posMax)
    (adds : silent = false → ∀ construct, found = some construct → ∃ piece pos known,
      perform construct { run with memo } = { run.emit piece with pos, memo := known }) :
    Contract run silent (outcome silent perform run (found, memo)) := by
  cases found with
  | none =>
    refine ⟨rfl, rfl, rfl, List.prefix_rfl, fun _ => ⟨rfl, rfl, rfl⟩, ?_, fun _ => ⟨rfl, rfl⟩⟩
    rintro ⟨⟩
  | some construct =>
    obtain ⟨positive, bounded⟩ := inside construct rfl
    have accepted : run.pos < run.pos + construct.length ∧
        run.pos + construct.length ≤ run.posMax := ⟨by omega, bounded⟩
    cases silent with
    | true =>
      refine ⟨rfl, rfl, rfl, List.prefix_rfl, ?_, fun _ => accepted, fun _ => ⟨rfl, rfl⟩⟩
      rintro ⟨⟩
    | false =>
      obtain ⟨piece, pos, known, performed⟩ := adds rfl construct rfl
      have made : outcome false perform run (some construct, memo) =
          (true, { run.emit piece with pos := run.pos + construct.length, memo := known }) := by
        simp [outcome, performed]
      rw [made]
      refine ⟨rfl, rfl, rfl, List.prefix_append _ _, ?_, fun _ => accepted, ?_⟩ <;> rintro ⟨⟩

/-- What was found and fits into the window is performed as a piece, and skipping can rely on the
memo that is left. -/
def Performs (level : Nat) (perform : Construct → InlineRun → InlineRun) : Prop :=
  ∀ (construct : Construct) (run : InlineRun), run.Ready → run.level = level →
    construct.Fits run.cursor.rest → ∃ piece pos memo,
      perform construct run = { run.emit piece with pos, memo } ∧ Memo.Forward memo

section

variable {level : Nat} {step : Step} {skip : Skip} {parse : InlineRun → InlineRun}
  {parseLabel : Text → List Token} {labelTree : Text → List Inline} {budget : Nat}

/-- With bodies that are parsed as the pieces of their windows, any construct is performed. -/
theorem performs_parsed (lawful : md.grammar.Lawful)
    (labels : ∀ label, parseLabel label = Inline.tokens (labelTree label))
    (within : ∀ label, Inline.AllWithin md.maxNesting md.maxNesting (labelTree label))
    (parses : ParsesAs (level + 1) parse (parseWindow md labelTree budget)) :
    Performs level (perform parse parseLabel) := by
  intro construct run ready same fits
  obtain ⟨pos, performed⟩ := perform_eq parses labels ready same fits
  have body := ensures_parseWindow lawful within budget
  obtain ⟨-, kept⟩ :=
    @ensures_resolve _ _ _ _ within body run.cursor construct _ fits run.memo ready.forward
  exact ⟨_, pos, _, performed, kept⟩

theorem contract_runRule (lawful : md.grammar.Lawful) (skips : SkipsAs level step skip)
    (forward : skip.Forward) (rule : InlineRule) {silent : Bool}
    (performs : silent = false → Performs level (perform parse parseLabel)) {run : InlineRun}
    (ready : run.Ready) (same : run.level = level) :
    Contract run silent (runRule md step parse parseLabel rule silent run) := by
  obtain ⟨fit, kept⟩ := ensures_scan lawful forward rule run.cursor run.memo ready.forward
  have room := cursor_rest_length ready
  rw [runRule_eq lawful skips forward rule silent ready same]
  generalize (scan md skip rule run.cursor).run run.memo = found at *
  obtain ⟨found, memo⟩ := found
  refine contract_outcome (fun construct isFound => ?_) fun loud construct isFound => ?_
  · obtain ⟨positive, bounded, -⟩ := fit construct isFound
    have := ready.ordered
    exact ⟨positive, by omega⟩
  · have ready : Ready { run with memo } := ⟨ready.ordered, ready.inText, kept⟩
    obtain ⟨piece, pos, known, performed, -⟩ :=
      performs loud construct _ ready same (fit construct isFound)
    exact ⟨piece, pos, known, performed⟩

theorem forward_runRule (lawful : md.grammar.Lawful) (skips : SkipsAs level step skip)
    (forward : skip.Forward) (rule : InlineRule) {silent : Bool}
    (performs : silent = false → Performs level (perform parse parseLabel)) {run : InlineRun}
    (ready : run.Ready) (same : run.level = level) :
    (runRule md step parse parseLabel rule silent run).2.memo.Forward := by
  obtain ⟨fit, kept⟩ := ensures_scan lawful forward rule run.cursor run.memo ready.forward
  rw [runRule_eq lawful skips forward rule silent ready same]
  generalize (scan md skip rule run.cursor).run run.memo = found at *
  obtain ⟨found, memo⟩ := found
  cases found with
  | none => exact kept
  | some construct =>
    cases silent with
    | true => exact kept
    | false =>
      have ready : Ready { run with memo } := ⟨ready.ordered, ready.inText, kept⟩
      obtain ⟨piece, pos, known, performed, forward⟩ :=
        performs rfl construct _ ready same (fit construct rfl)
      simp only [outcome, performed, Bool.false_eq_true, if_false]
      exact forward

end

theorem performs_parseRest (lawful : md.grammar.Lawful) (level : Nat) :
    Performs level (perform (parseRest md) (parse md)) :=
  performs_parsed lawful (parse_eq lawful) (allWithin_parse lawful) (parseRest_parses lawful)

theorem contract_tryRule (lawful : md.grammar.Lawful) (rule : InlineRule) (silent : Bool)
    {run : InlineRun} (ready : run.Ready) :
    Contract run silent (tryRule md rule silent run) :=
  contract_runRule lawful (skipNext_skips lawful) (forward_skip lawful _) rule
    (fun _ => performs_parseRest lawful run.level) ready rfl

/-- Whether a rule matches, and where, does not depend on whether it runs silently. -/
theorem tryRule_silent (lawful : md.grammar.Lawful) (rule : InlineRule) {run : InlineRun}
    (ready : run.Ready) :
    (tryRule md rule true run).1 = (tryRule md rule false run).1 ∧
      (tryRule md rule true run).2.pos = (tryRule md rule false run).2.pos := by
  rw [tryRule_eq lawful rule true ready, tryRule_eq lawful rule false ready]
  generalize (scan md _ rule run.cursor).run run.memo = found
  obtain ⟨construct, memo⟩ := found
  cases construct with
  | none => exact ⟨rfl, rfl⟩
  | some construct => exact ⟨rfl, rfl⟩

/-! ## Runs that parsing comes to -/

/-- The runs that parsing can come to. A caller may ask for any window and any level, and may have
any tokens already; the memo is what earlier steps have left. -/
inductive Reachable (md : Markdown) : InlineRun → Prop
  | start (source : Text) : Reachable md (ofSource source)
  | moved {run : InlineRun} (pos posMax level : Nat) (pending : Text) (tokens : List Token)
      (reached : Reachable md run) : Reachable md { run with pos, posMax, level, pending, tokens }
  | tried {run : InlineRun} (rule : InlineRule) (silent : Bool) (reached : Reachable md run)
      (ordered : run.pos ≤ run.posMax) (inText : run.posMax ≤ run.source.length) :
      Reachable md (tryRule md rule silent run).2
  | skipped {run : InlineRun} (reached : Reachable md run) (inWindow : run.pos < run.posMax)
      (inText : run.posMax ≤ run.source.length) : Reachable md (skipNext md run).2
  | parsed {run : InlineRun} (reached : Reachable md run) (ordered : run.pos ≤ run.posMax)
      (inText : run.posMax ≤ run.source.length) : Reachable md (parseRest md run)

theorem forward_tryRule (lawful : md.grammar.Lawful) (rule : InlineRule) (silent : Bool)
    {run : InlineRun} (ready : run.Ready) : (tryRule md rule silent run).2.memo.Forward :=
  forward_runRule lawful (skipNext_skips lawful) (forward_skip lawful _) rule
    (fun _ => performs_parseRest lawful run.level) ready rfl

/-- The memo of a run that parsing comes to can be relied on. -/
theorem Reachable.forward (lawful : md.grammar.Lawful) {run : InlineRun}
    (reached : Reachable md run) : run.memo.Forward := by
  induction reached with
  | start source => exact Memo.forward_empty
  | moved => assumption
  | tried rule silent _ ordered inText kept =>
    exact forward_tryRule lawful rule silent ⟨ordered, inText, kept⟩
  | skipped _ inWindow inText kept =>
    have ready : Ready _ := ⟨Nat.le_of_lt inWindow, inText, kept⟩
    rw [skipNext_skips lawful _ ready rfl inWindow]
    exact (forward_skip lawful _ _ (cursor_rest_ne_nil ready inWindow) _ kept).2
  | parsed _ ordered inText kept =>
    rw [parseRest_parses lawful _ ⟨ordered, inText, kept⟩ rfl]
    exact (ensures_parseWindow lawful (allWithin_parse lawful) _ _ _ kept).2

end ComponentMarkdown.InlineRun
