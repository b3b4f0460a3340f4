import ComponentMarkdown.Proofs.Inline.Rules

/-!
# Parsing in place gives the tokens of the tree

Skipping in place is skipping on the cursor of the run, and what parsing in place adds are the
tokens of the pieces that are parsed on the cursor. The file has:

* `skipNext_skips` for skipping;
* `parseUpTo_parses` for the rest of a window, and `parse_eq` for a whole text.
-/

namespace ComponentMarkdown.InlineRun

variable {md : Markdown} {level : Nat}

/-! ## Skipping -/

section

variable {step : Step} {find : Skip}

theorem recordStep_skips (skips : SkipsAs level step find) :
    SkipsAs level (recordStep step) (remember find) := by
  intro run ready same inWindow
  rw [recordStep, skips run ready same inWindow]
  rfl

theorem recallStep_skips (skips : SkipsAs level step find) :
    SkipsAs level (recallStep step) (lookUp find) := by
  intro run ready same inWindow
  have recorded := recordStep_skips skips run ready same inWindow
  rw [recallStep, run_lookUp, cursor_stop ready, cursor_pos]
  cases run.memo[run.pos]? with
  | none => exact recorded
  | some known =>
    dsimp only
    split
    · rfl
    · exact recorded

end

/-- Silent rules, tried one after the other, find the first length on the cursor. -/
theorem skipBy_eq {step : InlineRule → Step}
    {scanRule : InlineRule → Cursor → Memoized (Option Construct)}
    {perform : Construct → InlineRun → InlineRun}
    (steps : ∀ rule run, run.Ready → run.level = level + 1 →
      step rule run = outcome true perform run ((scanRule rule run.cursor).run run.memo))
    (fits : ∀ rule c, Memoized.Ensures (scanRule rule c) (Construct.AllFit · c.rest))
    (rules : List InlineRule) {run : InlineRun} (ready : run.Ready) (same : run.level = level) :
    skipBy step run.pos rules run =
      (((firstLength scanRule run.cursor rules).run run.memo).1.isSome,
        { run with
          pos := run.pos + ((firstLength scanRule run.cursor rules).run run.memo).1.getD 0
          memo := ((firstLength scanRule run.cursor rules).run run.memo).2 }) := by
  induction rules generalizing run with
  | nil => rfl
  | cons rule rules ih =>
    obtain ⟨fit, kept⟩ := fits rule run.cursor run.memo ready.forward
    have stepped : step rule { run with level := run.level + 1 } = outcome true perform
        { run with level := run.level + 1 } ((scanRule rule run.cursor).run run.memo) :=
      steps rule _ ⟨ready.ordered, ready.inText, ready.forward⟩ (congrArg (· + 1) same)
    rw [skipBy, firstLength, Memoized.run_bind]
    dsimp only
    rw [stepped]
    generalize (scanRule rule run.cursor).run run.memo = found at *
    obtain ⟨construct, memo⟩ := found
    cases construct with
    | none =>
      have ready : Ready { run with memo } := ⟨ready.ordered, ready.inText, kept⟩
      exact ih ready same
    | some construct =>
      have positive := (fit construct rfl).positive
      dsimp only
      rw [if_pos positive, Memoized.run_pure]
      simp [outcome, positive]

theorem skipWindow_skips : SkipsAs level skipWindow fun c => return ⟨c.stop, true⟩ := by
  intro run ready same inWindow
  rw [Memoized.run_pure, cursor_stop ready]
  rfl

/-- With a level of fuel for each level of nesting that is left, skipping finds what it finds on the
cursor. -/
theorem skipUpTo_skips (lawful : md.grammar.Lawful) {fuel : Nat}
    (enough : md.maxNesting - level ≤ fuel) :
    SkipsAs level (skipUpTo md fuel) (skip md (md.maxNesting - level)) := by
  induction fuel generalizing level with
  | zero =>
    rw [Nat.le_zero.mp enough]
    exact recallStep_skips skipWindow_skips
  | succ fuel ih =>
    cases left : md.maxNesting - level with
    | zero =>
      refine recallStep_skips fun run ready same inWindow => ?_
      rw [if_neg (by omega)]
      exact skipWindow_skips run ready same inWindow
    | succ budget =>
      have deeper : md.maxNesting - (level + 1) = budget := by omega
      have inner : SkipsAs (level + 1) (skipUpTo md fuel) (skip md budget) :=
        deeper ▸ ih (by omega)
      have forward := forward_skip lawful budget
      refine recallStep_skips fun run ready same inWindow => ?_
      rw [if_pos (by omega)]
      dsimp only
      rw [skipBy_eq
          (fun rule run ready same => runRule_eq lawful inner forward rule true ready same)
          (ensures_scan lawful forward) md.inlineChain ready same,
        Memoized.run_bind]
      generalize (firstLength _ run.cursor md.inlineChain).run run.memo = found
      obtain ⟨length, memo⟩ := found
      cases length with
      | none => rfl
      | some length => rfl

theorem skipNext_skips (lawful : md.grammar.Lawful) :
    SkipsAs level (skipNext md) (skip md (md.maxNesting - level)) := by
  intro run ready same inWindow
  subst same
  exact skipUpTo_skips lawful (Nat.le_refl _) run ready rfl inWindow

/-! ## Pieces -/

/-- The tokens of pieces behind pending text, and the text that is pending at the end. -/
def emitPieces (level : Nat) (pending : Text) : List Inline → List Token × Text
  | [] => ([], pending)
  | piece :: pieces =>
    let first := piece.emit level pending
    let more := emitPieces level first.2 pieces
    (first.1 ++ more.1, more.2)

/-- Adds the tokens of pieces. -/
def emits (run : InlineRun) (pieces : List Inline) : InlineRun :=
  { run with
    pending := (emitPieces run.level run.pending pieces).2
    tokens := run.tokens ++ (emitPieces run.level run.pending pieces).1 }

theorem emitPieces_append (level : Nat) (pending : Text) (pieces more : List Inline) :
    emitPieces level pending (pieces ++ more) =
      ((emitPieces level pending pieces).1 ++
        (emitPieces level (emitPieces level pending pieces).2 more).1,
        (emitPieces level (emitPieces level pending pieces).2 more).2) := by
  induction pieces generalizing pending with
  | nil => rfl
  | cons piece pieces ih =>
    rw [List.cons_append, emitPieces, ih, emitPieces]
    simp

theorem emitAll_eq (level : Nat) (pending : Text) (pieces : List Inline) :
    Inline.emitAll level pending pieces =
      (emitPieces level pending pieces).1 ++
        textTokens level (emitPieces level pending pieces).2 := by
  induction pieces generalizing pending with
  | nil => rfl
  | cons piece pieces ih => simp [Inline.emitAll, emitPieces, ih]

theorem emits_nil (run : InlineRun) : run.emits [] = run := by
  simp [emits, emitPieces]

theorem emits_singleton (run : InlineRun) (piece : Inline) :
    run.emits [piece] = run.emit piece := by
  simp [emits, emit, emitPieces]

theorem emits_append (run : InlineRun) (pieces more : List Inline) :
    run.emits (pieces ++ more) = (run.emits pieces).emits more := by
  simp [emits, emitPieces_append]

/-- Settling behind pieces gives all their tokens. -/
theorem settle_emits (run : InlineRun) (pieces : List Inline) :
    (run.emits pieces).settle =
      { run with
        pending := []
        tokens := run.tokens ++ Inline.emitAll run.level run.pending pieces } := by
  rw [settle_eq, emitAll_eq]
  simp [emits]

/-! ## Parsing -/

/-- What a run does with the pieces that are found for it: it adds them and moves behind them. -/
def advanceBy (run : InlineRun) (found : (List Inline × Nat) × Memo) : Bool × InlineRun :=
  (decide (0 < found.1.2),
    { run.emits found.1.1 with pos := run.pos + found.1.2, memo := found.2 })

section

variable {next : Cursor → Memoized (List Inline × Nat)}

/-- Rules, tried one after the other, add the first pieces that are found on the cursor. -/
theorem firstStep_eq {step : InlineRule → Step}
    {scanRule : InlineRule → Cursor → Memoized (Option Construct)}
    {resolve : Cursor → Construct → Memoized Inline} {perform : Construct → InlineRun → InlineRun}
    (steps : ∀ rule run, run.Ready → run.level = level →
      step rule run = outcome false perform run ((scanRule rule run.cursor).run run.memo))
    (fits : ∀ rule c, Memoized.Ensures (scanRule rule c) (Construct.AllFit · c.rest))
    (performs : ∀ construct (run : InlineRun), run.Ready → run.level = level →
      construct.Fits run.cursor.rest → ∃ pos, perform construct run =
        { run.emit ((resolve run.cursor construct).run run.memo).1 with
          pos
          memo := ((resolve run.cursor construct).run run.memo).2 })
    (rules : List InlineRule) {run : InlineRun} (ready : run.Ready) (same : run.level = level) :
    firstStep step run.pos rules run =
      run.advanceBy ((firstPieces scanRule resolve run.cursor rules).run run.memo) := by
  induction rules generalizing run with
  | nil =>
    rw [firstStep, firstPieces, Memoized.run_pure, advanceBy, emits_nil]
    rfl
  | cons rule rules ih =>
    obtain ⟨fit, kept⟩ := fits rule run.cursor run.memo ready.forward
    rw [firstStep, firstPieces, Memoized.run_bind]
    dsimp only
    rw [steps rule run ready same]
    generalize (scanRule rule run.cursor).run run.memo = found at *
    obtain ⟨construct, memo⟩ := found
    have ready : Ready { run with memo } := ⟨ready.ordered, ready.inText, kept⟩
    cases construct with
    | none => exact ih ready same
    | some construct =>
      have fit := fit construct rfl
      obtain ⟨pos, performed⟩ := performs construct _ ready same fit
      have positive := fit.positive
      have moves : (true && decide (run.pos < run.pos + construct.length)) = true := by
        simp [positive]
      dsimp only [outcome]
      rw [Memoized.run_bind, performed, if_pos positive, Memoized.run_pure, advanceBy,
        emits_singleton, decide_eq_true positive]
      split
      · rfl
      · next stays => exact absurd moves stays

theorem parseChars_eq {step : Step}
    (steps : ∀ run : InlineRun, run.Ready → run.level = level →
      step run = run.advanceBy ((next run.cursor).run run.memo))
    (bounds : ∀ c, Memoized.Ensures (next c) fun found =>
      found.2 ≤ c.rest.length ∧ (found.2 = 0 → found.1 = []))
    (fuel : Nat) {run : InlineRun} (ready : run.Ready) (same : run.level = level)
    (enough : run.posMax - run.pos ≤ fuel) :
    parseChars step run.posMax fuel run =
      { run.emits ((parsePieces next fuel run.cursor).run run.memo).1 with
        pos := run.posMax
        memo := ((parsePieces next fuel run.cursor).run run.memo).2 } := by
  induction fuel generalizing run with
  | zero =>
    have ended : run.pos = run.posMax := by
      have := ready.ordered
      omega
    rw [parseChars, parsePieces, Memoized.run_pure, emits_nil, ← ended]
  | succ fuel ih =>
    have room := cursor_rest_length ready
    rw [parseChars, parsePieces]
    cases begins : run.cursor.rest with
    | nil =>
      have ended : run.pos = run.posMax := by
        rw [begins, List.length_nil] at room
        have := ready.ordered
        omega
      rw [if_pos (Nat.le_of_eq ended.symm), Memoized.run_pure, emits_nil, ← ended]
    | cons char rest =>
      rw [begins, List.length_cons] at room
      obtain ⟨⟨bounded, none⟩, kept⟩ := bounds run.cursor run.memo ready.forward
      rw [if_neg (by omega), Memoized.run_bind]
      dsimp only
      rw [steps run ready same]
      rw [begins, List.length_cons] at bounded
      generalize (next run.cursor).run run.memo = found at *
      obtain ⟨⟨pieces, length⟩, memo⟩ := found
      have goOn : ∀ (made : List Inline) (n : Nat), 0 < n → run.pos + n ≤ run.posMax →
          parseChars step run.posMax fuel { run.emits made with pos := run.pos + n, memo } =
            { run.emits (made ++ ((parsePieces next fuel (run.cursor.advance n)).run memo).1) with
              pos := run.posMax
              memo := ((parsePieces next fuel (run.cursor.advance n)).run memo).2 } := by
        intro made n positive inWindow
        have ready : Ready { run.emits made with pos := run.pos + n, memo } :=
          ⟨inWindow, ready.inText, kept⟩
        rw [emits_append, ← cursor_advance inWindow]
        exact ih ready same (by dsimp only [emits]; omega)
      dsimp only [advanceBy] at *
      cases length with
      | zero =>
        have begins : peek? { run.emits pieces with pos := run.pos, memo } = some char :=
          congrArg List.head? begins
        simp only [Nat.lt_irrefl, decide_false, Bool.false_eq_true, if_false, begins]
        cases none rfl
        exact goOn [.literal [char]] 1 Nat.one_pos (by omega)
      | succ length =>
        simp only [Nat.zero_lt_succ, decide_true, if_true]
        exact goOn pieces (length + 1) (Nat.succ_pos _) (by omega)

/-- Steps that add the first pieces parse a window as its pieces. -/
theorem parseBy_parses {step : Step}
    (steps : ∀ run : InlineRun, run.Ready → run.level = level →
      step run = run.advanceBy ((next run.cursor).run run.memo))
    (bounds : ∀ c, Memoized.Ensures (next c) fun found =>
      found.2 ≤ c.rest.length ∧ (found.2 = 0 → found.1 = [])) :
    ParsesAs level (parseBy step) fun c => parsePieces next c.rest.length c := by
  intro run ready same
  dsimp only
  rw [parseBy, parseChars_eq steps bounds _ ready same (Nat.le_refl _), cursor_rest_length ready]
  subst same
  generalize (parsePieces next (run.posMax - run.pos) run.cursor).run run.memo = found
  exact settle_emits { run with pos := run.posMax, memo := found.2 } found.1

end

theorem emitPieces_map_literal (level : Nat) (pending : Text) (texts : List Text) :
    emitPieces level pending (texts.map .literal) = ([], pending ++ texts.flatten) := by
  induction texts generalizing pending with
  | nil => rw [List.map_nil, emitPieces, List.flatten_nil, List.append_nil]
  | cons text texts ih => simp [emitPieces, Inline.emit, ih]

theorem emitPieces_literals (level : Nat) (pending text : Text) :
    emitPieces level pending (text.map fun char => .literal [char]) = ([], pending ++ text) := by
  have pieces := emitPieces_map_literal level pending (text.map fun char => [char])
  rwa [List.map_map, ← List.flatMap_def, List.flatMap_singleton'] at pieces

theorem run_parsePieces_none (fuel : Nat) (c : Cursor) (memo : Memo)
    (enough : c.rest.length ≤ fuel) :
    (parsePieces (fun _ => return ([], 0)) fuel c).run memo =
      (c.rest.map fun char => .literal [char], memo) := by
  induction fuel generalizing c with
  | zero => rw [parsePieces, List.length_eq_zero_iff.mp (Nat.le_zero.mp enough)]; rfl
  | succ fuel ih =>
    rw [parsePieces]
    cases begins : c.rest with
    | nil => rfl
    | cons char rest =>
      have behind : (c.advance 1).rest = rest := by simp [Cursor.advance, begins]
      have more := ih (c.advance 1) (by rw [behind]; simpa [begins] using enough)
      rw [behind] at more
      dsimp only
      rw [Memoized.run_bind, Memoized.run_pure]
      dsimp only
      rw [if_neg (Nat.lt_irrefl 0), Memoized.run_bind, more]
      rfl

/-- Where no rule runs, the rest of the window is literal. -/
theorem parseBy_literal {step : Step}
    (stays : ∀ run : InlineRun, run.level = level → step run = (false, run)) :
    ParsesAs level (parseBy step) fun c => return [.literal c.rest] := by
  have parses : ParsesAs level (parseBy step) fun c =>
      parsePieces (fun _ => return ([], 0)) c.rest.length c := by
    refine parseBy_parses (fun run _ same => ?_) fun c => .pure ⟨Nat.zero_le _, fun _ => rfl⟩
    rw [stays run same, Memoized.run_pure, advanceBy, emits_nil]
    rfl
  intro run ready same
  rw [parses run ready same]
  dsimp only
  rw [run_parsePieces_none _ _ _ (Nat.le_refl _), Memoized.run_pure, emitAll_eq, emitAll_eq,
    emitPieces_literals]
  rfl

section

variable {parseLabel : Text → List Token} {labelTree : Text → List Inline}

/-- With a level of fuel for each level of nesting that is left, parsing gives the tokens of the
pieces that are parsed on the cursor. -/
theorem parseUpTo_parses (lawful : md.grammar.Lawful)
    (labels : ∀ label, parseLabel label = Inline.tokens (labelTree label))
    (within : ∀ label, Inline.AllWithin md.maxNesting md.maxNesting (labelTree label)) {fuel : Nat}
    (enough : md.maxNesting - level ≤ fuel) :
    ParsesAs level (parseUpTo md parseLabel fuel)
      (parseWindow md labelTree (md.maxNesting - level)) := by
  induction fuel generalizing level with
  | zero =>
    rw [Nat.le_zero.mp enough]
    exact parseBy_literal fun _ _ => rfl
  | succ fuel ih =>
    cases left : md.maxNesting - level with
    | zero => exact parseBy_literal fun run same => if_neg (by omega)
    | succ budget =>
      have deeper : md.maxNesting - (level + 1) = budget := by omega
      have inner : ParsesAs (level + 1) (parseUpTo md parseLabel fuel)
          (parseWindow md labelTree budget) := deeper ▸ ih (by omega)
      have skips : SkipsAs level (skipNext md) (skip md (budget + 1)) :=
        left ▸ skipNext_skips lawful
      have forward := forward_skip lawful (budget + 1)
      have fits := fun rule c => ensures_scan lawful forward rule c
      refine parseBy_parses (fun run ready same => ?_) fun c => ?_
      · rw [if_pos (by omega)]
        exact firstStep_eq
          (fun rule run ready same => runRule_eq lawful skips forward rule false ready same) fits
          (fun construct run ready same fit => perform_eq inner labels ready same fit)
          md.inlineChain ready same
      · have found := ensures_firstPieces (c := c) (fun rule => fits rule c)
          (fun _ fit => ensures_resolve within (ensures_parseWindow lawful within budget) fit)
          md.inlineChain
        exact found.mono fun _ bounds => bounds.2

end

/-! ## Whole texts -/

theorem ready_ofSource (source : Text) : (ofSource source).Ready :=
  ⟨Nat.zero_le _, Nat.le_refl _, Memo.forward_empty⟩

theorem cursor_ofSource (source : Text) : (ofSource source).cursor = Cursor.start source :=
  Cursor.inside_whole source

theorem parseLabels_eq (lawful : md.grammar.Lawful) (depth : Nat) (source : Text) :
    parseLabels md depth source = Inline.tokens (parseNested md depth source) := by
  induction depth generalizing source with
  | zero => rfl
  | succ depth ih =>
    have parses : ParsesAs 0 (parseUpTo md (parseLabels md depth) md.maxNesting)
        (parseWindow md (parseNested md depth) md.maxNesting) :=
      parseUpTo_parses lawful ih (allWithin_parseNested lawful depth) (Nat.le_refl _)
    rw [parseLabels, parses _ (ready_ofSource source) rfl, cursor_ofSource]
    rfl

/-- Parsing a text in place gives the tokens of its tree. -/
theorem parse_eq (lawful : md.grammar.Lawful) (source : Text) :
    parse md source = Inline.tokens (Inline.parse md source) :=
  parseLabels_eq lawful _ source

/-- Parsing the rest of a window adds the tokens of its pieces. -/
theorem parseRest_parses (lawful : md.grammar.Lawful) :
    ParsesAs level (parseRest md)
      (parseWindow md (Inline.parse md) (md.maxNesting - level)) := by
  intro run ready same
  subst same
  exact parseUpTo_parses lawful (parse_eq lawful) (allWithin_parse lawful) (Nat.le_refl _) run
    ready rfl

end ComponentMarkdown.InlineRun
