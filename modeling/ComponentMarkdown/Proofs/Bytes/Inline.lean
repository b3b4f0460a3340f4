import ComponentMarkdown.Proofs.Bytes.Elements
import ComponentMarkdown.Proofs.Bytes.Links
import ComponentMarkdown.Proofs.Inline.Contract

/-!
# Inline content by bytes

Skipping and parsing run the rules one after the other. What skipping has led to is looked up by the
byte where it began. The file has:

* skipping and parsing, with every access and every subtraction checked;
* `Matches`, what is compared after a rule, and how it carries over to rules in a row;
* `skipNext_alike` for skipping, `parse_eq` for a whole text.
-/

namespace ComponentMarkdown

open Text Checked

namespace InlineByteRun

/-- Runs a rule. `skip` moves over constructs, `parse` parses a body and `parseLabel` the label of
an image. -/
def runRule (md : Markdown) (skip : Step) (parse : InlineByteRun → Checked InlineByteRun)
    (parseLabel : Text → Checked (List Token)) (rule : InlineRule) (silent : Bool) : Step :=
  match rule with
  | .text => text silent
  | .newline => newline silent
  | .escape => escape silent
  | .backticks => backticks silent
  | .emphasis => emphasis skip parse silent
  | .link => link skip parse silent
  | .image => image skip parseLabel silent
  | .autolink => autolink silent
  | .embedded => embedded md skip parse silent
  | .entity => entity silent

/-! ## Skipping -/

/-- Runs the rules silently, each one level deeper, until one of them moves on from `start`. -/
def skipBy (step : InlineRule → Step) (start : Nat) : List InlineRule → Step
  | [], run => return (false, run)
  | rule :: rules, run => do
    let tried ← step rule { run with level := run.level + 1 }
    let run := { tried.2 with level := ← minus tried.2.level 1 }
    if tried.1 && start < run.pos then return (true, run)
    else skipBy step start rules { run with pos := start }

/-- Takes a step and remembers where it led. -/
def recordStep (step : Step) : Step := fun run => do
  let stepped ← step run
  let known := fun index =>
    if index = run.pos then some (stepped.2.pos, stepped.1) else stepped.2.cache index
  return (stepped.1, { stepped.2 with cache := known })

/-- Looks up where a step leads. An outcome that lies outside the window is found anew. -/
def recallStep (step : Step) : Step := fun run =>
  match run.cache run.pos with
  | some (stop, consumed) =>
    if stop ≤ run.posMax then return (consumed, { run with pos := stop })
    else recordStep step run
  | none => recordStep step run

/-- Moves over the whole window. -/
def skipWindow : Step := fun run => return (true, { run with pos := run.posMax })

/-- Moves over one character. -/
def skipChar : Step := fun run => do
  let length := (← run.ahead).head?.elim 1 fun c => size [c]
  return (false, { run with pos := run.pos + length })

/-- Moves over what stands at the position: what a rule takes, or one character. At the greatest
depth of nesting the whole window is skipped; `fuel` levels may be entered, and there must be no
more. -/
def skipUpTo (md : Markdown) : Nat → Step
  | 0 => recallStep fun run =>
    if run.level < md.maxNesting then throw .depth else skipWindow run
  | fuel + 1 => recallStep fun run => do
    if run.level < md.maxNesting then
      let step := fun rule => runRule md (skipUpTo md fuel) pure (fun _ => pure []) rule true
      let skipped ← skipBy step run.pos md.inlineChain run
      if skipped.1 then return skipped else skipChar skipped.2
    else skipWindow run

/-- Moves over what stands at the position: was it taken by a rule? -/
def skipNext (md : Markdown) : Step := fun run =>
  skipUpTo md (md.maxNesting - run.level) run

/-! ## Parsing -/

/-- Runs the rules until one of them moves on from `start`. -/
def firstStep (step : InlineRule → Step) (start : Nat) : List InlineRule → Step
  | [], run => return (false, run)
  | rule :: rules, run => do
    let tried ← step rule run
    if tried.1 && start < tried.2.pos then return tried else firstStep step start rules tried.2

/-- Takes steps up to `stop`, and less than `fuel` of them. Where none matches, one character is
literal. -/
def parseChars (step : Step) (stop : Nat) : Nat → InlineByteRun → Checked InlineByteRun
  | 0, _ => throw .depth
  | fuel + 1, run => do
    if run.pos < stop then
      let start := run.pos
      let stepped ← step run
      if stepped.1 then parseChars step stop fuel stepped.2
      else
        let run := { stepped.2 with pos := start }
        match (← run.ahead).head? with
        | none => return run
        | some c => parseChars step stop fuel { run.addText [c] with pos := start + size [c] }
    else return run

/-- Parses the window with `step`. -/
def parseBy (step : Step) (run : InlineByteRun) : Checked InlineByteRun := do
  return (← parseChars step run.posMax (run.posMax - run.pos + 1) run).settle

/-- Parses the window. Beyond the greatest depth of nesting all text is literal; `fuel` levels may
be entered, and there must be no more. -/
def parseUpTo (md : Markdown) (parseLabel : Text → Checked (List Token)) :
    Nat → InlineByteRun → Checked InlineByteRun
  | 0 => parseBy fun run =>
    if run.level < md.maxNesting then throw .depth else return (false, run)
  | fuel + 1 => parseBy fun run =>
    if run.level < md.maxNesting then
      let step := fun rule =>
        runRule md (skipNext md) (parseUpTo md parseLabel fuel) parseLabel rule false
      firstStep step run.pos md.inlineChain run
    else return (false, run)

/-- The tokens of a text in which images are nested less than `depth` deep. -/
def parseLabels (md : Markdown) : Nat → Text → Checked (List Token)
  | 0, _ => throw .depth
  | depth + 1, source => do
    return (← parseUpTo md (parseLabels md depth) md.maxNesting (ofSource source)).tokens

/-- The tokens of a text. -/
def parse (md : Markdown) (source : Text) : Checked (List Token) :=
  parseLabels md (source.length + 1) source

/-! ## Rules -/

/-- What a step by bytes and one by characters come to on a run: the same, in the same window and on
the same level, and they move on if they match. -/
structure Matches (checked : Checked (Bool × InlineByteRun)) (run : InlineRun)
    (tried : Bool × InlineRun) : Prop where
  agrees : checked = .ok (ofStep tried)
  follows : Follows run tried.2
  stays : tried.1 = false → tried.2.pos = run.pos
  further : tried.1 = true → run.pos < tried.2.pos

variable {md : Markdown} {level : Nat} {checked : Step} {step : InlineRun.Step} {run : InlineRun}
  {checkedParse : InlineByteRun → Checked InlineByteRun} {parse : InlineRun → InlineRun}
  {checkedLabel : Text → Checked (List Token)} {parseLabel : Text → List Token}

theorem runRule_eq (isJsx : md.grammar = TagGrammar.jsx) (alike : SkipsAlike level checked step)
    {silent : Bool}
    (parses : silent = false → ParsesAlike run.source (level + 1) checkedParse parse)
    (labels : silent = false → ∀ label : Text, label.length < run.source.length →
      checkedLabel label = .ok (parseLabel label))
    (rule : InlineRule) (ready : run.Ready) (same : run.level = level) :
    runRule md checked checkedParse checkedLabel rule silent (ofRun run) =
      .ok (ofStep (InlineRun.runRule md step parse parseLabel rule silent run)) := by
  cases rule with
  | text => exact text_eq ready silent
  | newline => exact newline_eq ready silent
  | escape => exact escape_eq ready silent
  | backticks => exact backticks_eq ready silent
  | emphasis => exact emphasis_eq alike parses ready same
  | link => exact link_eq alike parses ready same
  | image => exact image_eq alike labels ready same
  | autolink => exact autolink_eq ready silent
  | embedded => exact embedded_eq isJsx alike parses ready same
  | entity => exact entity_eq ready silent

theorem runRule_matches (isJsx : md.grammar = TagGrammar.jsx) {skip : Skip}
    (skips : InlineRun.SkipsAs level step skip) (forward : skip.Forward)
    (alike : SkipsAlike level checked step) {silent : Bool}
    (performs : silent = false → InlineRun.Performs level (InlineRun.perform parse parseLabel))
    (parses : silent = false → ParsesAlike run.source (level + 1) checkedParse parse)
    (labels : silent = false → ∀ label : Text, label.length < run.source.length →
      checkedLabel label = .ok (parseLabel label))
    (rule : InlineRule) (ready : run.Ready) (same : run.level = level) :
    Matches (runRule md checked checkedParse checkedLabel rule silent (ofRun run)) run
      (InlineRun.runRule md step parse parseLabel rule silent run) := by
  have lawful : md.grammar.Lawful := isJsx ▸ TagGrammar.jsx_lawful
  have contract := InlineRun.contract_runRule lawful skips forward rule performs ready same
  have kept := InlineRun.forward_runRule lawful skips forward rule performs ready same
  have ordered : (InlineRun.runRule md step parse parseLabel rule silent run).2.pos ≤
      run.posMax := by
    cases matched : (InlineRun.runRule md step parse parseLabel rule silent run).1 with
    | true => exact (contract.accepted matched).2
    | false => exact (contract.rejected matched).1 ▸ ready.ordered
  refine ⟨runRule_eq isJsx alike parses labels rule ready same, ⟨contract.source, contract.posMax,
    contract.level, ?_, ?_, kept⟩, fun missed => (contract.rejected missed).1,
    fun matched => (contract.accepted matched).1⟩
  · rw [contract.posMax]
    exact ordered
  · rw [contract.posMax, contract.source]
    exact ready.inText

/-- What comes after a step that did not match comes after the run before it. -/
theorem Matches.behind {result : Checked (Bool × InlineByteRun)} {later : InlineRun}
    {tried : Bool × InlineRun} (goesOn : Matches result later tried) (follows : Follows run later)
    (stays : later.pos = run.pos) : Matches result run tried where
  agrees := goesOn.agrees
  follows := follows.trans goesOn.follows
  stays missed := (goesOn.stays missed).trans stays
  further matched := stays ▸ goesOn.further matched

theorem Matches.missed (ready : run.Ready) : Matches (.ok (false, ofRun run)) run (false, run) where
  agrees := rfl
  follows := ⟨rfl, rfl, rfl, ready⟩
  stays _ := rfl
  further matched := by cases matched

/-- Rules in a row, run silently one level deeper, match as each of them does. -/
theorem skipBy_matches {source : Text} {checkedStep : InlineRule → Step}
    {step : InlineRule → InlineRun.Step}
    (each : ∀ rule (run : InlineRun), run.Ready → run.level = level + 1 → run.source = source →
      Matches (checkedStep rule (ofRun run)) run (step rule run))
    (rules : List InlineRule) (ready : run.Ready) (same : run.level = level)
    (isSource : run.source = source) :
    Matches (skipBy checkedStep (offset source run.pos) rules (ofRun run)) run
      (InlineRun.skipBy step run.pos rules run) := by
  induction rules generalizing run with
  | nil => exact .missed ready
  | cons rule rules ih =>
    subst isSource
    obtain ⟨agrees, follows, stays, further⟩ := each rule { run with level := run.level + 1 }
      ⟨ready.ordered, ready.inText, ready.forward⟩ (congrArg (· + 1) same) rfl
    have tries : checkedStep rule { ofRun run with level := (ofRun run).level + 1 } = _ := agrees
    rw [skipBy, InlineRun.skipBy, tries, ok_bind]
    dsimp only
    generalize step rule { run with level := run.level + 1 } = tried at *
    obtain ⟨matched, source, pos, posMax, pending, raised, tokens, memo⟩ := tried
    obtain ⟨rfl, rfl, rfl, atEnd⟩ := follows
    have back : Follows run ⟨run.source, pos, run.posMax, pending, run.level, tokens, memo⟩ :=
      ⟨rfl, rfl, rfl, ⟨atEnd.ordered, atEnd.inText, atEnd.forward⟩⟩
    dsimp only [ofStep, ofRun]
    rw [minus_of_le (Nat.le_add_left 1 run.level), Nat.add_sub_cancel, ok_bind]
    cases matched with
    | true =>
      have moves : run.pos < pos := further rfl
      have movesToo : offset run.source run.pos < offset run.source pos := offset_lt.mpr moves
      simp only [Bool.true_and, movesToo, moves, decide_true, if_true]
      exact ⟨rfl, back, fun missed => (by cases missed), fun _ => moves⟩
    | false =>
      exact (ih (back.back ready).ready same rfl).behind (back.back ready) rfl

/-- Rules in a row match as each of them does. -/
theorem firstStep_matches {source : Text} {checkedStep : InlineRule → Step}
    {step : InlineRule → InlineRun.Step}
    (each : ∀ rule (run : InlineRun), run.Ready → run.level = level → run.source = source →
      Matches (checkedStep rule (ofRun run)) run (step rule run))
    (rules : List InlineRule) (ready : run.Ready) (same : run.level = level)
    (isSource : run.source = source) :
    Matches (firstStep checkedStep (offset source run.pos) rules (ofRun run)) run
      (InlineRun.firstStep step run.pos rules run) := by
  induction rules generalizing run with
  | nil => exact .missed ready
  | cons rule rules ih =>
    subst isSource
    obtain ⟨agrees, follows, stays, further⟩ := each rule run ready same rfl
    rw [firstStep, InlineRun.firstStep, agrees, ok_bind]
    dsimp only
    generalize step rule run = tried at *
    obtain ⟨matched, source, pos, posMax, pending, raised, tokens, memo⟩ := tried
    obtain ⟨rfl, rfl, rfl, atEnd⟩ := follows
    have behind : Follows run ⟨run.source, pos, run.posMax, pending, run.level, tokens, memo⟩ :=
      ⟨rfl, rfl, rfl, atEnd⟩
    dsimp only [ofStep, ofRun]
    cases matched with
    | true =>
      have moves : run.pos < pos := further rfl
      have movesToo : offset run.source run.pos < offset run.source pos := offset_lt.mpr moves
      simp only [Bool.true_and, movesToo, moves, decide_true, if_true]
      exact ⟨rfl, behind, fun missed => (by cases missed), fun _ => moves⟩
    | false =>
      have same' : pos = run.pos := stays rfl
      subst same'
      exact (ih atEnd same rfl).behind behind rfl

/-! ## Skipping -/

theorem recordStep_eq (agrees : checked (ofRun run) = .ok (ofStep (step run)))
    (sameSource : (step run).2.source = run.source) (ready : run.Ready) :
    recordStep checked (ofRun run) = .ok (ofStep (InlineRun.recordStep step run)) := by
  have inText := Nat.le_trans ready.ordered ready.inText
  unfold recordStep InlineRun.recordStep
  rw [agrees, ok_bind]
  dsimp only [ofStep, ofRun]
  rw [sameSource, cacheOf_insert inText]
  rfl

theorem recallStep_eq (agrees : checked (ofRun run) = .ok (ofStep (step run)))
    (sameSource : (step run).2.source = run.source) (ready : run.Ready) :
    recallStep checked (ofRun run) = .ok (ofStep (InlineRun.recallStep step run)) := by
  have recorded := recordStep_eq agrees sameSource ready
  have recalled : (ofRun run).cache (ofRun run).pos =
      run.memo[run.pos]?.map fun known => (offset run.source known.stop, known.consumed) :=
    cacheOf_offset (Nat.le_trans ready.ordered ready.inText) run.memo
  unfold recallStep InlineRun.recallStep
  rw [recalled]
  cases run.memo[run.pos]? with
  | none => exact recorded
  | some known =>
    have inside : offset run.source known.stop ≤ (ofRun run).posMax ↔ known.stop ≤ run.posMax :=
      offset_le
    dsimp only [Option.map_some]
    by_cases inWindow : known.stop ≤ run.posMax
    · rw [if_pos (inside.mpr inWindow), if_pos inWindow]
      rfl
    · rw [if_neg (mt inside.mp inWindow), if_neg inWindow]
      exact recorded

theorem skipChar_eq (ready : run.Ready) (inWindow : run.pos < run.posMax) :
    skipChar (ofRun run) = .ok (ofStep (false, { run with pos := run.pos + 1 })) := by
  obtain ⟨c, others, begins⟩ := List.exists_cons_of_ne_nil
    (InlineRun.cursor_rest_ne_nil ready inWindow)
  have next := @offset_ahead run ready 1 (by rw [begins]; exact Nat.succ_pos _)
  rw [begins, List.take_succ_cons, List.take_zero] at next
  unfold skipChar
  rw [ahead_eq ready, ok_bind, begins]
  exact congrArg (fun pos => Except.ok (false, { ofRun run with pos })) next.symm

theorem SkipsAlike.of_skips {skip : Skip} (skips : InlineRun.SkipsAs level step skip)
    (forward : skip.Forward)
    (agrees : ∀ run : InlineRun, run.Ready → run.level = level → run.pos < run.posMax →
      checked (ofRun run) = .ok (ofStep (step run))) : SkipsAlike level checked step where
  agrees := agrees
  follows := by
    intro run ready same inWindow
    obtain ⟨atStop, -⟩ := ready.skipped forward inWindow rfl
    rw [skips run ready same inWindow]
    exact ⟨rfl, rfl, rfl, atStop⟩
  further := by
    intro run ready same inWindow
    obtain ⟨⟨behind, -⟩, -⟩ :=
      forward run.cursor (InlineRun.cursor_rest_ne_nil ready inWindow) run.memo ready.forward
    rw [skips run ready same inWindow]
    exact behind

/-- Silent rules with skipping that is alike come to the same, and so does what they leave to a
character. -/
theorem skipAnew_eq (isJsx : md.grammar = TagGrammar.jsx) {skip : Skip}
    (skips : InlineRun.SkipsAs (level + 1) step skip) (forward : skip.Forward)
    (alike : SkipsAlike (level + 1) checked step) (ready : run.Ready) (same : run.level = level)
    (inWindow : run.pos < run.posMax) :
    let skipped := InlineRun.skipBy
      (fun rule => InlineRun.runRule md step id (fun _ => []) rule true) run.pos md.inlineChain run
    let moved := if skipped.1 then skipped else (false, { skipped.2 with pos := skipped.2.pos + 1 })
    (do
      let skipped ← skipBy (fun rule => runRule md checked pure (fun _ => pure []) rule true)
        (ofRun run).pos md.inlineChain (ofRun run)
      if skipped.1 then return skipped else skipChar skipped.2) = .ok (ofStep moved) ∧
      moved.2.source = run.source := by
  have silently : ∀ rule (run : InlineRun), run.Ready → run.level = level + 1 →
      Matches (runRule md checked pure (fun _ => pure []) rule true (ofRun run)) run
        (InlineRun.runRule md step id (fun _ => []) rule true run) := by
    intro rule run ready same
    refine runRule_matches isJsx skips forward alike ?_ ?_ ?_ rule ready same <;>
      (intro loud; cases loud)
  obtain ⟨agrees, follows, stays, -⟩ := skipBy_matches
    (fun rule run ready same _ => silently rule run ready same) md.inlineChain ready same rfl
  dsimp only
  rw [pos_ofRun, agrees, ok_bind]
  generalize InlineRun.skipBy _ run.pos md.inlineChain run = skipped at *
  obtain ⟨matched, later⟩ := skipped
  cases matched with
  | true => exact ⟨rfl, follows.source⟩
  | false =>
    have there : later.pos < later.posMax := by
      rw [show later.pos = run.pos from stays rfl,
        show later.posMax = run.posMax from follows.posMax]
      exact inWindow
    exact ⟨skipChar_eq follows.ready there, follows.source⟩

theorem skipUpTo_alike (isJsx : md.grammar = TagGrammar.jsx) {fuel : Nat}
    (enough : md.maxNesting - level ≤ fuel) :
    SkipsAlike level (skipUpTo md fuel) (InlineRun.skipUpTo md fuel) := by
  have lawful : md.grammar.Lawful := isJsx ▸ TagGrammar.jsx_lawful
  induction fuel generalizing level with
  | zero =>
    refine .of_skips (InlineRun.skipUpTo_skips lawful enough) (forward_skip lawful _) ?_
    intro run ready same inWindow
    refine recallStep_eq ?_ rfl ready
    exact if_neg (by rw [show (ofRun run).level = run.level from rfl]; omega)
  | succ fuel ih =>
    have fewer : md.maxNesting - (level + 1) ≤ fuel := by omega
    refine .of_skips (InlineRun.skipUpTo_skips lawful enough) (forward_skip lawful _) ?_
    intro run ready same inWindow
    obtain ⟨agrees, sameSource⟩ := skipAnew_eq isJsx (InlineRun.skipUpTo_skips lawful fewer)
      (forward_skip lawful _) (ih fewer) ready same inWindow
    by_cases room : run.level < md.maxNesting
    · refine recallStep_eq ?_ ?_ ready
      · rw [if_pos room, if_pos (show (ofRun run).level < md.maxNesting from room)]
        exact agrees
      · rw [if_pos room]
        exact sameSource
    · refine recallStep_eq ?_ ?_ ready
      · rw [if_neg room, if_neg (show ¬ (ofRun run).level < md.maxNesting from room)]
        rfl
      · rw [if_neg room]
        rfl

/-- With bytes for characters, skipping moves as it does on characters. -/
theorem skipNext_alike (isJsx : md.grammar = TagGrammar.jsx) (level : Nat) :
    SkipsAlike level (skipNext md) (InlineRun.skipNext md) := by
  have lawful : md.grammar.Lawful := isJsx ▸ TagGrammar.jsx_lawful
  refine .of_skips (InlineRun.skipNext_skips lawful) (forward_skip lawful _) ?_
  rintro run ready rfl inWindow
  exact (skipUpTo_alike isJsx (Nat.le_refl _)).agrees run ready rfl inWindow

/-! ## Parsing -/

section

variable {source : Text}

theorem parseChars_eq
    (each : ∀ run : InlineRun, run.Ready → run.level = level → run.source = source →
      Matches (checked (ofRun run)) run (step run))
    {fuel charFuel : Nat} (ready : run.Ready) (same : run.level = level)
    (isSource : run.source = source)
    (enough : offset source run.posMax - offset source run.pos < fuel)
    (enoughChars : run.posMax - run.pos ≤ charFuel) :
    parseChars checked (offset source run.posMax) fuel (ofRun run) =
      .ok (ofRun (InlineRun.parseChars step run.posMax charFuel run)) := by
  induction fuel generalizing run charFuel with
  | zero => exact absurd enough (Nat.not_lt_zero _)
  | succ fuel ih =>
    subst isSource
    by_cases inWindow : run.pos < run.posMax
    · obtain ⟨charFuel, rfl⟩ := Nat.exists_eq_succ_of_ne_zero
        (Nat.ne_zero_of_lt (Nat.lt_of_lt_of_le (Nat.sub_pos_of_lt inWindow) enoughChars))
      obtain ⟨agrees, follows, stays, further⟩ := each run ready same rfl
      rw [parseChars, InlineRun.parseChars, if_neg (Nat.not_le_of_lt inWindow), agrees, ok_bind,
        if_pos (show (ofRun run).pos < offset run.source run.posMax from offset_lt.mpr inWindow)]
      dsimp only
      generalize step run = tried at *
      obtain ⟨matched, sameText, pos, posMax, pending, raised, tokens, memo⟩ := tried
      obtain ⟨rfl, rfl, rfl, atEnd⟩ := follows
      have fewer : ∀ later : Nat, run.pos < later →
          offset run.source run.posMax - offset run.source later < fuel ∧
            run.posMax - later ≤ charFuel := by
        intro later moves
        have closer := Nat.sub_lt_sub_left ((@offset_lt run.source _ _).mpr inWindow)
          (offset_lt.mpr moves)
        have closerChars := Nat.sub_lt_sub_left inWindow moves
        exact ⟨Nat.lt_of_lt_of_le closer (Nat.le_of_lt_succ enough),
          Nat.le_of_lt_succ (Nat.lt_of_lt_of_le closerChars enoughChars)⟩
      cases matched with
      | true =>
        obtain ⟨closer, closerChars⟩ := fewer pos (further rfl)
        exact ih atEnd same rfl closer closerChars
      | false =>
        let back : InlineRun := ⟨run.source, run.pos, run.posMax, pending, run.level, tokens, memo⟩
        have atStart : back.Ready := ⟨ready.ordered, ready.inText, atEnd.forward⟩
        obtain ⟨c, others, begins⟩ := List.exists_cons_of_ne_nil
          (InlineRun.cursor_rest_ne_nil atStart inWindow)
        have next : offset run.source (run.pos + 1) = offset run.source run.pos + size [c] := by
          have next := @offset_ahead back atStart 1 (by rw [begins]; exact Nat.succ_pos _)
          rwa [begins] at next
        obtain ⟨closer, closerChars⟩ := fewer (run.pos + 1) (Nat.lt_succ_self _)
        have goesOn := @ih
          ⟨run.source, run.pos + 1, run.posMax, pending ++ [c], run.level, tokens, memo⟩ charFuel
          ⟨inWindow, ready.inText, atEnd.forward⟩ same rfl closer closerChars
        refine (congrArg (· >>= _) (ahead_eq atStart)).trans ?_
        have peeked : InlineRun.peek? back = some c := congrArg List.head? begins
        rw [ok_bind, begins]
        dsimp only [ofStep]
        rw [if_neg Bool.false_ne_true, show InlineRun.peek? _ = _ from peeked]
        refine Eq.trans ?_ goesOn
        exact congrArg (fun pos => parseChars checked (offset run.source run.posMax) fuel
          { (ofRun back).addText [c] with pos }) next.symm
    · have ended := Nat.not_lt.mp inWindow
      rw [parseChars, if_neg (show ¬ (ofRun run).pos < offset run.source run.posMax from
        fun less => inWindow (offset_lt.mp less))]
      cases charFuel with
      | zero => rfl
      | succ charFuel =>
        rw [InlineRun.parseChars, if_pos ended]
        rfl

theorem parseBy_eq
    (each : ∀ run : InlineRun, run.Ready → run.level = level → run.source = source →
      Matches (checked (ofRun run)) run (step run))
    (ready : run.Ready) (same : run.level = level) (isSource : run.source = source) :
    parseBy checked (ofRun run) = .ok (ofRun (InlineRun.parseBy step run)) := by
  subst isSource
  have parsed := @parseChars_eq level checked step run run.source each _ _ ready same rfl
    (Nat.lt_succ_self _) (Nat.le_refl _)
  refine (congrArg (· >>= _) parsed).trans ?_
  exact congrArg Except.ok (settle_ofRun _)

theorem parseUpTo_alike (isJsx : md.grammar = TagGrammar.jsx) {labelTree : Text → List Inline}
    (labels : ∀ label : Text, label.length < source.length →
      checkedLabel label = .ok (parseLabel label))
    (trees : ∀ label, parseLabel label = Inline.tokens (labelTree label))
    (within : ∀ label, Inline.AllWithin md.maxNesting md.maxNesting (labelTree label)) {fuel : Nat}
    (enough : md.maxNesting - level ≤ fuel) :
    ParsesAlike source level (parseUpTo md checkedLabel fuel)
      (InlineRun.parseUpTo md parseLabel fuel) := by
  have lawful : md.grammar.Lawful := isJsx ▸ TagGrammar.jsx_lawful
  induction fuel generalizing level with
  | zero =>
    refine ⟨fun run ready same isSource => ?_, fun run ready same isSource => ?_⟩
    · refine parseBy_eq (fun run ready same _ => ?_) ready same isSource
      rw [if_neg (by rw [show (ofRun run).level = run.level from rfl]; omega)]
      exact .missed ready
    · rw [InlineRun.parseUpTo_parses lawful trees within enough run ready same]
      exact isSource
  | succ fuel ih =>
    have fewer : md.maxNesting - (level + 1) ≤ fuel := by omega
    have inner := ih fewer
    have bodies := InlineRun.parseUpTo_parses lawful trees within fewer
    refine ⟨fun run ready same isSource => ?_, fun run ready same isSource => ?_⟩
    · refine parseBy_eq (fun run ready same isSource => ?_) ready same isSource
      by_cases room : run.level < md.maxNesting
      · rw [if_pos room, if_pos (show (ofRun run).level < md.maxNesting from room), pos_ofRun,
          isSource]
        refine firstStep_matches (fun rule run ready same isSource => ?_) _ ready same isSource
        rw [← isSource] at labels inner
        exact runRule_matches isJsx (InlineRun.skipNext_skips lawful) (forward_skip lawful _)
          (skipNext_alike isJsx level)
          (fun _ => InlineRun.performs_parsed lawful trees within bodies) (fun _ => inner)
          (fun _ => labels) rule ready same
      · rw [if_neg room, if_neg (show ¬ (ofRun run).level < md.maxNesting from room)]
        exact .missed ready
    · rw [InlineRun.parseUpTo_parses lawful trees within enough run ready same]
      exact isSource

end

/-- Images that are nested in labels have ever shorter labels, so that the depth is enough. -/
theorem parseLabels_eq (isJsx : md.grammar = TagGrammar.jsx) {depth : Nat} {source : Text}
    (enough : source.length < depth) :
    parseLabels md depth source = .ok (InlineRun.parseLabels md depth source) := by
  have lawful : md.grammar.Lawful := isJsx ▸ TagGrammar.jsx_lawful
  induction depth generalizing source with
  | zero => exact absurd enough (Nat.not_lt_zero _)
  | succ depth ih =>
    have parses := @parseUpTo_alike md 0 _ _ source isJsx _
      (fun label shorter => ih (Nat.lt_of_lt_of_le shorter (Nat.le_of_lt_succ enough)))
      (InlineRun.parseLabels_eq lawful depth) (allWithin_parseNested lawful depth) md.maxNesting
      (Nat.le_refl _)
    rw [parseLabels, InlineRun.parseLabels, ofSource_eq,
      parses.agrees _ (InlineRun.ready_ofSource source) rfl rfl]
    rfl

/-- The tokens of a text are those that are parsed on its characters, and no access is wrong. -/
theorem parse_eq (isJsx : md.grammar = TagGrammar.jsx) (source : Text) :
    InlineByteRun.parse md source = .ok (InlineRun.parse md source) :=
  parseLabels_eq isJsx (Nat.lt_succ_self _)

end InlineByteRun

end ComponentMarkdown
