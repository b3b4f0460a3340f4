import ComponentMarkdown.Inline.Run
import ComponentMarkdown.Proofs.Inline.Depth
import ComponentMarkdown.Proofs.Inline.Window

/-!
# Rules in place and rules on a cursor

A rule that runs in place finds what the rule on the cursor of the run finds, and leaves the run as
it was but for the memo; when it does not run silently, it then performs what it found. The file
has:

* tokens that are added in place, compared with those of a piece (`write_eq_emit`);
* the searches for the end of a construct;
* `runRule_eq` for any rule, and `perform_eq` for what is performed.
-/

namespace ComponentMarkdown.InlineRun

/-! ## Tokens -/

/-- Adds the tokens of a piece. -/
def emit (run : InlineRun) (piece : Inline) : InlineRun :=
  { run with
    pending := (piece.emit run.level run.pending).2
    tokens := run.tokens ++ (piece.emit run.level run.pending).1 }

theorem settle_eq (run : InlineRun) :
    run.settle =
      { run with
        pending := []
        tokens := run.tokens ++ textTokens run.level run.pending } := by
  obtain ⟨source, pos, posMax, pending, level, tokens, memo⟩ := run
  cases pending <;> simp [settle, textTokens, flush]

theorem add_opening (run : InlineRun) {token : Token} (opens : token.nesting = .opening) :
    run.add token =
      { run with
        pending := []
        level := run.level + 1
        tokens := run.tokens ++ textTokens run.level run.pending ++
          [{ token with level := run.level }] } := by
  simp [add, settle_eq, opens]

theorem add_selfClosing (run : InlineRun) {token : Token}
    (complete : token.nesting = .selfClosing) :
    run.add token =
      { run with
        pending := []
        tokens := run.tokens ++ textTokens run.level run.pending ++
          [{ token with level := run.level }] } := by
  simp [add, settle_eq, complete]

theorem add_closing (run : InlineRun) {token : Token} (closes : token.nesting = .closing) :
    run.add token =
      { run with
        pending := []
        level := run.level - 1
        tokens := run.tokens ++ textTokens run.level run.pending ++
          [{ token with level := run.level - 1 }] } := by
  simp [add, settle_eq, closes]

/-- Complete pieces are written as the tokens that they stand for. -/
theorem write_eq_emit (run : InlineRun) {piece : Inline} (complete : piece.IsComplete) :
    run.write piece = run.emit piece := by
  cases piece with
  | literal text => simp [write, emit, Inline.emit]
  | lineBreak =>
    simp only [write, breakLine, push, emit, Inline.emit, breakTokens]
    rw [add_selfClosing _ (by rfl)]
    simp
  | hardBreak =>
    simp only [write, push, emit, Inline.emit]
    rw [add_selfClosing _ (by rfl)]
    simp
  | code ticks content =>
    simp only [write, emit, Inline.emit]
    rw [add_selfClosing _ (by rfl)]
    simp
  | autolink address href =>
    simp only [write, addAutolink, emit, Inline.emit]
    rw [add_closing _ (by rfl), add_selfClosing _ (by rfl), add_opening _ (by rfl)]
    simp [textTokens, enclose, show address ≠ [] from complete]
  | embedded code =>
    simp only [write, emit, Inline.emit]
    rw [add_selfClosing _ (by rfl)]
    simp
  | emphasis | link | image | element => exact complete.elim

/-! ## Searches -/

/-- Where a run can be: in a window of its text, with a memo that skipping can rely on. -/
structure Ready (run : InlineRun) : Prop where
  ordered : run.pos ≤ run.posMax
  inText : run.posMax ≤ run.source.length
  forward : run.memo.Forward

/-- The step moves over what `skip` skips, and answers whether a rule took it, on runs of one
level. -/
def SkipsAs (level : Nat) (step : Step) (skip : Skip) : Prop :=
  ∀ run : InlineRun, run.Ready → run.level = level → run.pos < run.posMax →
    step run = (((skip run.cursor).run run.memo).1.consumed,
      { run with
        pos := ((skip run.cursor).run run.memo).1.stop
        memo := ((skip run.cursor).run run.memo).2 })

/-- A search in place finds what was found on the cursor. It changes the position and the memo. -/
def Finds {α : Type} (run : InlineRun) (result : α × InlineRun) (found : α × Memo) : Prop :=
  ∃ pos, result = (found.1, { run with pos, memo := found.2 })

section

variable {run : InlineRun}

@[simp] theorem cursor_pos : run.cursor.pos = run.pos := rfl

theorem cursor_rest_length (ready : run.Ready) : run.cursor.rest.length = run.posMax - run.pos :=
  Cursor.length_inside ready.inText

theorem cursor_stop (ready : run.Ready) : run.cursor.stop = run.posMax :=
  Cursor.stop_inside ready.inText ready.ordered

theorem cursor_rest_ne_nil (ready : run.Ready) (inWindow : run.pos < run.posMax) :
    run.cursor.rest ≠ [] :=
  Cursor.inside_rest_ne_nil ready.inText inWindow

theorem cursor_rest_eq_nil (ended : run.posMax ≤ run.pos) : run.cursor.rest = [] :=
  Cursor.inside_rest_eq_nil ended

theorem cursor_notEmpty (ready : run.Ready) (inWindow : run.pos < run.posMax) :
    ¬ run.cursor.rest.isEmpty = true := by
  simpa using cursor_rest_ne_nil ready inWindow

/-- A run that moved inside its window has the cursor that moved. -/
theorem cursor_advance {n : Nat} (fits : run.pos + n ≤ run.posMax) :
    ({ run with pos := run.pos + n } : InlineRun).cursor = run.cursor.advance n :=
  (Cursor.advance_inside fits).symm

theorem cursor_advance_length (ready : run.Ready) {n : Nat} (fits : run.pos + n ≤ run.posMax) :
    (run.cursor.advance n).rest.length = run.posMax - (run.pos + n) := by
  rw [cursor, Cursor.advance_inside fits, Cursor.length_inside ready.inText]

theorem Ready.advance (ready : run.Ready) {n : Nat} (fits : run.pos + n ≤ run.posMax) :
    ({ run with pos := run.pos + n } : InlineRun).Ready :=
  ⟨fits, ready.inText, ready.forward⟩

/-- Behind what was skipped, a run is ready to go on from the cursor that moved there. -/
theorem Ready.skipped {skip : Skip} (ready : run.Ready) (forward : skip.Forward)
    (inWindow : run.pos < run.posMax) {found : Skipped × Memo}
    (isFound : (skip run.cursor).run run.memo = found) :
    ({ run with pos := found.1.stop, memo := found.2 } : InlineRun).Ready ∧
      ({ run with pos := found.1.stop, memo := found.2 } : InlineRun).cursor =
        run.cursor.moveTo found.1.stop := by
  obtain ⟨⟨behind, inside⟩, kept⟩ :=
    forward run.cursor (cursor_rest_ne_nil ready inWindow) run.memo ready.forward
  rw [cursor_stop ready] at inside
  subst isFound
  exact ⟨⟨inside, ready.inText, kept⟩, (Cursor.moveTo_inside (Nat.le_of_lt behind) inside).symm⟩

theorem Finds.of_skipped {α : Type} {pos : Nat} {memo : Memo} {result : α × InlineRun}
    {found : α × Memo} (finds : Finds { run with pos, memo } result found) :
    Finds run result found := by
  obtain ⟨pos, same⟩ := finds
  exact ⟨pos, same⟩

end

section

variable {level : Nat} {step : Step} {skip : Skip}

theorem seekCloser_finds (skips : SkipsAs level step skip) (forward : skip.Forward)
    (marker : Char) (count bodyStart fuel : Nat) {run : InlineRun} (ready : run.Ready)
    (same : run.level = level) :
    Finds run (seekCloser step marker count bodyStart fuel run)
      ((findCloser skip marker count bodyStart fuel run.cursor).run run.memo) := by
  induction fuel generalizing run with
  | zero => exact ⟨run.pos, rfl⟩
  | succ fuel ih =>
    rw [seekCloser, findCloser, cursor_pos]
    split
    · next ended =>
      rw [cursor_rest_eq_nil ended]
      exact ⟨run.pos, rfl⟩
    · next inWindow =>
      have inWindow := Nat.lt_of_not_le inWindow
      rw [if_neg (cursor_notEmpty ready inWindow)]
      dsimp only
      split
      · exact ⟨run.pos, rfl⟩
      · rw [skips run ready same inWindow, Memoized.run_bind]
        generalize isFound : (skip run.cursor).run run.memo = found
        obtain ⟨ready, moved⟩ := ready.skipped forward inWindow isFound
        rw [← moved]
        exact (ih ready same).of_skipped

theorem seekLabelEnd_finds (skips : SkipsAs level step skip) (forward : skip.Forward)
    (fuel depth : Nat) {run : InlineRun} (ready : run.Ready) (same : run.level = level) :
    Finds run (seekLabelEnd step fuel depth run)
      ((findLabelEnd skip fuel depth run.cursor).run run.memo) := by
  induction fuel generalizing depth run with
  | zero => exact ⟨run.pos, rfl⟩
  | succ fuel ih =>
    rw [seekLabelEnd, findLabelEnd, cursor_pos]
    cases begins : run.cursor.rest with
    | nil => exact ⟨run.pos, rfl⟩
    | cons mark rest =>
      have inWindow : run.pos < run.posMax := by
        refine Nat.lt_of_not_le fun ended => ?_
        rw [cursor_rest_eq_nil ended] at begins
        cases begins
      dsimp only
      generalize (if (mark == ']') = true then depth - 1 else depth) = depth
      split
      · exact ⟨run.pos, rfl⟩
      · rw [skips run ready same inWindow, Memoized.run_bind]
        generalize isFound : (skip run.cursor).run run.memo = found
        obtain ⟨ready, moved⟩ := ready.skipped forward inWindow isFound
        rw [← moved]
        exact (ih _ ready same).of_skipped

theorem seekCloseTag_finds (skips : SkipsAs level step skip) (forward : skip.Forward)
    (grammar : TagGrammar) (name : Text) (fuel : Nat) {run : InlineRun} (ready : run.Ready)
    (same : run.level = level) :
    Finds run (seekCloseTag grammar step name fuel run)
      ((closeAhead grammar skip name fuel run.cursor).run run.memo) := by
  induction fuel generalizing run with
  | zero => exact ⟨run.pos, rfl⟩
  | succ fuel ih =>
    rw [seekCloseTag, closeAhead, cursor_pos]
    split
    · next ended =>
      rw [cursor_rest_eq_nil ended]
      exact ⟨run.pos, rfl⟩
    · next inWindow =>
      have inWindow := Nat.lt_of_not_le inWindow
      rw [if_neg (cursor_notEmpty ready inWindow), Memoized.run_bind]
      dsimp only
      rw [skips run ready same inWindow]
      generalize isFound : (skip run.cursor).run run.memo = found
      obtain ⟨ready, moved⟩ := ready.skipped forward inWindow isFound
      rw [← moved]
      cases grammar.closeTag .inline run.cursor.rest with
      | none => exact (ih ready same).of_skipped
      | some tag =>
        dsimp only
        split
        · exact ⟨found.1.stop, rfl⟩
        · exact (ih ready same).of_skipped

end

/-! ## What is found -/

/-- Adds what a rule found. -/
def perform (parse : InlineRun → InlineRun) (parseLabel : Text → List Token)
    (construct : Construct) (run : InlineRun) : InlineRun :=
  match construct.form with
  | .leaf piece => run.write piece
  | .enclosing enclosure skip length =>
    let start := run.pos + skip
    let stop := start + length
    match enclosure with
    | .emphasis marker strong => wrapEmphasis parse marker (if strong then 2 else 1) start stop run
    | .link target => wrapLink parse target start stop run
    | .image target => addImage parseLabel target ((run.source.take stop).drop start) run
    | .element code =>
      run.wrap parse
        { kind := .embeddedInline, tag := [], nesting := .opening, content := code.dropLast }
        { kind := .embeddedInline, tag := [], nesting := .closing,
          content := code.getLast?.toList }
        start stop

/-- What a run does with what a rule found: it moves behind it, and adds it unless it is silent. -/
def outcome (silent : Bool) (perform : Construct → InlineRun → InlineRun) (run : InlineRun) :
    Option Construct × Memo → Bool × InlineRun
  | (none, memo) => (false, { run with memo })
  | (some construct, memo) =>
    (true,
      { (if silent then { run with memo } else perform construct { run with memo }) with
        pos := run.pos + construct.length })

section

variable {level : Nat} {step : Step} {skip : Skip} {parse : InlineRun → InlineRun}
  {parseLabel : Text → List Token}

theorem take_eq (run : InlineRun) (silent : Bool) {found : Option Construct} {rest : Text}
    (leaves : Construct.AllLeaves found rest) :
    run.take silent found =
      outcome silent (perform parse parseLabel) run (found, run.memo) := by
  cases found with
  | none => rfl
  | some construct =>
    obtain ⟨-, piece, isLeaf⟩ := leaves construct rfl
    obtain ⟨length, form⟩ := construct
    cases isLeaf
    rfl

theorem emphasis_eq (skips : SkipsAs level step skip) (forward : skip.Forward) (silent : Bool)
    {run : InlineRun} (ready : run.Ready) (same : run.level = level) :
    emphasis step parse silent run =
      outcome silent (perform parse parseLabel) run
        ((emphasis? skip run.cursor).run run.memo) := by
  rw [emphasis, emphasis?]
  cases begins : run.cursor.rest with
  | nil => rfl
  | cons marker rest =>
    dsimp only
    split
    · rfl
    · have length_le := Text.runLength_le marker (marker :: rest)
      rw [← begins, cursor_rest_length ready, begins] at length_le
      have length_pos := Text.runLength_pos marker rest
      generalize Text.runLength marker (marker :: rest) = length at *
      have fits : run.pos + min length 2 ≤ run.posMax := by
        have := ready.ordered
        omega
      have room := cursor_advance_length ready fits
      obtain ⟨pos, finds⟩ := seekCloser_finds skips forward marker (min length 2)
        (run.pos + min length 2) (run.posMax - (run.pos + min length 2) + 1)
        (ready.advance fits) same
      obtain ⟨bounds, -⟩ := ensures_findCloser forward marker (min length 2)
        (run.pos + min length 2) (run.posMax - (run.pos + min length 2) + 1)
        (run.cursor.advance (min length 2)) run.memo ready.forward
      rw [cursor_advance fits] at finds
      rw [Cursor.advance_pos, cursor_pos, room, finds, Memoized.run_bind]
      generalize (findCloser skip marker (min length 2) (run.pos + min length 2)
        (run.posMax - (run.pos + min length 2) + 1)
        (run.cursor.advance (min length 2))).run run.memo = found at *
      obtain ⟨closer, memo⟩ := found
      cases closer with
      | none => rfl
      | some closer =>
        obtain ⟨-, behind, -⟩ := bounds closer rfl
        have ends : run.pos + (closer + min length 2 - run.pos) = closer + min length 2 := by omega
        have stops : run.pos + min length 2 + (closer - (run.pos + min length 2)) = closer := by
          omega
        have counts : (if min length 2 == 2 then 2 else 1) = min length 2 := by
          split
          · next two => exact (beq_iff_eq.mp two).symm
          · next notTwo =>
            have : min length 2 ≠ 2 := by simpa using notTwo
            omega
        simp only [outcome, perform, Memoized.run_pure, ends, stops, counts]

theorem labelled_eq (skips : SkipsAs level step skip) (forward : skip.Forward) {opening : Nat}
    {write : Target → Nat → Nat → InlineRun → InlineRun} {enclosure : Target → Enclosure}
    (writes : ∀ (target : Target) (total length : Nat) (run : InlineRun),
      write target (run.pos + opening) (run.pos + opening + length) run =
        perform parse parseLabel ⟨total, .enclosing (enclosure target) opening length⟩ run)
    (silent : Bool) {run : InlineRun} (ready : run.Ready) (same : run.level = level)
    (fits : run.pos + opening ≤ run.posMax) :
    labelled step opening write silent run =
      outcome silent (perform parse parseLabel) run
        ((labelled? skip run.cursor opening enclosure).run run.memo) := by
  have room := cursor_advance_length ready fits
  obtain ⟨pos, finds⟩ := seekLabelEnd_finds skips forward
    (run.posMax - (run.pos + opening) + 1) 1 (ready.advance fits) same
  obtain ⟨bounds, -⟩ := ensures_findLabelEnd forward (run.posMax - (run.pos + opening) + 1) 1
    (run.cursor.advance opening) run.memo ready.forward
  rw [cursor_advance fits] at finds
  rw [labelled, labelled?]
  dsimp only
  rw [room, finds, Memoized.run_bind]
  generalize (findLabelEnd skip (run.posMax - (run.pos + opening) + 1) 1
    (run.cursor.advance opening)).run run.memo = found at *
  obtain ⟨labelEnd, memo⟩ := found
  cases labelEnd with
  | none => rfl
  | some labelEnd =>
    obtain ⟨behind, -⟩ := bounds labelEnd rfl
    rw [Cursor.advance_pos, cursor_pos] at behind
    have target : (run.cursor.advance opening).rest.drop (labelEnd - (run.pos + opening) + 1) =
        run.cursor.rest.drop (labelEnd + 1 - run.pos) := by
      rw [Cursor.advance, List.drop_drop]
      congr 1
      omega
    have stops : run.pos + opening + (labelEnd - (run.pos + opening)) = labelEnd := by omega
    dsimp only
    rw [Cursor.advance_pos, cursor_pos, target]
    cases Target.read? (run.cursor.rest.drop (labelEnd + 1 - run.pos)) with
    | none => rfl
    | some read =>
      obtain ⟨target, behind⟩ := read
      have written := writes target (run.cursor.rest.length - behind.length)
        (labelEnd - (run.pos + opening)) { run with memo }
      rw [stops] at written
      simp only [outcome, Memoized.run_pure, written]

/-- An element is written as the construct that it is found as. -/
theorem writeElement_eq (run : InlineRun) (code : Text) (length : Nat) {skip bodyEnd : Nat}
    {c : Cursor} (stands : run.cursor = c) (behind : run.pos + skip ≤ bodyEnd)
    (inWindow : bodyEnd ≤ run.posMax) :
    writeElement parse code (run.pos + skip) bodyEnd run =
      perform parse parseLabel
        ⟨length,
          if ((c.advance skip).rest.take (bodyEnd - (run.pos + skip))).all isBlank then
            .leaf (.embedded code)
          else .enclosing (.element code) skip (bodyEnd - (run.pos + skip))⟩ run := by
  have stops : run.pos + skip + (bodyEnd - (run.pos + skip)) = bodyEnd := by omega
  have body : (c.advance skip).rest.take (bodyEnd - (run.pos + skip)) =
      (run.source.take bodyEnd).drop (run.pos + skip) := by
    have := @Cursor.window_inside run.source run.pos run.posMax skip (bodyEnd - (run.pos + skip))
      (by omega)
    rw [stops] at this
    exact stands ▸ congrArg Cursor.rest this
  rw [body, writeElement]
  cases ((run.source.take bodyEnd).drop (run.pos + skip)).all isBlank with
  | true => rfl
  | false => simp only [perform, Bool.false_eq_true, if_false, stops]

theorem embedded_eq {md : Markdown} (lawful : md.grammar.Lawful) (skips : SkipsAs level step skip)
    (forward : skip.Forward) (silent : Bool) {run : InlineRun} (ready : run.Ready)
    (same : run.level = level) :
    embedded md step parse silent run =
      outcome silent (perform parse parseLabel) run
        ((embedded? md skip run.cursor).run run.memo) := by
  rw [embedded, embedded?]
  dsimp only
  split
  · rfl
  · cases opens : md.grammar.openTag .inline run.cursor.rest with
    | none => rfl
    | some tag =>
      cases md.grammar.selfClosing .inline run.cursor.rest with
      | some length =>
        dsimp only
        cases md.transform.embed? (run.cursor.rest.take length) <;> rfl
      | none =>
        have fits : run.pos + tag.length ≤ run.posMax := by
          have bounded := (lawful.openTag opens).2
          rw [cursor_rest_length ready] at bounded
          have := ready.ordered
          omega
        have room := cursor_advance_length ready fits
        obtain ⟨pos, finds⟩ := seekCloseTag_finds skips forward md.grammar tag.name
          (run.posMax - (run.pos + tag.length) + 1) (ready.advance fits) same
        obtain ⟨bounds, -⟩ := ensures_closeAhead lawful forward tag.name
          (run.posMax - (run.pos + tag.length) + 1) (run.cursor.advance tag.length) run.memo
          ready.forward
        rw [cursor_advance fits] at finds
        dsimp only
        rw [room, finds, Memoized.run_bind]
        generalize (closeAhead md.grammar skip tag.name (run.posMax - (run.pos + tag.length) + 1)
          (run.cursor.advance tag.length)).run run.memo = found at *
        obtain ⟨closeTag, memo⟩ := found
        cases closeTag with
        | none => rfl
        | some closeTag =>
          obtain ⟨bodyEnd, stop⟩ := closeTag
          obtain ⟨behind, ordered, inWindow⟩ := bounds bodyEnd stop rfl
          rw [Cursor.advance_pos, cursor_pos] at behind
          have fitsBody : bodyEnd ≤ run.posMax := by
            rw [Cursor.stop, Cursor.advance_pos, cursor_pos, room] at inWindow
            omega
          dsimp only
          cases md.transform.embed? (selfClosed (run.cursor.rest.take tag.length)) with
          | none => rfl
          | some code =>
            have ends : run.pos + (stop - run.pos) = stop := by omega
            have bodyLength : ((run.cursor.advance tag.length).rest.take
                (bodyEnd - (run.pos + tag.length))).length = bodyEnd - (run.pos + tag.length) := by
              rw [List.length_take, room]
              omega
            have written : writeElement parse code (run.pos + tag.length) bodyEnd
                { run with memo } = perform parse parseLabel _ _ :=
              writeElement_eq (c := run.cursor) { run with memo } code (stop - run.pos) rfl behind
                fitsBody
            simp only [outcome, Memoized.run_pure, Option.map_some, Cursor.advance_pos, cursor_pos,
              bodyLength, ends, written]

/-- A rule in place does what it does on the cursor of the run. -/
theorem runRule_eq {md : Markdown} (lawful : md.grammar.Lawful) (skips : SkipsAs level step skip)
    (forward : skip.Forward) (rule : InlineRule) (silent : Bool) {run : InlineRun}
    (ready : run.Ready) (same : run.level = level) :
    runRule md step parse parseLabel rule silent run =
      outcome silent (perform parse parseLabel) run
        ((scan md skip rule run.cursor).run run.memo) := by
  cases rule with
  | text => exact take_eq run silent (allLeaves_plainRun run.cursor.rest)
  | newline => exact take_eq run silent (allLeaves_newline run.cursor.rest)
  | escape => exact take_eq run silent (allLeaves_escape run.cursor.rest)
  | backticks => exact take_eq run silent (allLeaves_codeSpan run.cursor.rest)
  | emphasis => exact emphasis_eq skips forward silent ready same
  | link =>
    rw [runRule, link]
    split
    · next begins =>
      have room := cursor_rest_length ready
      rw [begins, List.length_cons] at room
      rw [scan, link?, begins]
      exact labelled_eq skips forward (fun _ _ _ _ => rfl) silent ready same (by omega)
    · next others =>
      rw [scan, link?]
      split
      · next begins => exact absurd begins (others _)
      · rfl
  | image =>
    rw [runRule, image]
    split
    · next begins =>
      have room := cursor_rest_length ready
      rw [begins, List.length_cons, List.length_cons] at room
      rw [scan, image?, begins]
      exact labelled_eq skips forward (fun _ _ _ _ => rfl) silent ready same (by omega)
    · next others =>
      rw [scan, image?]
      split
      · next begins => exact absurd begins (others _)
      · rfl
  | autolink => exact take_eq run silent (allLeaves_autolink run.cursor.rest)
  | embedded => exact embedded_eq lawful skips forward silent ready same
  | entity => exact take_eq run silent (allLeaves_entity run.cursor.rest)

/-! ## Bodies -/

/-- On runs of that level, parsing in place adds the tokens of what `parseBody` parses. -/
def ParsesAs (level : Nat) (parse : InlineRun → InlineRun)
    (parseBody : Cursor → Memoized (List Inline)) : Prop :=
  ∀ run : InlineRun, run.Ready → run.level = level →
    parse run =
      { run with
        pos := run.posMax
        pending := []
        tokens := run.tokens ++
          Inline.emitAll level run.pending ((parseBody run.cursor).run run.memo).1
        memo := ((parseBody run.cursor).run run.memo).2 }

variable {parseBody : Cursor → Memoized (List Inline)} {labelTree : Text → List Inline}

theorem wrap_eq (parses : ParsesAs (level + 1) parse parseBody) {opening closing : Token}
    (opens : opening.nesting = .opening) (closes : closing.nesting = .closing) {run : InlineRun}
    (ready : run.Ready) (same : run.level = level) {start stop : Nat} (ordered : start ≤ stop)
    (inWindow : stop ≤ run.posMax) :
    run.wrap parse opening closing start stop =
      { run with
        pos := stop
        pending := []
        tokens := run.tokens ++ (textTokens level run.pending ++
          enclose level opening closing (Inline.emitAll (level + 1) []
            ((parseBody (Cursor.inside run.source start stop)).run run.memo).1))
        memo := ((parseBody (Cursor.inside run.source start stop)).run run.memo).2 } := by
  have inner : InlineRun.Ready { run.add opening with pos := start, posMax := stop } := by
    rw [add_opening run opens]
    exact ⟨ordered, Nat.le_trans inWindow ready.inText, ready.forward⟩
  rw [wrap, parses _ inner (by rw [add_opening run opens, same]), add_closing _ closes,
    add_opening run opens]
  simp [enclose, cursor, opens, closes, same]

/-- What is performed is the piece that the construct stands for. -/
theorem perform_eq (parses : ParsesAs (level + 1) parse parseBody)
    (labels : ∀ label, parseLabel label = Inline.tokens (labelTree label)) {run : InlineRun}
    (ready : run.Ready) (same : run.level = level) {construct : Construct}
    (fits : construct.Fits run.cursor.rest) :
    ∃ pos, perform parse parseLabel construct run =
      { run.emit ((resolve labelTree parseBody run.cursor construct).run run.memo).1 with
        pos
        memo := ((resolve labelTree parseBody run.cursor construct).run run.memo).2 } := by
  have room := cursor_rest_length ready
  obtain ⟨total, form⟩ := construct
  obtain ⟨-, bounded, inside⟩ := fits
  cases form with
  | leaf piece => exact ⟨run.pos, write_eq_emit run inside⟩
  | enclosing enclosure skip length =>
    dsimp only at bounded inside
    have inWindow : run.pos + skip + length ≤ run.posMax := by
      have := ready.ordered
      omega
    have window : run.cursor.window skip length =
        Cursor.inside run.source (run.pos + skip) (run.pos + skip + length) :=
      Cursor.window_inside inWindow
    rw [perform, resolve]
    dsimp only
    rw [window]
    cases enclosure with
    | emphasis marker strong =>
      refine ⟨run.pos + skip + length, ?_⟩
      dsimp only
      rw [wrapEmphasis, wrap_eq parses rfl rfl ready same (Nat.le_add_right _ _) inWindow]
      simp only [Memoized.run_bind, Memoized.run_pure]
      cases strong <;> simp [emit, Inline.emit, same]
    | link target =>
      refine ⟨run.pos + skip + length, ?_⟩
      dsimp only
      rw [wrapLink, wrap_eq parses rfl rfl ready same (Nat.le_add_right _ _) inWindow]
      simp only [Memoized.run_bind, Memoized.run_pure]
      simp [emit, Inline.emit, same]
    | image target =>
      refine ⟨run.pos, ?_⟩
      dsimp only
      rw [addImage, add_selfClosing _ rfl, labels]
      simp only [Memoized.run_pure]
      simp [emit, Inline.emit, Inline.tokens, Cursor.inside]
    | element code =>
      refine ⟨run.pos + skip + length, ?_⟩
      dsimp only
      rw [wrap_eq parses rfl rfl ready same (Nat.le_add_right _ _) inWindow]
      simp only [Memoized.run_bind, Memoized.run_pure]
      simp [emit, Inline.emit, same]

end

end ComponentMarkdown.InlineRun
