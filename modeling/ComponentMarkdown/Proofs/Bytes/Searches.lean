import ComponentMarkdown.Proofs.Bytes.Plain

/-!
# Searches by bytes

Some rules look for the end of a construct past whole constructs. They move the position while they
look, and narrow the window while a body is parsed. The file has:

* emphasis, with every access checked;
* `SkipsAlike` and `ParsesAlike`, which compare what a search and a body rely on, and `Sought`,
  which compares what a search comes to;
* `emphasis_eq`: with bytes for characters, the rule does what it does on characters.
-/

namespace ComponentMarkdown

open Text Checked

namespace InlineByteRun

/-! ## Emphasis -/

/-- How many markers stand at the position. -/
def markersAt (run : InlineByteRun) (marker : Char) : Checked Nat := do
  return runLength marker (← bytesIn run.source.bytes run.pos run.posMax)

/-- May the run of `length` markers at the position open emphasis? -/
def canOpen (run : InlineByteRun) (length : Nat) (marker : Char) : Checked Bool := do
  let behind ← slice run.source (run.pos + length) run.posMax
  if !behind.head?.any (fun c => !isBlank c) then return false
  else if marker == '_' then
    let before ← slice run.source 0 run.pos
    return !before.getLast?.any isAlphanumeric
  else return true

/-- May the run of `length` markers at the position close emphasis? -/
def canClose (run : InlineByteRun) (length : Nat) (marker : Char) : Checked Bool := do
  let before ← slice run.source 0 run.pos
  if before.getLast?.all isBlank then return false
  else if marker == '_' then
    let behind ← slice run.source (run.pos + length) run.posMax
    return !behind.head?.any isAlphanumeric
  else return true

/-- Do markers at the position close emphasis of `count` markers whose body begins at
`bodyStart`? -/
def closes (run : InlineByteRun) (marker : Char) (count bodyStart : Nat) : Checked Bool := do
  if (← byteAt run.source.bytes run.pos) == marker && bodyStart < run.pos then
    let length ← run.markersAt marker
    if count ≤ length then run.canClose length marker else return false
  else return false

/-- The byte at which the run of markers begins that closes emphasis. -/
def seekCloser (skip : Step) (marker : Char) (count bodyStart : Nat) :
    Nat → InlineByteRun → Checked (Option Nat × InlineByteRun)
  | 0, _ => throw .depth
  | fuel + 1, run => do
    if run.pos < run.posMax then
      if ← run.closes marker count bodyStart then return (some run.pos, run)
      else
        let skipped ← skip run
        seekCloser skip marker count bodyStart fuel skipped.2
    else return (none, run)

/-- Emphasis of `count` markers. -/
def wrapEmphasis (parse : InlineByteRun → Checked InlineByteRun) (count start stop : Nat)
    (run : InlineByteRun) : Checked InlineByteRun := do
  let markup ← slice run.source run.pos start
  let tag := (if count == 2 then "strong" else "em").toList
  run.wrap parse
    { kind := if count == 2 then .strongOpen else .emOpen, tag, nesting := .opening, markup }
    { kind := if count == 2 then .strongClose else .emClose, tag, nesting := .closing, markup }
    start stop

/-- Moves behind what was found, and adds it with `write` unless the run is silent. -/
def finish (silent : Bool) (write : InlineByteRun → Checked InlineByteRun) (pos : Nat) : Step :=
  fun run => do
    if silent then return (true, { run with pos })
    else return (true, { ← write run with pos })

/-- What emphasis comes to, once its end was looked for: the run is back at `start`. -/
def endEmphasis (parse : InlineByteRun → Checked InlineByteRun) (silent : Bool)
    (count start : Nat) (found : Option Nat × InlineByteRun) : Checked (Bool × InlineByteRun) :=
  let run := { found.2 with pos := start }
  match found.1 with
  | none => return (false, run)
  | some closer =>
    finish silent (wrapEmphasis parse count (start + count) closer) (closer + count) run

def emphasis (skip : Step) (parse : InlineByteRun → Checked InlineByteRun) (silent : Bool) : Step :=
  fun run => do
    match ← run.peek with
    | none => return (false, run)
    | some marker =>
      if !(marker == '*' || marker == '_') then return (false, run)
      else
        let length ← run.markersAt marker
        if !(← run.canOpen length marker) then return (false, run)
        else
          let count := min length 2
          let content := run.pos + count
          let found ← seekCloser skip marker count content (run.posMax - content + 1)
            { run with pos := content }
          endEmphasis parse silent count run.pos found

/-! ## What is compared -/

/-- The later run stands in the window of the earlier one, on the same level. -/
structure Follows (run after : InlineRun) : Prop where
  source : after.source = run.source
  posMax : after.posMax = run.posMax
  level : after.level = run.level
  ready : after.Ready

/-- On runs of that level, skipping by bytes is skipping, and it moves on. -/
structure SkipsAlike (level : Nat) (checked : Step) (step : InlineRun.Step) : Prop where
  agrees : ∀ run : InlineRun, run.Ready → run.level = level → run.pos < run.posMax →
    checked (ofRun run) = .ok (ofStep (step run))
  follows : ∀ run : InlineRun, run.Ready → run.level = level → run.pos < run.posMax →
    Follows run (step run).2
  further : ∀ run : InlineRun, run.Ready → run.level = level → run.pos < run.posMax →
    run.pos < (step run).2.pos

/-- On runs of a text and of that level, parsing a body by bytes is parsing it. -/
structure ParsesAlike (source : Text) (level : Nat)
    (checked : InlineByteRun → Checked InlineByteRun) (parse : InlineRun → InlineRun) : Prop where
  agrees : ∀ run : InlineRun, run.Ready → run.level = level → run.source = source →
    checked (ofRun run) = .ok (ofRun (parse run))
  keeps : ∀ run : InlineRun, run.Ready → run.level = level → run.source = source →
    (parse run).source = source

/-- A search by bytes comes to what the one on characters comes to: in the same window and on the
same level, with `place` for what was found, of which `holds` holds. -/
structure Sought {α β : Type} (place : α → β) (checked : Checked (Option β × InlineByteRun))
    (run : InlineRun) (found : Option α × InlineRun) (holds : α → Prop) : Prop where
  agrees : checked = .ok (found.1.map place, ofRun found.2)
  follows : Follows run found.2
  bounds : ∀ there, found.1 = some there → holds there

section

variable {run : InlineRun} {level : Nat} {checked : Step} {step : InlineRun.Step}
  {checkedParse : InlineByteRun → Checked InlineByteRun} {parse : InlineRun → InlineRun}

theorem Follows.trans {first second third : InlineRun} (earlier : Follows first second)
    (later : Follows second third) : Follows first third :=
  ⟨later.source.trans earlier.source, later.posMax.trans earlier.posMax,
    later.level.trans earlier.level, later.ready⟩

namespace Sought

variable {α β : Type} {place : α → β} {holds : α → Prop}

theorem nothing (ready : run.Ready) :
    Sought place (.ok (none, ofRun run)) run (none, run) holds where
  agrees := rfl
  follows := ⟨rfl, rfl, rfl, ready⟩
  bounds _ found := by cases found

theorem found {there : α} {later : InlineRun} (follows : Follows run later)
    (isThere : holds there) :
    Sought place (.ok (some (place there), ofRun later)) run (some there, later) holds where
  agrees := rfl
  follows := follows
  bounds other same := by cases same; exact isThere

/-- What is found from a later run on is found from the run before it. -/
theorem behind {result : Checked (Option β × InlineByteRun)} {later : InlineRun}
    {found : Option α × InlineRun} {holdsLater : α → Prop}
    (goesOn : Sought place result later found holdsLater) (follows : Follows run later)
    (weaken : ∀ there, holdsLater there → holds there) : Sought place result run found holds where
  agrees := goesOn.agrees
  follows := follows.trans goesOn.follows
  bounds there isFound := weaken there (goesOn.bounds there isFound)

end Sought

/-- Each step of a search leaves less of the window. -/
theorem SkipsAlike.shorter (alike : SkipsAlike level checked step) (ready : run.Ready)
    (same : run.level = level) (inWindow : run.pos < run.posMax) :
    (step run).2.posMax - (step run).2.pos < run.posMax - run.pos ∧
      offset (step run).2.source (step run).2.posMax - offset (step run).2.source (step run).2.pos <
        offset run.source run.posMax - offset run.source run.pos := by
  obtain ⟨sameSource, sameMax, -, ready'⟩ := alike.follows run ready same inWindow
  have further := alike.further run ready same inWindow
  have inside := ready'.ordered
  rw [sameMax] at inside
  rw [sameSource, sameMax]
  have before := (@offset_lt run.source _ _).mpr further
  have behind := (@offset_le run.source _ _).mpr inside
  exact ⟨by omega, by omega⟩

/-! ## Emphasis -/

theorem pos_le_bytes (ready : run.Ready) :
    offset run.source run.pos ≤ run.source.bytes.length := by
  have inText := (@offset_le run.source _ _).mpr (Nat.le_trans ready.ordered ready.inText)
  rwa [offset_length] at inText

theorem markersAt_eq (ready : run.Ready) {marker : Char} (isAscii : marker.toNat < 128) :
    (ofRun run).markersAt marker = .ok (runLength marker run.cursor.rest) := by
  have bytes := (ahead_ofRun ready).bytesIn (pos_le_bytes ready)
  unfold markersAt
  rw [show bytesIn (ofRun run).source.bytes (ofRun run).pos (ofRun run).posMax = _ from bytes,
    ok_bind, runLength_bytes isAscii]
  rfl

theorem before_eq (ready : run.Ready) :
    slice run.source 0 (offset run.source run.pos) = .ok (run.source.take run.pos) := by
  have sliced := slice_offset (Nat.zero_le run.pos) (Nat.le_trans ready.ordered ready.inText)
  rwa [offset_zero, List.drop_zero] at sliced

theorem behind_eq (ready : run.Ready) {count : Nat} (inWindow : count ≤ run.cursor.rest.length) :
    slice run.source (offset run.source (run.pos + count)) (offset run.source run.posMax) =
      .ok (run.cursor.rest.drop count) := by
  have fits : run.pos + count ≤ run.posMax := by
    have ordered := ready.ordered
    rw [InlineRun.cursor_rest_length ready] at inWindow
    omega
  have sliced := ahead_eq (ready.advance fits)
  unfold ahead at sliced
  rw [InlineRun.cursor_advance fits] at sliced
  exact sliced

/-- Some of the markers at the position. -/
theorem take_markers {marker : Char} {s : Text} {count : Nat} (inRun : count ≤ runLength marker s) :
    s.take count = List.replicate count marker := by
  conv => lhs; rw [← replicate_append_drop marker s]
  rw [List.take_append_of_le_length (by rwa [List.length_replicate]), List.take_replicate,
    Nat.min_eq_left inRun]

/-- Markers take a byte each. -/
theorem offset_markers (ready : run.Ready) {marker : Char} (isAscii : marker.toNat < 128)
    {count : Nat} (inRun : count ≤ runLength marker run.cursor.rest) :
    offset run.source run.pos + count = offset run.source (run.pos + count) := by
  rw [offset_ahead ready (Nat.le_trans inRun (runLength_le marker _)), take_markers inRun, size,
    bytes_replicate isAscii, List.length_replicate]

theorem canOpen_eq (ready : run.Ready) {marker : Char} (isAscii : marker.toNat < 128) :
    (ofRun run).canOpen (runLength marker run.cursor.rest) marker =
      .ok (ComponentMarkdown.canOpen run.cursor (runLength marker run.cursor.rest) marker) := by
  have inWindow := runLength_le marker run.cursor.rest
  have moves := offset_markers ready isAscii (Nat.le_refl _)
  unfold canOpen ComponentMarkdown.canOpen
  rw [show (ofRun run).pos + _ = _ from moves,
    show slice (ofRun run).source _ (ofRun run).posMax = _ from behind_eq ready inWindow, ok_bind]
  cases (run.cursor.rest.drop (runLength marker run.cursor.rest)).head?.any fun c => !isBlank c with
  | false => rfl
  | true =>
    cases marker == '_' with
    | false => rfl
    | true =>
      rw [show slice (ofRun run).source 0 (ofRun run).pos = _ from before_eq ready]
      rfl

theorem canClose_eq (ready : run.Ready) {marker : Char} (isAscii : marker.toNat < 128) :
    (ofRun run).canClose (runLength marker run.cursor.rest) marker =
      .ok (closesEmphasis run.cursor (runLength marker run.cursor.rest) marker) := by
  have inWindow := runLength_le marker run.cursor.rest
  have moves := offset_markers ready isAscii (Nat.le_refl _)
  have before : run.cursor.before = (run.source.take run.pos).getLast? := rfl
  unfold canClose closesEmphasis
  rw [show slice (ofRun run).source 0 (ofRun run).pos = _ from before_eq ready, ok_bind, before]
  cases (run.source.take run.pos).getLast? with
  | none => rfl
  | some b =>
    show (if isBlank b = true then _ else _) = _
    cases blank : isBlank b with
    | true =>
      simp only [Option.any_some, blank]
      rfl
    | false =>
      simp only [Option.any_some, blank]
      cases marker == '_' with
      | false => rfl
      | true =>
        rw [if_neg Bool.false_ne_true, if_pos rfl, show (ofRun run).pos + _ = _ from moves,
          show slice (ofRun run).source _ (ofRun run).posMax = _ from behind_eq ready inWindow]
        rfl

theorem closes_eq (ready : run.Ready) (inWindow : run.pos < run.posMax) {marker : Char}
    (isAscii : marker.toNat < 128) (count bodyStart : Nat) :
    (ofRun run).closes marker count (offset run.source bodyStart) =
      .ok (decide (run.pos > bodyStart) && decide (0 < runLength marker run.cursor.rest) &&
        decide (count ≤ runLength marker run.cursor.rest) &&
        closesEmphasis run.cursor (runLength marker run.cursor.rest) marker) := by
  have here := ahead_ofRun ready
  have marks := markersAt_eq ready isAscii
  have closing := canClose_eq ready isAscii
  obtain ⟨c, others, begins⟩ := List.exists_cons_of_ne_nil
    (InlineRun.cursor_rest_ne_nil ready inWindow)
  have isBehind : decide (offset run.source bodyStart < (ofRun run).pos) =
      decide (run.pos > bodyStart) := decide_eq_decide.mpr offset_lt
  rw [begins, bytes_cons_eq] at here
  unfold closes
  rw [show byteAt (ofRun run).source.bytes (ofRun run).pos = _ from here.byteAt, ok_bind,
    lead_beq isAscii, isBehind, marks]
  cases isMarker : c == marker with
  | false =>
    rw [begins, runLength_of_ne (Bool.eq_false_iff.mp isMarker), Bool.false_and,
      if_neg Bool.false_ne_true, decide_eq_false (Nat.lt_irrefl 0), Bool.and_false, Bool.false_and,
      Bool.false_and]
    rfl
  | true =>
    have positive : 0 < runLength marker run.cursor.rest := by
      rw [begins, beq_iff_eq.mp isMarker]
      exact runLength_pos marker others
    rw [decide_eq_true positive, Bool.true_and, Bool.and_true]
    cases decide (run.pos > bodyStart) with
    | false => rfl
    | true =>
      rw [if_pos rfl, ok_bind, Bool.true_and]
      by_cases enough : count ≤ runLength marker run.cursor.rest
      · rw [if_pos enough, decide_eq_true enough, Bool.true_and]
        exact closing
      · rw [if_neg enough, decide_eq_false enough, Bool.false_and]
        rfl

/-- What closes emphasis is a run of enough markers in the window, behind where the body begins. -/
theorem seekCloser_sought (alike : SkipsAlike level checked step) {marker : Char}
    (isAscii : marker.toNat < 128) {source : Text} {count bodyStart fuel charFuel : Nat}
    (ready : run.Ready) (same : run.level = level) (isSource : run.source = source)
    (enough : offset run.source run.posMax - offset run.source run.pos < fuel)
    (enoughChars : run.posMax - run.pos < charFuel) :
    Sought (offset source)
      (seekCloser checked marker count (offset source bodyStart) fuel (ofRun run)) run
      (InlineRun.seekCloser step marker count bodyStart charFuel run) fun closer =>
        bodyStart < closer ∧ closer ≤ run.posMax ∧
          offset source closer + count = offset source (closer + count) := by
  induction fuel generalizing run charFuel with
  | zero => exact absurd enough (Nat.not_lt_zero _)
  | succ fuel ih =>
    obtain ⟨charFuel, rfl⟩ := Nat.exists_eq_succ_of_ne_zero (Nat.ne_zero_of_lt enoughChars)
    subst isSource
    rw [seekCloser, InlineRun.seekCloser]
    by_cases inWindow : run.pos < run.posMax
    · have shorter := alike.shorter ready same inWindow
      have follows := alike.follows run ready same inWindow
      rw [if_pos (show (ofRun run).pos < (ofRun run).posMax from offset_lt.mpr inWindow),
        closes_eq ready inWindow isAscii, ok_bind, if_neg (Nat.not_le_of_lt inWindow)]
      dsimp only
      split
      · next closes =>
        simp only [Bool.and_eq_true, decide_eq_true_eq] at closes
        exact .found ⟨rfl, rfl, rfl, ready⟩ ⟨closes.1.1.1, ready.ordered,
          offset_markers ready isAscii closes.1.2⟩
      · rw [alike.agrees run ready same inWindow, ok_bind]
        refine (ih follows.ready (follows.level.trans same) follows.source
          (Nat.lt_of_lt_of_le shorter.2 (Nat.le_of_lt_succ enough))
          (Nat.lt_of_lt_of_le shorter.1 (Nat.le_of_lt_succ enoughChars))).behind follows ?_
        rw [follows.posMax]
        exact fun _ bounds => bounds
    · rw [if_neg (show ¬ (ofRun run).pos < (ofRun run).posMax from fun less =>
        inWindow (offset_lt.mp less)), if_pos (Nat.not_lt.mp inWindow)]
      exact .nothing ready

/-! ## Bodies -/

/-- Tokens around a body. -/
theorem wrap_ofRun (alike : ParsesAlike run.source (level + 1) checkedParse parse)
    {opening closing : Token} (opens : opening.nesting = .opening) (ready : run.Ready)
    (same : run.level = level) {start stop : Nat} (ordered : start ≤ stop)
    (inWindow : stop ≤ run.posMax) :
    (ofRun run).wrap checkedParse opening closing (offset run.source start)
        (offset run.source stop) = .ok (ofRun (run.wrap parse opening closing start stop)) ∧
      (run.wrap parse opening closing start stop).source = run.source := by
  have sameSource := source_add run opening
  have inner : InlineRun.Ready { run.add opening with pos := start, posMax := stop } := by
    rw [InlineRun.add_opening run opens]
    exact ⟨ordered, Nat.le_trans inWindow ready.inText, ready.forward⟩
  have deeper : ({ run.add opening with pos := start, posMax := stop } : InlineRun).level =
      level + 1 := by
    rw [InlineRun.add_opening run opens, ← same]
  have begun : { ofRun (run.add opening) with
      pos := offset run.source start, posMax := offset run.source stop } =
        ofRun { run.add opening with pos := start, posMax := stop } := by
    rw [← sameSource]
    rfl
  have parsed := alike.keeps _ inner deeper sameSource
  constructor
  · unfold wrap
    rw [add_ofRun, begun, alike.agrees _ inner deeper sameSource, ok_bind, posMax_ofRun, ← parsed]
    exact congrArg Except.ok (add_ofRun
      { parse { run.add opening with pos := start, posMax := stop } with posMax := run.posMax }
      closing)
  · unfold InlineRun.wrap
    exact (source_add _ closing).trans parsed

/-- What was found is added as it is by characters, or not at all. -/
theorem finish_eq {silent : Bool} {write : InlineByteRun → Checked InlineByteRun}
    {written : InlineRun → InlineRun}
    (writes : silent = false → write (ofRun run) = .ok (ofRun (written run)) ∧
      (written run).source = run.source) (pos : Nat) :
    finish silent write (offset run.source pos) (ofRun run) =
      .ok (ofStep (true, { (if silent then run else written run) with pos })) := by
  cases silent with
  | true => rfl
  | false =>
    obtain ⟨isWritten, sameSource⟩ := writes rfl
    unfold finish
    rw [if_neg Bool.false_ne_true, isWritten, ok_bind, ← sameSource]
    rfl

theorem wrapEmphasis_eq (alike : ParsesAlike run.source (level + 1) checkedParse parse)
    {marker : Char} {count stop : Nat} (ready : run.Ready) (same : run.level = level)
    (inRun : count ≤ runLength marker run.cursor.rest) (ordered : run.pos + count ≤ stop)
    (inWindow : stop ≤ run.posMax) :
    wrapEmphasis checkedParse count (offset run.source (run.pos + count)) (offset run.source stop)
        (ofRun run) =
      .ok (ofRun (InlineRun.wrapEmphasis parse marker count (run.pos + count) stop run)) ∧
      (InlineRun.wrapEmphasis parse marker count (run.pos + count) stop run).source =
        run.source := by
  have markup := slice_ahead ready (Nat.le_trans inRun (runLength_le marker _))
  rw [take_markers inRun] at markup
  unfold wrapEmphasis InlineRun.wrapEmphasis
  rw [show slice (ofRun run).source (ofRun run).pos _ = _ from markup, ok_bind]
  exact wrap_ofRun alike rfl ready same ordered inWindow

theorem fits_markers (ready : run.Ready) {marker : Char} {count : Nat}
    (inRun : count ≤ runLength marker run.cursor.rest) : run.pos + count ≤ run.posMax := by
  have ordered := ready.ordered
  have inWindow := Nat.le_trans inRun (runLength_le marker run.cursor.rest)
  rw [InlineRun.cursor_rest_length ready] at inWindow
  omega

theorem Follows.back {after : InlineRun} (follows : Follows run after) (ready : run.Ready) :
    Follows run { after with pos := run.pos } := by
  refine ⟨follows.source, follows.posMax, follows.level, ?_, follows.ready.inText,
    follows.ready.forward⟩
  show run.pos ≤ after.posMax
  rw [follows.posMax]
  exact ready.ordered

theorem cursor_back {after : InlineRun} (follows : Follows run after) :
    ({ after with pos := run.pos } : InlineRun).cursor = run.cursor := by
  unfold InlineRun.cursor
  rw [show ({ after with pos := run.pos } : InlineRun).source = run.source from follows.source,
    show ({ after with pos := run.pos } : InlineRun).posMax = run.posMax from follows.posMax]

/-- What emphasis comes to by characters, once its end was looked for. -/
def foundEmphasis (parse : InlineRun → InlineRun) (silent : Bool) (marker : Char)
    (count start : Nat) (found : Option Nat × InlineRun) : Bool × InlineRun :=
  let run := { found.2 with pos := start }
  match found.1 with
  | none => (false, run)
  | some closer =>
    (true, { (if silent then run
      else InlineRun.wrapEmphasis parse marker count (start + count) closer run) with
      pos := closer + count })

theorem endEmphasis_eq {silent : Bool}
    (parses : silent = false → ParsesAlike run.source (level + 1) checkedParse parse)
    (ready : run.Ready) (same : run.level = level) {marker : Char} (isAscii : marker.toNat < 128)
    {count : Nat} (inRun : count ≤ runLength marker run.cursor.rest)
    {found : Option Nat × InlineRun} (follows : Follows run found.2)
    (bounds : ∀ closer, found.1 = some closer → run.pos + count < closer ∧ closer ≤ run.posMax ∧
      offset run.source closer + count = offset run.source (closer + count)) :
    endEmphasis checkedParse silent count (offset run.source run.pos)
        (found.1.map (offset run.source), ofRun found.2) =
      .ok (ofStep (foundEmphasis parse silent marker count run.pos found)) := by
  have back := follows.back ready
  have sameCursor := cursor_back follows
  obtain ⟨closer, source, pos, posMax, pending, deep, tokens, memo⟩ := found
  obtain ⟨rfl, rfl, sameLevel, atEnd⟩ := follows
  cases closer with
  | none => rfl
  | some closer =>
    obtain ⟨behind, inWindow, moves⟩ := bounds closer rfl
    have written := fun loud => @wrapEmphasis_eq
      ⟨run.source, run.pos, run.posMax, pending, deep, tokens, memo⟩ level _ _ (parses loud) marker
      count closer back.ready (back.level.trans same) (by rwa [sameCursor]) (Nat.le_of_lt behind)
      inWindow
    have finished := finish_eq written (closer + count)
    unfold endEmphasis
    dsimp only [Option.map_some]
    rw [moves, offset_markers ready isAscii inRun]
    exact finished

/-- Emphasis that may open is looked for up to its end. -/
theorem emphasis_of_begins {silent : Bool} {marker : Char} {others : Text}
    (begins : run.cursor.rest = marker :: others) :
    InlineRun.emphasis step parse silent run =
      let length := runLength marker run.cursor.rest
      let count := min length 2
      if !(marker == '*' || marker == '_') ||
          !ComponentMarkdown.canOpen run.cursor length marker then
        (false, run)
      else
        foundEmphasis parse silent marker count run.pos (InlineRun.seekCloser step marker count
          (run.pos + count) (run.posMax - (run.pos + count) + 1)
          { run with pos := run.pos + count }) := by
  unfold InlineRun.emphasis
  rw [begins]
  rfl

theorem emphasis_eq (alike : SkipsAlike level checked step) {silent : Bool}
    (parses : silent = false → ParsesAlike run.source (level + 1) checkedParse parse)
    (ready : run.Ready) (same : run.level = level) :
    emphasis checked checkedParse silent (ofRun run) =
      .ok (ofStep (InlineRun.emphasis step parse silent run)) := by
  unfold emphasis
  rw [peek_eq ready, ok_bind]
  cases begins : run.cursor.rest with
  | nil =>
    unfold InlineRun.emphasis
    rw [begins]
    rfl
  | cons marker others =>
    rw [emphasis_of_begins begins]
    show (if (!(lead marker == '*' || lead marker == '_')) = true then _ else _) = _
    dsimp only
    rw [lead_beq (by decide), lead_beq (by decide)]
    by_cases isMarker : (marker == '*' || marker == '_') = true
    · have isAscii : marker.toNat < 128 := by
        rcases Bool.or_eq_true_iff.mp isMarker with same | same <;>
          rw [beq_iff_eq.mp same] <;> decide
      have inRun := Nat.min_le_left (runLength marker run.cursor.rest) 2
      have opening := canOpen_eq ready isAscii
      rw [isMarker, lead_of_ascii isAscii, if_neg (by decide), markersAt_eq ready isAscii, ok_bind,
        opening, ok_bind, Bool.not_true, Bool.false_or]
      cases ComponentMarkdown.canOpen run.cursor (runLength marker run.cursor.rest) marker with
      | false => rfl
      | true =>
        generalize min (runLength marker run.cursor.rest) 2 = count at *
        let moved := { run with pos := run.pos + count }
        have inside : moved.Ready := ready.advance (fits_markers ready inRun)
        obtain ⟨agrees, follows, bounds⟩ := @seekCloser_sought moved level _ _ alike marker isAscii
          run.source count (run.pos + count) _ _ inside same rfl (Nat.lt_succ_self _)
          (Nat.lt_succ_self _)
        rw [if_neg (by decide), if_neg (by decide),
          show (ofRun run).pos + count = _ from offset_markers ready isAscii inRun]
        refine (congrArg (· >>= _) agrees).trans ?_
        exact endEmphasis_eq parses ready same isAscii inRun
          ⟨follows.source, follows.posMax, follows.level, follows.ready⟩ bounds
    · rw [Bool.not_eq_true] at isMarker
      rw [isMarker]
      rfl

end

end InlineByteRun

end ComponentMarkdown
