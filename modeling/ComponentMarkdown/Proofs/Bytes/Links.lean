import ComponentMarkdown.Proofs.Bytes.Searches
import ComponentMarkdown.Proofs.Bytes.Targets

/-!
# Links and images by bytes

A label is looked through up to the bracket that closes it, and a target has to follow. The file
has:

* links and images, with every access checked;
* the end of a label, which is a bracket in the window;
* `link_eq` and `image_eq`: with bytes for characters, the rules do what they do on characters.
-/

namespace ComponentMarkdown

open Text Checked

namespace InlineByteRun

/-! ## Links and images -/

/-- The byte of the bracket that closes a label of which `depth` brackets are open. -/
def seekLabelEnd (skip : Step) : Nat → Nat → InlineByteRun → Checked (Option Nat × InlineByteRun)
  | 0, _, _ => throw .depth
  | fuel + 1, depth, run => do
    if run.pos < run.posMax then
      let mark ← byteAt run.source.bytes run.pos
      let depth ← (if mark == ']' then minus depth 1 else pure depth)
      if mark == ']' && depth == 0 then return (some run.pos, run)
      else
        let start := run.pos
        let skipped ← skip run
        let opened := mark == '[' && !skipped.1 && skipped.2.pos == start + 1
        seekLabelEnd skip fuel (if opened then depth + 1 else depth) skipped.2
    else return (none, run)

/-- A link around a label. -/
def wrapLink (parse : InlineByteRun → Checked InlineByteRun) (target : Target) (start stop : Nat)
    (run : InlineByteRun) : Checked InlineByteRun :=
  run.wrap parse
    { kind := .linkOpen, tag := ['a'], nesting := .opening,
      attrs := target.attrs "href" ++ target.titleAttributes }
    { kind := .linkClose, tag := ['a'], nesting := .closing }
    start stop

/-- An image, the label of which is a text of its own. -/
def addImage (parseLabel : Text → Checked (List Token)) (target : Target) (start stop : Nat)
    (run : InlineByteRun) : Checked InlineByteRun := do
  let label ← slice run.source start stop
  let children ← parseLabel label
  return run.add
    { kind := .image, tag := "img".toList, nesting := .selfClosing,
      attrs := target.attrs "src" ++ ("alt".toList, .text []) :: target.titleAttributes,
      children, content := label }

/-- What a label comes to, once its end was looked for: a target has to follow it. -/
def endLabel (write : Target → Nat → Nat → InlineByteRun → Checked InlineByteRun) (silent : Bool)
    (start inner : Nat) (found : Option Nat × InlineByteRun) : Checked (Bool × InlineByteRun) := do
  let run := { found.2 with pos := start }
  match found.1 with
  | none => return (false, run)
  | some labelEnd =>
    match ← target run.source run.posMax (labelEnd + 1) with
    | none => return (false, run)
    | some (target, behind) => finish silent (write target inner labelEnd) behind run

/-- A label whose opening bracket is the last of the first `opening` bytes, and its target. `write`
gets the target and the place of the label. -/
def labelled (skip : Step) (opening : Nat)
    (write : Target → Nat → Nat → InlineByteRun → Checked InlineByteRun) (silent : Bool) : Step :=
  fun run => do
    let inner := run.pos + opening
    let found ← seekLabelEnd skip (run.posMax - inner + 1) 1 { run with pos := inner }
    endLabel write silent run.pos inner found

def link (skip : Step) (parse : InlineByteRun → Checked InlineByteRun) (silent : Bool) : Step :=
  onMark '[' (labelled skip 1 (wrapLink parse) silent)

def image (skip : Step) (parseLabel : Text → Checked (List Token)) (silent : Bool) : Step :=
  fun run => do
    if Text.startsWith ['!', '['] (← run.ahead) then
      labelled skip 2 (addImage parseLabel) silent run
    else return (false, run)

section

variable {run : InlineRun} {level : Nat} {checked : Step} {step : InlineRun.Step}
  {checkedParse : InlineByteRun → Checked InlineByteRun} {parse : InlineRun → InlineRun}

/-! ## The end of a label -/

/-- Behind a mark of ASCII, the next byte is that of the next character. -/
theorem offset_mark (ready : run.Ready) {mark : Char} {others : Text}
    (begins : run.cursor.rest = mark :: others) (isAscii : mark.toNat < 128) :
    offset run.source run.pos + 1 = offset run.source (run.pos + 1) :=
  @offset_ascii _ ready [mark] others begins (List.forall_mem_singleton.mpr isAscii)

/-- A bracket that is skipped alone opens a label, by bytes as well. -/
theorem opens_eq (ready : run.Ready) (follows : Follows run (step run).2) {mark : Char}
    {others : Text} (begins : run.cursor.rest = mark :: others) :
    (mark == '[' && !(ofStep (step run)).1 && (ofStep (step run)).2.pos == (ofRun run).pos + 1) =
      (mark == '[' && !(step run).1 && (step run).2.pos == run.pos + 1) := by
  cases opens : mark == '[' with
  | false => rfl
  | true =>
    congr 1
    rw [Bool.eq_iff_iff, beq_iff_eq, beq_iff_eq,
      ← @offset_inj run.source (step run).2.pos (run.pos + 1),
      ← offset_mark ready begins (beq_iff_eq.mp opens ▸ by decide)]
    show offset (step run).2.source (step run).2.pos = offset run.source run.pos + 1 ↔ _
    rw [follows.source]

/-- What closes a label is a bracket in the window. -/
theorem seekLabelEnd_sought (alike : SkipsAlike level checked step)
    {source : Text} {fuel charFuel depth : Nat} (isOpen : 0 < depth) (ready : run.Ready)
    (same : run.level = level) (isSource : run.source = source)
    (enough : offset run.source run.posMax - offset run.source run.pos < fuel)
    (enoughChars : run.posMax - run.pos < charFuel) :
    Sought (offset source) (seekLabelEnd checked fuel depth (ofRun run)) run
      (InlineRun.seekLabelEnd step charFuel depth run) fun labelEnd =>
        run.pos ≤ labelEnd ∧ labelEnd < run.posMax ∧
          offset source labelEnd + 1 = offset source (labelEnd + 1) := by
  induction fuel generalizing run charFuel depth with
  | zero => exact absurd enough (Nat.not_lt_zero _)
  | succ fuel ih =>
    obtain ⟨charFuel, rfl⟩ := Nat.exists_eq_succ_of_ne_zero (Nat.ne_zero_of_lt enoughChars)
    subst isSource
    rw [seekLabelEnd, InlineRun.seekLabelEnd]
    have here := ahead_ofRun ready
    cases begins : run.cursor.rest with
    | nil =>
      rw [begins] at here
      rw [if_neg (show ¬ (ofRun run).pos < (ofRun run).posMax from
        Nat.not_lt.mpr (Nat.le_of_eq here.nil))]
      exact .nothing ready
    | cons mark others =>
      rw [begins, bytes_cons_eq] at here
      have inWindow : run.pos < run.posMax := offset_lt.mp here.lt
      have shorter := alike.shorter ready same inWindow
      have follows := alike.follows run ready same inWindow
      have next := offset_mark ready begins
      rw [if_pos (show (ofRun run).pos < (ofRun run).posMax from here.lt),
        show byteAt (ofRun run).source.bytes (ofRun run).pos = _ from here.byteAt, ok_bind,
        lead_beq (by decide), lead_beq (by decide), alike.agrees run ready same inWindow]
      have further : ∀ deeper : Nat, 0 < deeper →
          Sought (offset run.source) (seekLabelEnd checked fuel deeper (ofStep (step run)).2) run
            (InlineRun.seekLabelEnd step charFuel deeper (step run).2) fun labelEnd =>
              run.pos ≤ labelEnd ∧ labelEnd < run.posMax ∧
                offset run.source labelEnd + 1 = offset run.source (labelEnd + 1) := by
        intro deeper isOpen
        refine (ih isOpen follows.ready (follows.level.trans same) follows.source
          (Nat.lt_of_lt_of_le shorter.2 (Nat.le_of_lt_succ enough))
          (Nat.lt_of_lt_of_le shorter.1 (Nat.le_of_lt_succ enoughChars))).behind follows ?_
        rintro labelEnd ⟨behind, inside⟩
        rw [follows.posMax] at inside
        exact ⟨Nat.le_trans (Nat.le_of_lt (alike.further run ready same inWindow)) behind, inside⟩
      dsimp only
      cases closes : mark == ']' with
      | true =>
        rw [if_pos rfl, if_pos rfl, minus_of_le isOpen, ok_bind, Bool.true_and]
        cases lower : depth - 1 == 0 with
        | true =>
          exact .found ⟨rfl, rfl, rfl, ready⟩
            ⟨Nat.le_refl _, inWindow, next (beq_iff_eq.mp closes ▸ by decide)⟩
        | false =>
          have notZero : 0 < depth - 1 := Nat.pos_of_ne_zero (beq_eq_false_iff_ne.mp lower)
          have notOpening : (mark == '[') = false := by
            rw [beq_iff_eq.mp closes]
            rfl
          rw [if_neg Bool.false_ne_true, if_neg Bool.false_ne_true, ok_bind, notOpening]
          exact further (depth - 1) notZero
      | false =>
        rw [if_neg Bool.false_ne_true, if_neg Bool.false_ne_true, pure_bind,
          if_neg (show ¬ (false && depth == 0) = true from Bool.false_ne_true),
          if_neg (show ¬ (depth == 0) = true from by rw [beq_iff_eq]; exact Nat.ne_of_gt isOpen),
          ok_bind, opens_eq ready follows begins]
        refine further _ ?_
        split
        · exact Nat.succ_pos depth
        · exact isOpen

/-! ## What follows a label -/

/-- What follows a bracket in the window. -/
theorem target_ofRun (ready : run.Ready) {labelEnd : Nat} (behind : run.pos ≤ labelEnd)
    (inWindow : labelEnd < run.posMax)
    (moves : offset run.source labelEnd + 1 = offset run.source (labelEnd + 1)) :
    target run.source (offset run.source run.posMax) (offset run.source labelEnd + 1) =
      .ok ((Target.read? (run.cursor.rest.drop (labelEnd + 1 - run.pos))).map fun found =>
        (found.1, offset run.source (run.pos + (run.cursor.rest.length - found.2.length)))) := by
  have there : run.pos + (labelEnd + 1 - run.pos) = labelEnd + 1 :=
    Nat.add_sub_cancel' (Nat.le_succ_of_le behind)
  have fits : run.pos + (labelEnd + 1 - run.pos) ≤ run.posMax := by rwa [there]
  have stands := stands_ofRun (ready.advance fits)
  rw [InlineRun.cursor_advance fits] at stands
  dsimp only [Cursor.advance] at stands
  rw [there] at stands
  rw [moves, target_eq stands]
  cases read : Target.read? (run.cursor.rest.drop (labelEnd + 1 - run.pos)) with
  | none => rfl
  | some found =>
    have isSuffix := (Target.read_behind read).suffix.trans (List.drop_suffix _ _)
    rw [Option.map_some, Option.map_some, offset_behind ready isSuffix]

/-- With bytes for characters, what is written for a label is what is written on characters. -/
def WritesAlike (source : Text) (level : Nat)
    (checked : Target → Nat → Nat → InlineByteRun → Checked InlineByteRun)
    (write : Target → Nat → Nat → InlineRun → InlineRun) : Prop :=
  ∀ run : InlineRun, run.Ready → run.level = level → run.source = source →
    ∀ (found : Target) (start stop : Nat), start ≤ stop → stop < run.posMax →
      checked found (offset source start) (offset source stop) (ofRun run) =
          .ok (ofRun (write found start stop run)) ∧
        (write found start stop run).source = source

/-- What a label comes to by characters, once its end was looked for. -/
def foundLabel (write : Target → Nat → Nat → InlineRun → InlineRun) (silent : Bool)
    (start opening : Nat) (rest : Text) (found : Option Nat × InlineRun) : Bool × InlineRun :=
  let run := { found.2 with pos := start }
  match found.1 with
  | none => (false, run)
  | some labelEnd =>
    match Target.read? (rest.drop (labelEnd + 1 - start)) with
    | none => (false, run)
    | some (target, behind) =>
      let run := if silent then run else write target (start + opening) labelEnd run
      (true, { run with pos := start + (rest.length - behind.length) })

variable {checkedWrite : Target → Nat → Nat → InlineByteRun → Checked InlineByteRun}
  {write : Target → Nat → Nat → InlineRun → InlineRun}

theorem endLabel_eq {silent : Bool}
    (writes : silent = false → WritesAlike run.source level checkedWrite write)
    (ready : run.Ready) (same : run.level = level) {opening : Nat}
    {found : Option Nat × InlineRun} (follows : Follows run found.2)
    (bounds : ∀ labelEnd, found.1 = some labelEnd →
      run.pos + opening ≤ labelEnd ∧ labelEnd < run.posMax ∧
        offset run.source labelEnd + 1 = offset run.source (labelEnd + 1)) :
    endLabel checkedWrite silent (offset run.source run.pos)
        (offset run.source (run.pos + opening)) (found.1.map (offset run.source), ofRun found.2) =
      .ok (ofStep (foundLabel write silent run.pos opening run.cursor.rest found)) := by
  have back := follows.back ready
  obtain ⟨labelEnd, source, pos, posMax, pending, deep, tokens, memo⟩ := found
  obtain ⟨rfl, rfl, sameLevel, atEnd⟩ := follows
  cases labelEnd with
  | none => rfl
  | some labelEnd =>
    obtain ⟨behind, inWindow, moves⟩ := bounds labelEnd rfl
    have aimed := target_ofRun ready (Nat.le_trans (Nat.le_add_right _ _) behind) inWindow moves
    refine (congrArg (· >>= _) aimed).trans ?_
    unfold foundLabel
    dsimp only
    cases Target.read? (run.cursor.rest.drop (labelEnd + 1 - run.pos)) with
    | none => rfl
    | some read =>
      exact finish_eq (fun loud => writes loud _ back.ready (back.level.trans same) rfl read.1
        (run.pos + opening) labelEnd behind inWindow) _

theorem labelled_eq (alike : SkipsAlike level checked step) {silent : Bool}
    (writes : silent = false → WritesAlike run.source level checkedWrite write)
    (ready : run.Ready) (same : run.level = level) {front others : Text}
    (begins : run.cursor.rest = front ++ others) (isAscii : ∀ c ∈ front, c.toNat < 128) :
    labelled checked front.length checkedWrite silent (ofRun run) =
      .ok (ofStep (InlineRun.labelled step front.length write silent run)) := by
  have room := InlineRun.cursor_rest_length ready
  rw [begins, List.length_append] at room
  have fits : run.pos + front.length ≤ run.posMax := by
    have ordered := ready.ordered
    omega
  let moved := { run with pos := run.pos + front.length }
  have inside : moved.Ready := ready.advance fits
  obtain ⟨agrees, follows, bounds⟩ := @seekLabelEnd_sought moved level _ _ alike run.source _ _ 1
    Nat.one_pos inside same rfl (Nat.lt_succ_self _) (Nat.lt_succ_self _)
  unfold labelled
  rw [show (ofRun run).pos + front.length = _ from offset_ascii ready begins isAscii]
  refine (congrArg (· >>= _) agrees).trans ?_
  exact endLabel_eq writes ready same
    ⟨follows.source, follows.posMax, follows.level, follows.ready⟩ bounds

theorem link_eq (alike : SkipsAlike level checked step) {silent : Bool}
    (parses : silent = false → ParsesAlike run.source (level + 1) checkedParse parse)
    (ready : run.Ready) (same : run.level = level) :
    link checked checkedParse silent (ofRun run) =
      .ok (ofStep (InlineRun.link step parse silent run)) := by
  have writes : silent = false →
      WritesAlike run.source level (wrapLink checkedParse) (InlineRun.wrapLink parse) := by
    intro loud later ready same isSource found start stop ordered inWindow
    rw [← isSource] at parses ⊢
    exact wrap_ofRun (parses loud) rfl ready same ordered (Nat.le_of_lt inWindow)
  refine onMark_eq ready (by decide) (fun others begins => ?_) fun elsewhere => ?_
  · unfold InlineRun.link
    rw [begins]
    have opens : run.cursor.rest = ['['] ++ others := begins
    exact labelled_eq alike writes ready same opens (List.forall_mem_singleton.mpr (by decide))
  · unfold InlineRun.link
    split
    · next begins => exact absurd (congrArg List.head? begins) elsewhere
    · rfl

theorem image_eq (alike : SkipsAlike level checked step) {silent : Bool}
    {checkedLabel : Text → Checked (List Token)} {parseLabel : Text → List Token}
    (labels : silent = false → ∀ label : Text, label.length < run.source.length →
      checkedLabel label = .ok (parseLabel label))
    (ready : run.Ready) (same : run.level = level) :
    image checked checkedLabel silent (ofRun run) =
      .ok (ofStep (InlineRun.image step parseLabel silent run)) := by
  have writes : silent = false →
      WritesAlike run.source level (addImage checkedLabel) (fun target start stop run =>
        InlineRun.addImage parseLabel target ((run.source.take stop).drop start) run) := by
    intro loud run ready same isSource found start stop ordered inWindow
    have shorter : ((run.source.take stop).drop start).length < run.source.length := by
      have inText := ready.inText
      rw [List.length_drop, List.length_take]
      omega
    rw [← isSource] at labels ⊢
    unfold addImage InlineRun.addImage
    rw [source_ofRun,
      slice_offset ordered (Nat.le_of_lt (Nat.lt_of_lt_of_le inWindow ready.inText)),
      ok_bind, labels loud _ shorter, ok_bind]
    exact ⟨congrArg Except.ok (add_ofRun run _), source_add run _⟩
  unfold image
  rw [ahead_eq ready, ok_bind]
  by_cases begins : Text.startsWith ['!', '['] run.cursor.rest = true
  · obtain ⟨others, parts⟩ := startsWith_iff.mp begins
    rw [if_pos begins, InlineRun.image, parts]
    exact labelled_eq alike writes ready same parts
      (List.forall_mem_cons.mpr ⟨by decide, List.forall_mem_singleton.mpr (by decide)⟩)
  · rw [if_neg begins, InlineRun.image]
    split
    · next others parts => exact absurd (parts ▸ rfl) begins
    · rfl

end

end InlineByteRun

end ComponentMarkdown
