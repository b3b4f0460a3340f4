import ComponentMarkdown.Proofs.Bytes.InlineState

/-!
# Plain text by bytes

The rules that look at nothing but the text ahead. The file has:

* these rules, with every access checked;
* one lemma for each: with bytes for characters, the rule does what it does on characters.
-/

namespace ComponentMarkdown

open Text Checked

namespace InlineByteRun

/-! ## Text and line ends -/

/-- Pending text with more text behind it. -/
def addText (run : InlineByteRun) (text : Text) : InlineByteRun :=
  { run with pending := run.pending ++ text }

/-- A run of plain characters. -/
def text (silent : Bool) : Step := fun run => do
  let behind ← skipWhile (fun c => !isSpecial c) run.source.bytes run.posMax run.pos
  if behind == run.pos then return (false, run)
  else if silent then return (true, { run with pos := behind })
  else
    let found ← slice run.source run.pos behind
    return (true, { run.addText found with pos := behind })

/-- Takes a step if the window begins with a mark. -/
def onMark (mark : Char) (step : Step) : Step := fun run => do
  if (← run.peek) == some mark then step run else return (false, run)

/-- The byte behind the spaces from a byte on. -/
def skipSpaces (run : InlineByteRun) (pos : Nat) : Checked Nat :=
  skipWhile (· == ' ') run.source.bytes run.posMax pos

/-- A line end. -/
def newline (silent : Bool) : Step := onMark '\n' fun run => do
  let behind ← run.skipSpaces (run.pos + 1)
  if silent then return (true, { run with pos := behind })
  else return (true, { ← run.breakLine with pos := behind })

/-- A backslash, with the punctuation or the line end that it escapes. -/
def escape (silent : Bool) : Step := onMark '\\' fun run => do
  let next := run.pos + 1
  let backslash := moved silent run (run.addText ['\\']) next
  if next < run.posMax then
    let c ← byteAt run.source.bytes next
    if isAsciiPunctuation c then return moved silent run (run.addText [c]) (next + 1)
    else if c == '\n' then
      let behind ← run.skipSpaces (next + 1)
      return moved silent run (run.push .hardbreak ['b', 'r'] .selfClosing) behind
    else return backslash
  else return backslash

/-! ## Code spans -/

/-- The next run of exactly `count` backticks from a byte on: where it begins and where it ends. -/
def seekTicks (source : Text) (max count : Nat) : Nat → Nat → Checked (Option (Nat × Nat))
  | 0, _ => throw .depth
  | fuel + 1, pos => do
    let rest ← slice source pos max
    if rest.all (· != '\x60') then return none
    else
      let first := pos + size (rest.takeWhile (· != '\x60'))
      let behind ← skipWhile (· == '\x60') source.bytes max first
      if (← minus behind first) == count then return some (first, behind)
      else seekTicks source max count fuel behind

/-- The text of a code span. -/
def spanContent (raw : Text) : Checked Text := do
  let content := raw.replaceChar '\n' ' '
  let padded := 2 < content.size && content.head? == some ' ' && content.getLast? == some ' '
  if padded && content.any (· != ' ') then slice content 1 (← minus content.size 1)
  else return content

/-- A code span, or a run of backticks that begins none. -/
def backticks (silent : Bool) : Step := onMark '\x60' fun run => do
  let inner ← skipWhile (· == '\x60') run.source.bytes run.posMax run.pos
  let ticks ← slice run.source run.pos inner
  let count ← minus inner run.pos
  match ← seekTicks run.source run.posMax count (run.posMax - inner + 1) inner with
  | none => return moved silent run (run.addText ticks) inner
  | some (first, behind) =>
    if silent then return (true, { run with pos := behind })
    else
      let content ← spanContent (← slice run.source inner first)
      let made := run.add
        { kind := .codeInline, tag := "code".toList, nesting := .selfClosing, markup := ticks,
          content }
      return (true, { made with pos := behind })

/-! ## Addresses and references -/

/-- An autolink. -/
def autolink (silent : Bool) : Step := onMark '<' fun run => do
  match autolink? (← run.ahead) with
  | some ⟨_, .leaf (.autolink address href)⟩ =>
    return moved silent run (run.addAutolink address href) (run.pos + size address + 2)
  | _ => return (false, run)

/-- A character reference, or an `&` that begins none. -/
def entity (silent : Bool) : Step := onMark '&' fun run => do
  let rest ← run.ahead
  match referenceValue? (rest.drop 1) with
  | some (value, length) =>
    return moved silent run (run.addText [value]) (run.pos + size (rest.take (length + 2)))
  | none => return moved silent run (run.addText ['&']) (run.pos + 1)

end InlineByteRun

/-! ## Characters of ASCII -/

theorem Text.asciiOnly_isSpecial : AsciiOnly isSpecial := by
  intro c special
  unfold isSpecial at special
  split at special
  all_goals first | decide | cases special

theorem Text.asciiOnly_isAsciiPunctuation : AsciiOnly isAsciiPunctuation := by
  intro c holds
  simp only [isAsciiPunctuation, Bool.or_eq_true, Bool.and_eq_true, decide_eq_true_eq] at holds
  omega

namespace InlineByteRun

variable {run : InlineRun}

/-- Where a scan of the window for some characters ends. -/
theorem skipWhile_ofRun {p : Char → Bool} (uniform : Uniform p) (ready : run.Ready) :
    skipWhile p run.source.bytes (offset run.source run.posMax) (offset run.source run.pos) =
      .ok (offset run.source (run.pos + (run.cursor.rest.takeWhile p).length)) := by
  have whole := List.takeWhile_append_dropWhile (p := p) (l := run.cursor.rest)
  have inWindow : (run.cursor.rest.takeWhile p).length ≤ run.cursor.rest.length :=
    (List.takeWhile_prefix p).length_le
  have taken := List.prefix_iff_eq_take.mp (List.takeWhile_prefix p (l := run.cursor.rest))
  rw [skipWhile_ahead (ahead_ofRun ready), takeWhile_bytes uniform, offset_ahead ready inWindow,
    ← taken]
  rfl

theorem text_eq (ready : run.Ready) (silent : Bool) :
    text silent (ofRun run) = .ok (ofStep (run.take silent (plainRun? run.cursor.rest))) := by
  have uniform : Uniform fun c => !isSpecial c := asciiOnly_isSpecial.not
  have skipped := skipWhile_ofRun uniform ready
  have taken := List.prefix_iff_eq_take.mp
    (List.takeWhile_prefix (fun c => !isSpecial c) (l := run.cursor.rest))
  have found := slice_ahead ready
    (List.takeWhile_prefix (fun c => !isSpecial c) (l := run.cursor.rest)).length_le
  rw [← taken] at found
  unfold text plainRun?
  rw [show skipWhile _ (ofRun run).source.bytes (ofRun run).posMax (ofRun run).pos = _ from skipped,
    ok_bind]
  dsimp only
  generalize run.cursor.rest.takeWhile (fun c => !isSpecial c) = plain at found
  cases plain with
  | nil =>
    exact if_pos (beq_self_eq_true (offset run.source run.pos))
  | cons c others =>
    have further : ¬ (offset run.source (run.pos + (c :: others).length) == (ofRun run).pos) =
        true := by
      rw [beq_iff_eq]
      exact fun same => absurd (offset_inj.mp same) (by simp)
    rw [if_neg further]
    cases silent with
    | true => rfl
    | false =>
      rw [if_neg Bool.false_ne_true, show slice (ofRun run).source (ofRun run).pos _ = _ from found,
        ok_bind]
      rfl

/-- Where the spaces from a place of the window on end. -/
theorem skipSpaces_eq (ready : run.Ready) {count : Nat}
    (inWindow : count ≤ run.cursor.rest.length) :
    (ofRun run).skipSpaces (offset run.source (run.pos + count)) =
      .ok (offset run.source (run.pos + count + runLength ' ' (run.cursor.rest.drop count))) := by
  have fits : run.pos + count ≤ run.posMax := by
    have ordered := ready.ordered
    rw [InlineRun.cursor_rest_length ready] at inWindow
    omega
  have skipped := skipWhile_ofRun (asciiOnly_beq (show ' '.toNat < 128 by decide)).uniform
    (ready.advance fits)
  have rest : ({ run with pos := run.pos + count } : InlineRun).cursor.rest =
      run.cursor.rest.drop count := by
    rw [InlineRun.cursor_advance fits]
    rfl
  rw [rest] at skipped
  exact skipped

/-- Characters of ASCII take a byte each. -/
theorem offset_ascii (ready : run.Ready) {front others : Text}
    (begins : run.cursor.rest = front ++ others) (isAscii : ∀ c ∈ front, c.toNat < 128) :
    offset run.source run.pos + front.length = offset run.source (run.pos + front.length) := by
  have inWindow : front.length ≤ run.cursor.rest.length := by
    rw [begins, List.length_append]
    exact Nat.le_add_right ..
  rw [offset_ahead ready inWindow, begins, List.take_left, size_of_ascii isAscii]

/-- A step on a mark is one that is taken on the mark, and does not match elsewhere. -/
theorem onMark_eq (ready : run.Ready) {mark : Char} (isAscii : mark.toNat < 128) {step : Step}
    {tried : Bool × InlineRun}
    (onIt : ∀ others, run.cursor.rest = mark :: others → step (ofRun run) = .ok (ofStep tried))
    (elsewhere : run.cursor.rest.head? ≠ some mark → tried = (false, run)) :
    onMark mark step (ofRun run) = .ok (ofStep tried) := by
  unfold onMark
  rw [peek_eq ready, ok_bind]
  cases begins : run.cursor.rest with
  | nil =>
    rw [elsewhere (by rw [begins]; exact nofun)]
    rfl
  | cons c others =>
    have begun : (some (lead c) == some mark) = (c == mark) := lead_beq isAscii c
    rw [List.head?_cons, Option.map_some, begun]
    by_cases isMark : c = mark
    · rw [isMark, beq_self_eq_true, if_pos rfl]
      exact onIt others (isMark ▸ begins)
    · rw [if_neg (by rw [beq_iff_eq]; exact isMark), elsewhere (by rw [begins]; simpa using isMark)]
      rfl

theorem source_breakLine (run : InlineRun) : run.breakLine.source = run.source := by
  unfold InlineRun.breakLine InlineRun.push
  exact source_add _ _

theorem newline_eq (ready : run.Ready) (silent : Bool) :
    newline silent (ofRun run) = .ok (ofStep (run.take silent (newline? run.cursor.rest))) := by
  refine onMark_eq ready (by decide) (fun others begins => ?_) fun elsewhere => ?_
  · have inWindow : 1 ≤ run.cursor.rest.length := by rw [begins]; exact Nat.succ_pos _
    have spaces := skipSpaces_eq ready inWindow
    rw [begins, List.drop_succ_cons, List.drop_zero, Nat.add_assoc] at spaces
    have next : (ofRun run).pos + 1 = offset run.source (run.pos + 1) :=
      @offset_ascii _ ready ['\n'] others begins
        (List.forall_mem_singleton.mpr (by decide))
    rw [next, spaces, ok_bind, begins]
    cases silent with
    | true => rfl
    | false =>
      rw [if_neg Bool.false_ne_true, breakLine_eq, ok_bind]
      exact congrArg Except.ok (moved_eq false (source_breakLine run) _)
  · unfold newline?
    split
    · next begins => exact absurd (congrArg List.head? begins) elsewhere
    · rfl

theorem escape_eq (ready : run.Ready) (silent : Bool) :
    escape silent (ofRun run) = .ok (ofStep (run.take silent (escape? run.cursor.rest))) := by
  refine onMark_eq ready (by decide) (fun others begins => ?_) fun elsewhere => ?_
  · have inWindow := ahead_ofRun ready
    have next : (ofRun run).pos + 1 = offset run.source (run.pos + 1) :=
      @offset_ascii _ ready ['\\'] others begins
        (List.forall_mem_singleton.mpr (by decide))
    have backslash : moved silent (ofRun run) ((ofRun run).addText ['\\'])
        (offset run.source (run.pos + 1)) =
          ofStep (run.take silent (some (.leaf 1 (.literal ['\\'])))) :=
      @moved_eq silent run (run.write (.literal ['\\'])) rfl (run.pos + 1)
    rw [begins, bytes_cons_of_ascii (by decide)] at inWindow
    have atNext := inWindow.tail
    dsimp only
    rw [next, backslash, begins, posMax_ofRun]
    rw [show offset run.source run.pos + 1 = _ from next] at atNext
    cases others with
    | nil =>
      rw [if_neg (Nat.not_lt_of_le (Nat.le_of_eq atNext.nil))]
      rfl
    | cons c others =>
      rw [bytes_cons_eq] at atNext
      rw [if_pos atNext.lt,
        show byteAt (ofRun run).source.bytes _ = _ from atNext.byteAt, ok_bind,
        asciiOnly_isAsciiPunctuation.uniform.lead, lead_beq (show '\n'.toNat < 128 by decide)]
      have behind : c.toNat < 128 →
          offset run.source (run.pos + 1) + 1 = offset run.source (run.pos + 2) := by
        intro isAscii
        rw [← next]
        exact @offset_ascii _ ready ['\\', c] others begins
          (List.forall_mem_cons.mpr ⟨by decide, List.forall_mem_singleton.mpr isAscii⟩)
      have found : escape? ('\\' :: c :: others) =
          if isAsciiPunctuation c then some (.leaf 2 (.literal [c]))
          else if c == '\n' then some (.leaf (1 + lineEndLength others) .hardBreak)
          else some (.leaf 1 (.literal ['\\'])) := rfl
      rw [found]
      cases punctuation : isAsciiPunctuation c with
      | true =>
        have isAscii := asciiOnly_isAsciiPunctuation c punctuation
        rw [if_pos rfl, lead_of_ascii isAscii, behind isAscii, if_pos rfl]
        exact congrArg Except.ok (@moved_eq silent run (run.write (.literal [c])) rfl (run.pos + 2))
      | false =>
        rw [if_neg Bool.false_ne_true, if_neg Bool.false_ne_true]
        cases isFeed : c == '\n' with
        | false => rfl
        | true =>
          obtain rfl : c = '\n' := beq_iff_eq.mp isFeed
          have spaces := skipSpaces_eq ready (show 2 ≤ run.cursor.rest.length by
            rw [begins]
            exact Nat.succ_le_succ (Nat.succ_pos _))
          rw [begins, List.drop_succ_cons, List.drop_succ_cons, List.drop_zero] at spaces
          rw [if_pos rfl, if_pos rfl, behind (by decide), spaces, ok_bind, push_ofRun]
          have moves : run.pos + 2 + runLength ' ' others =
              run.pos + (1 + lineEndLength others) := by
            unfold lineEndLength
            omega
          rw [moves]
          exact congrArg Except.ok (moved_eq silent (source_add run _) _)
  · unfold escape?
    split
    · next begins => exact absurd (congrArg List.head? begins) elsewhere
    · next begins => exact absurd (congrArg List.head? begins) elsewhere
    · rfl

end InlineByteRun

/-! ## Code spans -/

/-- What stands before a run of backticks of the right length, and what stands behind the run. -/
theorem untilTicks_append {count fuel : Nat} {s raw : Text}
    (found : untilTicks? count fuel s = some raw) :
    ∃ rest, s = raw ++ (List.replicate count '\x60' ++ rest) := by
  induction fuel generalizing s raw with
  | zero => cases found
  | succ fuel ih =>
    cases s with
    | nil => cases found
    | cons c s =>
      rw [untilTicks?] at found
      split at found
      · have whole := replicate_append_drop '\x60' (c :: s)
        dsimp only at found
        split at found
        · next long =>
          cases found
          rw [beq_iff_eq.mp long] at whole
          exact ⟨_, whole.symm⟩
        · obtain ⟨more, isFound, rfl⟩ := Option.map_eq_some_iff.mp found
          obtain ⟨rest, others⟩ := ih isFound
          exact ⟨rest, by rw [List.append_assoc, ← others, whole]⟩
      · obtain ⟨more, isFound, rfl⟩ := Option.map_eq_some_iff.mp found
        obtain ⟨rest, rfl⟩ := ih isFound
        exact ⟨rest, rfl⟩

/-- Characters that are no backticks are passed one by one. -/
theorem untilTicks_front {count fuel : Nat} {front : Text} (others : ∀ c ∈ front, c ≠ '\x60')
    (rest : Text) :
    untilTicks? count (front.length + fuel) (front ++ rest) =
      (untilTicks? count fuel rest).map (front ++ ·) := by
  induction front with
  | nil =>
    rw [List.length_nil, Nat.zero_add, List.nil_append]
    exact (Option.map_id_apply ..).symm
  | cons c front ih =>
    obtain ⟨first, others⟩ := List.forall_mem_cons.mp others
    rw [List.length_cons, Nat.add_right_comm, List.cons_append, untilTicks_cons first, ih others,
      Option.map_map]
    rfl

namespace InlineByteRun

variable {run : InlineRun}

theorem size_ticks (count : Nat) : size (List.replicate count '\x60') = count := by
  rw [size, bytes_replicate (by decide), List.length_replicate]

/-- The next run of exactly so many backticks. -/
theorem seekTicks_eq {source : Text} {count : Nat} (fuel : Nat) {before inner behind : Text}
    (isSource : source = before ++ (inner ++ behind)) (enough : size inner < fuel) (charFuel : Nat)
    (enoughChars : inner.length < charFuel) :
    seekTicks source (size before + size inner) count fuel (size before) =
      .ok ((untilTicks? count charFuel inner).map fun raw =>
        (size before + size raw, size before + size raw + count)) := by
  induction fuel generalizing before inner charFuel with
  | zero => exact absurd enough (Nat.not_lt_zero _)
  | succ fuel ih =>
    have sliced : slice source (size before) (size before + size inner) = .ok inner :=
      slice_of_eq isSource rfl rfl
    rw [seekTicks, sliced, ok_bind]
    have whole := List.takeWhile_append_dropWhile (p := (· != '\x60')) (l := inner)
    have front : ∀ c ∈ inner.takeWhile (· != '\x60'), c ≠ '\x60' := fun c member =>
      bne_iff_ne.mp (List.mem_takeWhile_imp (p := (· != '\x60')) member)
    have all : inner.all (· != '\x60') = (inner.dropWhile (· != '\x60')).isEmpty := by
      rw [Bool.eq_iff_iff, List.all_eq_true, List.isEmpty_iff, List.dropWhile_eq_nil_iff]
    have begins := List.head?_dropWhile_not (p := (· != '\x60')) (l := inner)
    rw [all]
    generalize inner.takeWhile (· != '\x60') = text at *
    generalize inner.dropWhile (· != '\x60') = rest at *
    subst whole
    rw [List.length_append] at enoughChars
    obtain ⟨charFuel, rfl⟩ : ∃ others, charFuel = text.length + (others + 1) :=
      ⟨charFuel - text.length - 1, by omega⟩
    rw [untilTicks_front front]
    cases rest with
    | nil => rfl
    | cons c rest =>
      obtain rfl : c = '\x60' := by simpa using begins
      -- The run of backticks, and what follows it.
      have ticks := replicate_append_drop '\x60' ('\x60' :: rest)
      have positive := runLength_pos '\x60' rest
      have ahead := Ahead.of_append (before ++ text) ('\x60' :: rest) behind
      rw [List.append_assoc, ← List.append_assoc text, ← isSource, size_append] at ahead
      obtain ⟨skipped, -⟩ := skipWhile_run (show '\x60'.toNat < 128 by decide) ahead
      rw [show List.isEmpty ('\x60' :: rest) = false from rfl, if_neg Bool.false_ne_true]
      dsimp only
      rw [size_append, ← Nat.add_assoc, skipped, ok_bind, minus_of_le (Nat.le_add_right ..),
        ok_bind, Nat.add_sub_cancel_left, untilTicks?, if_pos (beq_self_eq_true _)]
      dsimp only
      generalize runLength '\x60' ('\x60' :: rest) = length at *
      cases isCount : length == count with
      | true =>
        rw [← beq_iff_eq.mp isCount, if_pos rfl, if_pos rfl, Option.map_some, Option.map_some,
          List.append_nil]
        rfl
      | false =>
        have sizeRest := congrArg size ticks
        have lengths := congrArg List.length ticks
        rw [size_append, size_ticks] at sizeRest
        rw [List.length_append, List.length_replicate] at lengths
        rw [size_append, ← sizeRest] at enough
        have others := @ih (before ++ (text ++ List.replicate length '\x60'))
          (('\x60' :: rest).drop length) (by rw [isSource, ← ticks]; simp) (by omega) charFuel
          (by omega)
        rw [size_append, size_append, size_ticks, ← Nat.add_assoc, Nat.add_assoc _ length,
          sizeRest] at others
        rw [if_neg Bool.false_ne_true, if_neg Bool.false_ne_true, others, Option.map_map,
          Option.map_map]
        congr 2
        funext raw
        show _ = (size before + size (text ++ (List.replicate length '\x60' ++ raw)),
          size before + size (text ++ (List.replicate length '\x60' ++ raw)) + count)
        rw [size_append, size_append, size_ticks, ← Nat.add_assoc, ← Nat.add_assoc]

/-- Where other characters stand between two spaces, there are three bytes at least. -/
theorem spanContent_eq (raw : Text) : spanContent raw = .ok (spanText raw) := by
  unfold spanContent spanText
  dsimp only
  generalize raw.replaceChar '\n' ' ' = content
  cases begins : content.head? == some ' ' with
  | false => simp; rfl
  | true =>
    cases ends : content.getLast? == some ' ' with
    | false => simp; rfl
    | true =>
      cases others : content.any (· != ' ') with
      | false => simp; rfl
      | true =>
        obtain ⟨rest, rfl⟩ := List.head?_eq_some_iff.mp (beq_iff_eq.mp begins)
        rcases List.eq_nil_or_concat rest with rfl | ⟨text, last, rfl⟩
        · cases others
        · rw [List.concat_eq_append] at *
          obtain rfl : last = ' ' := by
            rw [← List.cons_append, List.getLast?_concat] at ends
            exact Option.some.inj (beq_iff_eq.mp ends)
          have notEmpty : text ≠ [] := by
            rintro rfl
            cases others
          have positive := List.length_pos_iff.mpr notEmpty
          have size_content : size (' ' :: (text ++ [' '])) = 1 + (size text + 1) := by
            rw [size_cons, size_append]
            rfl
          have long : 2 < size (' ' :: (text ++ [' '])) := by
            have atLeast := length_le_size text
            omega
          have sliced : slice (' ' :: (text ++ [' '])) 1 (1 + size text) = .ok text :=
            slice_of_eq (show _ = [' '] ++ (text ++ [' ']) from rfl) rfl rfl
          have longText : (' ' :: (text ++ [' '])).length > 2 := by
            rw [List.length_cons, List.length_append]
            exact Nat.succ_le_succ (Nat.succ_le_succ positive)
          simp only [decide_eq_true long, decide_eq_true longText, Bool.and_self, if_true]
          rw [size_content, minus_of_le (Nat.le_add_right ..), ok_bind, Nat.add_sub_cancel_left,
            Nat.add_comm (size text) 1, sliced, List.drop_succ_cons, List.drop_zero,
            List.dropLast_concat]

/-- A run of backticks stands at the cursor, with `inner` behind it in the window. -/
structure AtTicks (run : InlineRun) (count : Nat) (before inner behind : Text) : Prop where
  source : run.source = before ++ (List.replicate count '\x60' ++ (inner ++ behind))
  pos : run.pos = before.length
  posMax : offset run.source run.posMax = size before + count + size inner

theorem exists_atTicks (ready : run.Ready) :
    let count := runLength '\x60' run.cursor.rest
    ∃ before behind, AtTicks run count before (run.cursor.rest.drop count) behind := by
  obtain ⟨before, behind, isSource, isPos⟩ := source_parts ready
  have isRun := replicate_append_drop '\x60' run.cursor.rest
  have ends := posMax_eq ready
  rw [← isRun, size_append, size_ticks, ← Nat.add_assoc, offset_of_eq isSource isPos] at ends
  rw [← isRun, List.append_assoc] at isSource
  exact ⟨before, behind, isSource, isPos, ends⟩

namespace AtTicks

variable {count : Nat} {before inner behind : Text} (ticks : AtTicks run count before inner behind)
include ticks

theorem offset_pos : offset run.source run.pos = size before :=
  offset_of_eq ticks.source ticks.pos

theorem offset_inner : offset run.source (run.pos + count) = size before + count := by
  rw [offset_of_eq (ticks.source.trans (List.append_assoc ..).symm)
    (by rw [List.length_append, List.length_replicate, ticks.pos]), size_append, size_ticks]

theorem slice_ticks :
    slice run.source (offset run.source run.pos) (offset run.source (run.pos + count)) =
      .ok (List.replicate count '\x60') :=
  slice_of_eq ticks.source ticks.offset_pos (by rw [ticks.offset_inner, size_ticks])

theorem minus_pos :
    minus (offset run.source (run.pos + count)) (offset run.source run.pos) = .ok count := by
  rw [ticks.offset_inner, ticks.offset_pos, minus_of_le (Nat.le_add_right ..),
    Nat.add_sub_cancel_left]

/-- The next run of as many backticks, behind the one at the cursor. -/
theorem seekTicks_inner :
    let first := offset run.source (run.pos + count)
    let max := offset run.source run.posMax
    seekTicks run.source max count (max - first + 1) first =
      .ok ((untilTicks? count (inner.length + 1) inner).map fun raw =>
        (first + size raw, first + size raw + count)) := by
  intro first max
  have isSource := ticks.source
  rw [← List.append_assoc] at isSource
  have sought := @seekTicks_eq _ count (size inner + 1) _ _ _ isSource (Nat.lt_succ_self _)
    (inner.length + 1) (Nat.lt_succ_self _)
  rw [size_append, size_ticks, ← ticks.posMax, ← ticks.offset_inner] at sought
  have fuel : max - first = size inner := by
    show offset run.source run.posMax - offset run.source (run.pos + count) = _
    rw [ticks.posMax, ticks.offset_inner, Nat.add_sub_cancel_left]
  rw [fuel]
  exact sought

variable {raw more : Text} (isInner : inner = raw ++ (List.replicate count '\x60' ++ more))
include isInner

/-- What stands between the two runs of backticks. -/
theorem slice_raw :
    slice run.source (offset run.source (run.pos + count))
      (offset run.source (run.pos + count) + size raw) = .ok raw := by
  have parts : run.source = (before ++ List.replicate count '\x60') ++
      (raw ++ (List.replicate count '\x60' ++ more ++ behind)) := by
    rw [ticks.source, isInner]
    simp only [List.append_assoc]
  have begun : offset run.source (run.pos + count) =
      size (before ++ List.replicate count '\x60') := by
    rw [ticks.offset_inner, size_append, size_ticks]
  exact slice_of_eq parts begun (congrArg (· + size raw) begun)

/-- The character behind both runs of backticks. -/
theorem offset_behind :
    offset run.source (run.pos + count) + size raw + count =
      offset run.source (run.pos + (count + raw.length + count)) := by
  have parts : run.source =
      (before ++ List.replicate count '\x60' ++ raw ++ List.replicate count '\x60') ++
        (more ++ behind) := by
    rw [ticks.source, isInner]
    simp only [List.append_assoc]
  rw [ticks.offset_inner, offset_of_eq parts]
  · rw [size_append, size_append, size_append, size_ticks]
  · simp only [List.length_append, List.length_replicate, ticks.pos, Nat.add_assoc]

end AtTicks

theorem backticks_eq (ready : run.Ready) (silent : Bool) :
    backticks silent (ofRun run) = .ok (ofStep (run.take silent (codeSpan? run.cursor.rest))) := by
  refine onMark_eq ready (by decide) (fun others begins => ?_) fun elsewhere => ?_
  · have skipped :=
      skipWhile_ofRun (asciiOnly_beq (show '\x60'.toNat < 128 by decide)).uniform ready
    have positive : 0 < runLength '\x60' run.cursor.rest := by
      rw [begins]
      exact runLength_pos '\x60' others
    obtain ⟨before, behind, ticks⟩ := exists_atTicks ready
    rw [← runLength] at skipped
    unfold codeSpan?
    dsimp only
    generalize runLength '\x60' run.cursor.rest = count at *
    generalize run.cursor.rest.drop count = inner at *
    rw [show skipWhile _ (ofRun run).source.bytes (ofRun run).posMax (ofRun run).pos = _
        from skipped,
      ok_bind, show slice (ofRun run).source (ofRun run).pos _ = _ from ticks.slice_ticks, ok_bind,
      show minus _ (ofRun run).pos = _ from ticks.minus_pos, ok_bind, posMax_ofRun,
      source_ofRun, ticks.seekTicks_inner, ok_bind,
      if_neg (by rw [beq_iff_eq]; exact Nat.ne_of_gt positive)]
    cases found : untilTicks? count (inner.length + 1) inner with
    | none =>
      exact congrArg Except.ok (@moved_eq silent run
        (run.write (.literal (List.replicate count '\x60'))) rfl (run.pos + count))
    | some raw =>
      obtain ⟨more, isInner⟩ := untilTicks_append found
      dsimp only [Option.map_some]
      rw [ticks.slice_raw isInner, ticks.offset_behind isInner]
      cases silent with
      | true => rfl
      | false =>
        rw [if_neg Bool.false_ne_true, ok_bind, spanContent_eq, ok_bind, add_ofRun]
        exact congrArg Except.ok (moved_eq false (source_add run _) _)
  · have none : runLength '\x60' run.cursor.rest = 0 := runLength_of_head elsewhere
    unfold codeSpan?
    rw [none]
    rfl

end InlineByteRun

/-! ## Addresses and references -/

/-- An address ends where an angle bracket follows. -/
theorem address_append {s address : Text} (found : address? s = some address) :
    ∃ behind, s = address ++ '>' :: behind := by
  cases s with
  | nil => cases found
  | cons c rest =>
    unfold address? at found
    dsimp only at found
    split at found
    · split at found
      · next ends =>
        obtain ⟨behind, bracket⟩ := List.head?_eq_some_iff.mp (beq_iff_eq.mp ends)
        cases found
        refine ⟨behind, ?_⟩
        rw [← bracket, List.append_assoc, List.takeWhile_append_dropWhile, List.cons_append,
          List.takeWhile_append_dropWhile]
      · cases found
    · cases found

theorem mailAddress_append {s address : Text} (found : mailAddress? s = some address) :
    ∃ behind, s = address ++ '>' :: behind := by
  unfold mailAddress? at found
  dsimp only at found
  split at found
  · next rest mark =>
    split at found
    · next holds =>
      cases found
      have whole := List.takeWhile_append_dropWhile (p := isMailboxChar) (l := s)
      have domain := List.takeWhile_append_dropWhile (p := (· != '>')) (l := rest)
      have begins := List.head?_dropWhile_not (p := (· != '>')) (l := rest)
      cases ends : rest.dropWhile (· != '>') with
      | nil =>
        have shorter : (rest.takeWhile (· != '>')).length < rest.length := by
          simp only [Bool.and_eq_true, decide_eq_true_eq] at holds
          exact holds.1.2
        rw [ends, List.append_nil] at domain
        rw [domain] at shorter
        exact absurd shorter (Nat.lt_irrefl _)
      | cons c behind =>
        rw [ends] at begins domain
        obtain rfl : c = '>' := by simpa using begins
        refine ⟨behind, ?_⟩
        rw [List.append_assoc, List.cons_append, domain, ← mark, whole]
    · cases found
  · cases found

/-- An autolink is its address between angle brackets. -/
theorem autolink_cases (s : Text) :
    autolink? s = none ∨ ∃ address href behind, s = '<' :: (address ++ '>' :: behind) ∧
      autolink? s = some (.leaf (address.length + 2) (.autolink address href)) := by
  unfold autolink?
  split
  · split
    · next address found =>
      obtain ⟨behind, rfl⟩ := address_append found
      exact .inr ⟨address, _, behind, rfl, rfl⟩
    · split
      · next address found =>
        obtain ⟨behind, rfl⟩ := mailAddress_append found
        exact .inr ⟨address, _, behind, rfl, rfl⟩
      · exact .inl rfl
  · exact .inl rfl

namespace InlineByteRun

variable {run : InlineRun}

theorem source_addAutolink (run : InlineRun) (address href : Text) :
    (run.addAutolink address href).source = run.source := by
  unfold InlineRun.addAutolink
  dsimp only
  rw [source_add, source_add, source_add]

theorem autolink_eq (ready : run.Ready) (silent : Bool) :
    autolink silent (ofRun run) = .ok (ofStep (run.take silent (autolink? run.cursor.rest))) := by
  refine onMark_eq ready (by decide) (fun others begins => ?_) fun elsewhere => ?_
  · rw [ahead_eq ready, ok_bind]
    rcases autolink_cases run.cursor.rest with none | ⟨address, href, behind, isLink, found⟩
    · rw [none]
      rfl
    · have parts : run.cursor.rest = ('<' :: address ++ ['>']) ++ behind := by
        rw [isLink]
        simp only [List.cons_append, List.append_assoc, List.nil_append]
      have length : ('<' :: address ++ ['>']).length = address.length + 2 := by simp
      have inWindow : address.length + 2 ≤ run.cursor.rest.length := by
        rw [parts, List.length_append, length]
        exact Nat.le_add_right ..
      have bytes : size ('<' :: address ++ ['>']) = size address + 2 := by
        rw [size_append, size_cons, charBytes_of_ascii (by decide), Nat.add_comm _ (size address)]
        rfl
      have leads : offset run.source (run.pos + (address.length + 2)) =
          offset run.source run.pos + size address + 2 := by
        rw [offset_ahead ready inWindow, parts, List.take_left' length, bytes]
        rfl
      rw [found]
      dsimp only [Construct.leaf]
      rw [addAutolink_ofRun, pos_ofRun, ← leads]
      exact congrArg Except.ok (moved_eq silent (source_addAutolink run address href) _)
  · unfold autolink?
    split
    · next begins => exact absurd (congrArg List.head? begins) elsewhere
    · rfl

theorem entity_eq (ready : run.Ready) (silent : Bool) :
    entity silent (ofRun run) = .ok (ofStep (run.take silent (entity? run.cursor.rest))) := by
  refine onMark_eq ready (by decide) (fun others begins => ?_) fun elsewhere => ?_
  · have next : (ofRun run).pos + 1 = offset run.source (run.pos + 1) :=
      @offset_ascii _ ready ['&'] others begins
        (List.forall_mem_singleton.mpr (by decide))
    rw [ahead_eq ready, ok_bind, next, begins, show List.drop 1 ('&' :: others) = others from rfl]
    have isEntity : entity? ('&' :: others) = match referenceValue? others with
      | some (value, length) => some (.leaf (length + 2) (.literal [value]))
      | none => some (.leaf 1 (.literal ['&'])) := rfl
    rw [isEntity]
    cases found : referenceValue? others with
    | none => exact congrArg Except.ok (@moved_eq silent run (run.write (.literal ['&'])) rfl _)
    | some reference =>
      obtain ⟨value, length⟩ := reference
      have inWindow : length + 2 ≤ run.cursor.rest.length := by
        rw [begins, List.length_cons]
        exact Nat.succ_le_succ (referenceValue_bounds found)
      have leads := offset_ahead ready inWindow
      rw [begins] at leads
      dsimp only
      rw [pos_ofRun, ← leads]
      exact congrArg Except.ok (@moved_eq silent run (run.write (.literal [value])) rfl _)
  · unfold entity?
    split
    · next begins => exact absurd (congrArg List.head? begins) elsewhere
    · rfl

end InlineByteRun

end ComponentMarkdown
