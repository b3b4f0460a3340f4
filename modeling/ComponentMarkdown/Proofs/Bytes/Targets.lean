import ComponentMarkdown.Proofs.Bytes.InlineState
import ComponentMarkdown.Proofs.Inline.Targets

/-!
# Targets of links by bytes

A scan for the end of a destination or a title goes on two bytes behind a backslash, which may lead
into the middle of a character. No byte there is one that a scan looks for. The file has:

* `Checked.scanEscaped`, the scan of bytes, and `scanEscaped_eq`, which compares it with the scan of
  characters;
* `destination`, `title` and `target`, with a lemma for each.
-/

namespace ComponentMarkdown

open Text Checked

/-- No scan looks for a character beyond ASCII. -/
def PassesHigh {σ : Type} (verdict : σ → Char → Verdict σ) : Prop :=
  ∀ state c, 128 ≤ c.toNat → verdict state c = .passes state

namespace Target

variable {σ : Type} {verdict : σ → Char → Verdict σ} {state after : σ} {s read rest : Text}

/-- A scan ends before a character of ASCII. -/
theorem readEscaped_ascii (passes : PassesHigh verdict) {mark : Char}
    (found : readEscaped verdict state s = some (after, read, mark :: rest)) :
    mark.toNat < 128 := by
  fun_induction readEscaped verdict state s generalizing read with
  | case1 => cases found
  | case2 state c others ih =>
    obtain ⟨⟨_, more, _⟩, isFound, same⟩ := Option.map_eq_some_iff.mp found
    cases same
    exact ih isFound
  | case3 state c others unescaped ends =>
    cases found
    refine Nat.lt_of_not_le fun high => ?_
    rw [passes _ mark high] at ends
    cases ends
  | case4 => cases found
  | case5 state c others unescaped next passed ih =>
    obtain ⟨⟨_, more, _⟩, isFound, same⟩ := Option.map_eq_some_iff.mp found
    cases same
    exact ih isFound

end Target

/-! ## Scans of bytes -/

namespace Checked

section

variable {σ : Type}

/-- Reads as far as the verdicts allow: the state then, and the byte behind what was read. -/
def scanEscaped (look : σ → Char → Checked (Verdict σ)) (b : Text) (max : Nat) (state : σ)
    (pos : Nat) : Checked (Option (σ × Nat)) :=
  if pos < max then do
    let c ← byteAt b pos
    if c == '\\' && pos + 1 < max then scanEscaped look b max state (pos + 2)
    else
      match ← look state c with
      | .ends => return some (state, pos)
      | .fails => return none
      | .passes state => scanEscaped look b max state (pos + 1)
  else return some (state, pos)
termination_by max - pos

variable {look : σ → Char → Checked (Verdict σ)} {verdict : σ → Char → Verdict σ} {state : σ}
  {b t w : Text} {i max : Nat}

theorem scanEscaped_of_look (looks : ∀ state c, look state c = .ok (verdict state c)) {c : Char}
    (ahead : Ahead b i max (c :: w)) (unescaped : c = '\\' → w = []) :
    scanEscaped look b max state i =
      match verdict state c with
      | .ends => .ok (some (state, i))
      | .fails => .ok none
      | .passes state => scanEscaped look b max state (i + 1) := by
  have notEscape : ¬ (c == '\\' && decide (i + 1 < max)) = true := by
    rw [Bool.and_eq_true, decide_eq_true_eq]
    rintro ⟨isBackslash, further⟩
    rw [unescaped (beq_iff_eq.mp isBackslash)] at ahead
    exact absurd ahead.tail.nil (Nat.ne_of_gt further)
  rw [scanEscaped, if_pos ahead.lt, ahead.byteAt, ok_bind, if_neg notEscape, looks, ok_bind]
  cases verdict state c <;> rfl

/-- Bytes of characters beyond ASCII are passed, wherever a scan comes upon them. -/
theorem scanEscaped_high (looks : ∀ state c, look state c = .ok (verdict state c))
    (passes : PassesHigh verdict) (ahead : Ahead b i max (t ++ w))
    (high : ∀ byte ∈ t, 128 ≤ byte.toNat) :
    scanEscaped look b max state i = scanEscaped look b max state (i + t.length) := by
  induction t generalizing i with
  | nil => rfl
  | cons byte t ih =>
    obtain ⟨first, others⟩ := List.forall_mem_cons.mp high
    have notBackslash : byte = '\\' → t ++ w = [] := by
      rintro rfl
      exact absurd first (by decide)
    rw [scanEscaped_of_look looks ahead notBackslash, passes state byte first]
    dsimp only
    rw [ih ahead.tail others, List.length_cons, Nat.add_assoc, Nat.add_comm 1]

/-- A character of a text, with all its bytes. -/
theorem scanEscaped_cons (looks : ∀ state c, look state c = .ok (verdict state c))
    (passes : PassesHigh verdict) {c : Char} {rest : Text}
    (ahead : Ahead b i max (bytes (c :: rest)))
    (unescaped : ∀ d more, c = '\\' → rest = d :: more → False) :
    scanEscaped look b max state i =
      match verdict state c with
      | .ends => .ok (some (state, i))
      | .fails => .ok none
      | .passes state => scanEscaped look b max state (i + (charBytes c).length) := by
  have sameVerdict : verdict state (lead c) = verdict state c := by
    rcases Nat.lt_or_ge c.toNat 128 with isAscii | high
    · rw [lead_of_ascii isAscii]
    · rw [passes state _ (lead_high high), passes state c high]
  have notEscape : lead c = '\\' → trail c ++ bytes rest = [] := by
    intro same
    obtain rfl := (lead_eq (by decide)).mp same
    cases rest with
    | nil => rfl
    | cons d more => exact (unescaped d more rfl rfl).elim
  rw [bytes_cons_eq] at ahead
  have width : (charBytes c).length = 1 + (trail c).length := by
    rw [charBytes_eq, List.length_cons, Nat.add_comm]
  rw [scanEscaped_of_look looks ahead notEscape, sameVerdict, width, ← Nat.add_assoc]
  cases verdict state c with
  | ends => rfl
  | fails => rfl
  | passes state => exact scanEscaped_high looks passes ahead.tail (trail_high c)

/-- A backslash, with the character behind it. -/
theorem scanEscaped_escape (looks : ∀ state c, look state c = .ok (verdict state c))
    (passes : PassesHigh verdict) {c : Char} {rest : Text}
    (ahead : Ahead b i max (bytes ('\\' :: c :: rest))) :
    scanEscaped look b max state i =
      scanEscaped look b max state (i + size ['\\', c]) := by
  rw [bytes_cons_of_ascii (by decide), bytes_cons_eq] at ahead
  have isEscape : ('\\' == '\\' && decide (i + 1 < max)) = true := by
    rw [beq_self_eq_true, Bool.true_and]
    exact decide_eq_true ahead.tail.lt
  have width : size ['\\', c] = 2 + (trail c).length := by
    unfold size
    rw [bytes_cons_of_ascii (by decide), bytes_cons_eq, bytes_nil, List.append_nil,
      List.length_cons, List.length_cons]
    omega
  rw [scanEscaped, if_pos ahead.lt, ahead.byteAt, ok_bind, if_pos isEscape, width, ← Nat.add_assoc]
  exact scanEscaped_high looks passes ahead.tail.tail (trail_high c)

/-- The scan of bytes ends where the scan of characters does. -/
theorem scanEscaped_eq (looks : ∀ state c, look state c = .ok (verdict state c))
    (passes : PassesHigh verdict) {s : Text} (ahead : Ahead b i max (bytes s)) :
    scanEscaped look b max state i =
      .ok ((Target.readEscaped verdict state s).map fun found =>
        (found.1, i + size found.2.1)) := by
  fun_induction Target.readEscaped verdict state s generalizing i with
  | case1 =>
    rw [scanEscaped, if_neg (Nat.not_lt.mpr (Nat.le_of_eq ahead.nil))]
    rfl
  | case2 state c rest ih =>
    have behind := ahead
    rw [show '\\' :: c :: rest = ['\\', c] ++ rest from rfl, bytes_append] at behind
    rw [scanEscaped_escape looks passes ahead, size, ih behind.append, Option.map_map]
    congr 2
    funext found
    show _ = (found.1, i + size (['\\', c] ++ found.2.1))
    rw [size_append, ← Nat.add_assoc]
    rfl
  | case3 state c rest unescaped ends =>
    rw [scanEscaped_cons looks passes ahead unescaped, ends]
    rfl
  | case4 state c rest unescaped fails =>
    rw [scanEscaped_cons looks passes ahead unescaped, fails]
    rfl
  | case5 state c rest unescaped next passed ih =>
    have behind := ahead
    rw [bytes_cons] at behind
    rw [scanEscaped_cons looks passes ahead unescaped, passed]
    dsimp only
    rw [ih behind.append, Option.map_map]
    congr 2
    funext found
    show _ = (found.1, i + size ([c] ++ found.2.1))
    rw [size_append, size_cons, size_nil, Nat.add_zero, ← Nat.add_assoc]

end

/-! ## Destinations and titles -/

/-- The text between the byte behind `start` and the mark at which a scan ends, resolved, with the
byte behind the mark. -/
def enclosed (look : Char → Checked (Verdict Unit)) (source : Text) (max start : Nat) :
    Checked (Option (Text × Nat)) := do
  match ← scanEscaped (fun _ => look) source.bytes max () (start + 1) with
  | some (_, pos) =>
    if pos < max then return some (unescape (← slice source (start + 1) pos), pos + 1)
    else return none
  | none => return none

def angledLook (c : Char) : Checked (Verdict Unit) :=
  return if c == '\n' || c == '<' then .fails else if c == '>' then .ends else .passes ()

/-- The state is the number of parentheses that are open, of which at most 32 may be. -/
def bareLook (level : Nat) (c : Char) : Checked (Verdict Nat) :=
  if c == ' ' || c.toNat < 0x20 || c.toNat == 0x7F then return .ends
  else if c == '(' then
    let level := level + 1
    return if 32 < level then .fails else .passes level
  else if c == ')' then
    if level == 0 then return .ends else return .passes (← minus level 1)
  else return .passes level

def titleLook (close c : Char) : Checked (Verdict Unit) :=
  return if c == close then .ends else if c == '(' && close == ')' then .fails else .passes ()

/-- A destination, resolved, with the byte behind it. -/
def destination (source : Text) (max start : Nat) : Checked (Option (Text × Nat)) := do
  if (← byteAt source.bytes start) == '<' then enclosed angledLook source max start
  else
    match ← scanEscaped bareLook source.bytes max 0 start with
    | some (level, pos) =>
      if pos == start || level != 0 then return none
      else return some (unescape (← slice source start pos), pos)
    | none => return none

/-- A title, resolved, with the byte behind it. -/
def title (source : Text) (max start : Nat) : Checked (Option (Text × Nat)) := do
  let c ← byteAt source.bytes start
  if c == '"' || c == '\'' then enclosed (titleLook c) source max start
  else if c == '(' then enclosed (titleLook ')') source max start
  else return none

/-! ## Targets -/

/-- The byte behind spaces, tabs and line ends. -/
def skipGaps (b : Text) (max pos : Nat) : Checked Nat :=
  skipWhile (fun c => c == ' ' || c == '\t' || c == '\n') b max pos

/-- A destination and the title behind it, with the byte behind the blanks that follow. -/
def titled (source : Text) (max start : Nat) : Checked (Option (Target × Nat)) := do
  match ← destination source max start with
  | none => return none
  | some (href, behind) =>
    let pos ← skipGaps source.bytes max behind
    if pos < max && pos != behind then
      match ← title source max pos with
      | some (title, behind) =>
        return some ({ href, title := some title }, ← skipGaps source.bytes max behind)
      | none => return some ({ href }, pos)
    else return some ({ href }, pos)

/-- What stands between the parentheses of a target, with the byte of the closing one. -/
def targetInside (source : Text) (max pos : Nat) : Checked (Option (Target × Nat)) := do
  if (← byteAt source.bytes pos) != ')' then titled source max pos
  else return some ({ href := [] }, pos)

/-- Expects the closing parenthesis of a target. -/
def closeTarget (source : Text) (max : Nat) (found : Target × Nat) :
    Checked (Option (Target × Nat)) := do
  if max ≤ found.2 then return none
  else if (← byteAt source.bytes found.2) != ')' then return none
  else return some (found.1, found.2 + 1)

/-- A target, with the byte behind it. -/
def target (source : Text) (max pos : Nat) : Checked (Option (Target × Nat)) := do
  if max ≤ pos then return none
  else if (← byteAt source.bytes pos) != '(' then return none
  else
    let pos ← skipGaps source.bytes max (pos + 1)
    if max ≤ pos then return none
    else
      match ← targetInside source max pos with
      | none => return none
      | some found => closeTarget source max found

/-! ## What the scans find -/

theorem angledLook_eq (state : Unit) (c : Char) :
    angledLook c = .ok (Target.angledVerdict state c) := by
  unfold angledLook Target.angledVerdict
  by_cases closes : (c == '>') = true
  · rw [beq_iff_eq.mp closes]
    rfl
  · rw [if_neg closes, if_neg closes]
    rfl

theorem titleLook_eq (close : Char) (state : Unit) (c : Char) :
    titleLook close c = .ok (Target.titleVerdict close state c) := rfl

theorem endsBare_eq (c : Char) :
    (c == ' ' || decide (c.toNat < 0x20) || c.toNat == 0x7F) = Target.endsBare c := by
  have isSpace : (c == ' ') = decide (c.toNat = 0x20) := by
    rw [Bool.eq_iff_iff, beq_iff_eq, decide_eq_true_eq]
    exact ⟨fun same => same ▸ rfl, fun same => Char.toNat_inj.mp same⟩
  unfold Target.endsBare
  rw [isSpace, ← Bool.decide_or]
  congr 1
  exact decide_eq_decide.mpr (by omega)

theorem bareLook_eq (depth : Nat) (c : Char) :
    bareLook depth c = .ok (Target.bareVerdict depth c) := by
  unfold bareLook Target.bareVerdict
  rw [endsBare_eq]
  cases Target.endsBare c with
  | true => rfl
  | false =>
    cases c == '(' with
    | true =>
      by_cases fits : depth < 32
      · have notTooMany : ¬ 32 < depth + 1 := Nat.not_lt.mpr fits
        simp only [Bool.false_eq_true, if_false, if_true, if_pos fits, if_neg notTooMany]
        rfl
      · have tooMany : 32 < depth + 1 := Nat.lt_succ_of_le (Nat.not_lt.mp fits)
        simp only [Bool.false_eq_true, if_false, if_true, if_neg fits, if_pos tooMany]
        rfl
    | false =>
      cases c == ')' with
      | false => rfl
      | true => cases depth <;> rfl

/-- Characters beyond ASCII are not those that a verdict depends on. -/
theorem beq_of_high {c mark : Char} (high : 128 ≤ c.toNat) (isAscii : mark.toNat < 128) :
    ¬ (c == mark) = true :=
  Bool.eq_false_iff.mp ((asciiOnly_beq isAscii).of_high high)

theorem passesHigh_angled : PassesHigh Target.angledVerdict := by
  intro state c high
  have others : ¬ (c == '\n' || c == '<') = true := by
    rw [Bool.or_eq_true, not_or]
    exact ⟨beq_of_high high (by decide), beq_of_high high (by decide)⟩
  rw [Target.angledVerdict, if_neg (beq_of_high high (by decide)), if_neg others]

theorem passesHigh_title {close : Char} (isAscii : close.toNat < 128) :
    PassesHigh (Target.titleVerdict close) := by
  intro state c high
  have others : ¬ (c == '(' && close == ')') = true := by
    rw [Bool.and_eq_true, not_and]
    exact fun opens => absurd opens (beq_of_high high (by decide))
  rw [Target.titleVerdict, if_neg (beq_of_high high isAscii), if_neg others]

theorem passesHigh_bare : PassesHigh Target.bareVerdict := by
  intro depth c high
  have notEnd : ¬ Target.endsBare c = true := by
    unfold Target.endsBare
    rw [Bool.or_eq_true, decide_eq_true_eq, beq_iff_eq]
    omega
  rw [Target.bareVerdict, if_neg notEnd, if_neg (beq_of_high high (by decide)),
    if_neg (beq_of_high high (by decide))]

section

variable {source s rest : Text} {i max : Nat}

theorem Stands.tail {c : Char} (stands : Stands source i max (c :: s)) (isAscii : c.toNat < 128) :
    Stands source (i + 1) max s := by
  have behind := @Stands.append source [c] s i max stands
  rwa [size_cons, charBytes_of_ascii isAscii] at behind

theorem enclosed_eq {look : Char → Checked (Verdict Unit)} {verdict : Unit → Char → Verdict Unit}
    (looks : ∀ state c, look c = .ok (verdict state c)) (passes : PassesHigh verdict) {c : Char}
    (isAscii : c.toNat < 128) (stands : Stands source i max (c :: s)) :
    enclosed look source max i =
      .ok (((Target.readEscaped verdict () s).bind Target.upToMark?).map fun found =>
        (unescape found.1, max - size found.2)) := by
  have inside := stands.tail isAscii
  have scanned := @scanEscaped_eq Unit (fun _ => look) _ () _ _ _ looks passes _ inside.ahead
  unfold enclosed
  rw [scanned, ok_bind]
  cases found : Target.readEscaped verdict () s with
  | none => rfl
  | some ended =>
    obtain ⟨_, read, behind⟩ := ended
    obtain rfl := Target.readEscaped_append found
    have atEnd := inside.append
    dsimp only [Option.map_some, Option.bind_some]
    cases behind with
    | nil =>
      rw [if_neg (Nat.not_lt.mpr (Nat.le_of_eq atEnd.ahead.nil))]
      rfl
    | cons mark behind =>
      have isMark := Target.readEscaped_ascii passes found
      have positions := atEnd.ahead
      rw [bytes_cons_of_ascii isMark] at positions
      rw [if_pos positions.lt, inside.slice, ok_bind, (atEnd.tail isMark).eq_sub]
      rfl

theorem destination_eq {c : Char} (stands : Stands source i max (c :: s)) :
    destination source max i =
      .ok ((Target.destination? (c :: s)).map fun found => (found.1, max - size found.2)) := by
  have here := stands.ahead
  rw [bytes_cons_eq] at here
  unfold destination
  rw [here.byteAt, ok_bind, lead_beq (by decide)]
  by_cases isAngle : c = '<'
  · subst isAngle
    rw [if_pos (beq_self_eq_true _), enclosed_eq angledLook_eq passesHigh_angled (by decide) stands,
      ← Target.angled_eq]
    show _ = Except.ok (Option.map _ (Option.map _ (Target.angled? s)))
    rw [Option.map_map]
    rfl
  · rw [if_neg (by rw [beq_iff_eq]; exact isAngle),
      scanEscaped_eq bareLook_eq passesHigh_bare stands.ahead, ok_bind]
    have unangled : Target.destination? (c :: s) = (Target.bare? 0 (c :: s)).bind fun found =>
        if found.1.isEmpty then none else some (unescape found.1, found.2) := by
      unfold Target.destination?
      split
      · next begins => exact absurd (List.cons.inj begins).1 isAngle
      · rcases Target.bare? 0 (c :: s) with - | ⟨- | ⟨d, read⟩, behind⟩ <;> rfl
    rw [unangled, Target.bare_eq]
    cases found : Target.readEscaped Target.bareVerdict 0 (c :: s) with
    | none => rfl
    | some ended =>
      obtain ⟨depth, read, behind⟩ := ended
      have parts := Target.readEscaped_append found
      rw [parts] at stands
      have place : (i + size read == i) = read.isEmpty := by
        rw [Bool.eq_iff_iff, beq_iff_eq, List.isEmpty_iff, ← size_eq_zero]
        omega
      dsimp only [Option.map_some, Option.bind_some]
      rw [place, stands.slice, ok_bind, stands.append.eq_sub]
      cases depth with
      | succ depth =>
        rw [show (depth + 1 != 0) = true from rfl, Bool.or_true]
        rfl
      | zero =>
        cases read with
        | nil => rfl
        | cons d read => rfl

theorem title_eq {c : Char} (stands : Stands source i max (c :: s)) :
    title source max i =
      .ok ((Target.title? (c :: s)).map fun found => (found.1, max - size found.2)) := by
  have here := stands.ahead
  rw [bytes_cons_eq] at here
  unfold title
  rw [Target.title_cons, here.byteAt, ok_bind, lead_beq (by decide), lead_beq (by decide),
    lead_beq (by decide)]
  have enclosing : ∀ {close : Char}, close.toNat < 128 → c.toNat < 128 →
      enclosed (titleLook close) source max i = .ok (((Target.titleUpTo? close s).map fun found =>
        (unescape found.1, found.2)).map fun found => (found.1, max - size found.2)) := by
    intro close closeAscii isAscii
    rw [enclosed_eq (titleLook_eq close) (passesHigh_title closeAscii) isAscii stands,
      ← Target.titleUpTo_eq]
    cases Target.titleUpTo? close s <;> rfl
  by_cases quotes : (c == '"' || c == '\'') = true
  · have isAscii : c.toNat < 128 := by
      rcases Bool.or_eq_true_iff.mp quotes with same | same <;> rw [beq_iff_eq.mp same] <;> decide
    rw [if_pos quotes, if_pos quotes, lead_of_ascii isAscii]
    exact enclosing isAscii isAscii
  · rw [if_neg quotes, if_neg quotes]
    by_cases opens : (c == '(') = true
    · rw [if_pos opens, if_pos opens]
      exact enclosing (by decide) (beq_iff_eq.mp opens ▸ by decide)
    · rw [if_neg opens, if_neg opens]
      rfl

/-- A part that is left begins elsewhere just if it is shorter. -/
theorem Stands.sub_ne (stands : Stands source i max s) (isSuffix : rest <:+ s) :
    (max - size rest != max - size s) = decide (rest.length < s.length) := by
  obtain ⟨front, rfl⟩ := isSuffix
  have ends := stands.eq_sub
  have behind := stands.append.eq_sub
  rw [← behind, ← ends, List.length_append]
  cases front with
  | nil => simp
  | cons c front =>
    have positive : 0 < size (c :: front) := by
      rw [size_cons]
      exact Nat.add_pos_left (charBytes_length_pos c) _
    rw [List.length_cons]
    rw [Bool.eq_iff_iff, bne_iff_ne, decide_eq_true_eq]
    omega

theorem skipGaps_eq (stands : Stands source i max s) :
    skipGaps source.bytes max i = .ok (max - size (Target.skipBlanks s)) := by
  have blank : AsciiOnly fun c => c == ' ' || c == '\t' || c == '\n' :=
    ((asciiOnly_beq (by decide)).or (asciiOnly_beq (by decide))).or (asciiOnly_beq (by decide))
  exact skipWhile_text blank.uniform stands.ahead

theorem titled_eq {c : Char} (stands : Stands source i max (c :: s)) :
    titled source max i =
      .ok ((Target.destination? (c :: s)).map fun found =>
        ({ href := found.1, title := (Target.titleBehind found.2).1 },
          max - size (Target.titleBehind found.2).2)) := by
  unfold titled
  rw [destination_eq stands, ok_bind]
  generalize isFound : Target.destination? (c :: s) = found
  cases found with
  | none => rfl
  | some found =>
    obtain ⟨href, rest⟩ := found
    have atRest := stands.suffix (Target.destination_suffix isFound)
    dsimp only [Option.map_some]
    rw [skipGaps_eq atRest, ok_bind]
    have atBlanks := atRest.suffix (Target.skipBlanks_suffix rest)
    have moved := atRest.sub_ne (Target.skipBlanks_suffix rest)
    unfold Target.titleBehind
    dsimp only
    rw [moved]
    generalize Target.skipBlanks rest = blanks at *
    cases blanks with
    | nil =>
      have atEnd : decide (max - size [] < max) = false := decide_eq_false (Nat.lt_irrefl max)
      rw [atEnd]
      by_cases longer : ([] : Text).length < rest.length
      · rw [if_pos longer]
        rfl
      · rw [if_neg longer]
        rfl
    | cons d blanks =>
      have positions := atBlanks.ahead
      rw [bytes_cons_eq] at positions
      rw [decide_eq_true positions.lt, Bool.true_and]
      by_cases shorter : (d :: blanks).length < rest.length
      · rw [decide_eq_true shorter, if_pos rfl, if_pos shorter, title_eq atBlanks, ok_bind]
        generalize isTitle : Target.title? (d :: blanks) = found
        cases found with
        | none => rfl
        | some found =>
          dsimp only [Option.map_some]
          rw [skipGaps_eq (atBlanks.suffix (Target.title_suffix isTitle)), ok_bind]
          rfl
      · rw [decide_eq_false shorter, if_neg Bool.false_ne_true, if_neg shorter]
        rfl

theorem targetInside_eq {c : Char} (stands : Stands source i max (c :: s)) :
    targetInside source max i =
      .ok ((Target.inside? (c :: s)).map fun found => (found.1, max - size found.2)) := by
  have here := stands.ahead
  rw [bytes_cons_eq] at here
  unfold targetInside
  rw [Target.inside?, here.byteAt, ok_bind, bne, lead_beq (by decide)]
  cases closes : c == ')' with
  | true =>
    rw [stands.eq_sub]
    rfl
  | false =>
    rw [if_pos (by rfl), if_neg Bool.false_ne_true, titled_eq stands, Option.map_map]
    rfl

theorem closeTarget_eq (read : Target) (stands : Stands source i max s) :
    closeTarget source max (read, i) =
      .ok ((Target.closed? (read, s)).map fun found => (found.1, max - size found.2)) := by
  have here := stands.ahead
  unfold closeTarget
  dsimp only
  cases s with
  | nil =>
    rw [if_pos (Nat.le_of_eq here.nil)]
    rfl
  | cons c s =>
    rw [bytes_cons_eq] at here
    rw [if_neg (Nat.not_le_of_lt here.lt), here.byteAt, ok_bind, bne, lead_beq (by decide)]
    by_cases closes : c = ')'
    · subst closes
      rw [beq_self_eq_true, if_neg (by decide), (stands.tail (by decide)).eq_sub]
      rfl
    · unfold Target.closed?
      rw [beq_false_of_ne closes, if_pos (by rfl)]
      split
      · next same => exact absurd (List.cons.inj same).1 closes
      · rfl

theorem target_eq (stands : Stands source i max s) :
    target source max i =
      .ok ((Target.read? s).map fun found => (found.1, max - size found.2)) := by
  unfold target
  have here := stands.ahead
  cases s with
  | nil =>
    rw [if_pos (Nat.le_of_eq here.nil)]
    rfl
  | cons c s =>
    rw [bytes_cons_eq] at here
    rw [if_neg (Nat.not_le_of_lt here.lt), here.byteAt, ok_bind, bne, lead_beq (by decide)]
    by_cases opens : c = '('
    · subst opens
      have inside := stands.tail (by decide)
      have atBlanks := inside.suffix (Target.skipBlanks_suffix s)
      rw [beq_self_eq_true, if_neg (by decide), skipGaps_eq inside, ok_bind, Target.read_eq]
      generalize Target.skipBlanks s = blanks at atBlanks
      have positions := atBlanks.ahead
      cases blanks with
      | nil =>
        rw [if_pos (by exact Nat.le_refl max)]
        rfl
      | cons d blanks =>
        rw [bytes_cons_eq] at positions
        rw [if_neg (Nat.not_le_of_lt positions.lt), targetInside_eq atBlanks, ok_bind]
        generalize isInside : Target.inside? (d :: blanks) = found
        cases found with
        | none => rfl
        | some found =>
          exact closeTarget_eq found.1 (atBlanks.suffix (Target.inside_suffix isInside))
    · rw [beq_false_of_ne opens, if_pos (by rfl)]
      unfold Target.read?
      split
      · next same => exact absurd (List.cons.inj same).1 opens
      · rfl

end

end Checked

end ComponentMarkdown
