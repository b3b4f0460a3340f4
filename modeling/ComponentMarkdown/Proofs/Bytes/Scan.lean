import Mathlib.Data.List.TakeWhile
import ComponentMarkdown.Proofs.Bytes.Access
import ComponentMarkdown.Proofs.Text.Runs

/-!
# Scans by bytes

A scan looks at one byte after the other. All bytes of a character beyond ASCII are beyond ASCII, so
that a scan for characters of ASCII passes them by. The file has:

* `Text.lead`, the byte that a scan sees of a character, and what passes the bytes behind it;
* `Checked.Ahead`, what lies between an index and the end of a window;
* `skipWhile` for scans that skip characters, and what they skip.
-/

namespace ComponentMarkdown

namespace Text

variable {p : Char → Bool} {c : Char} {s t : Text}

/-! ## What a scan sees -/

/-- The first byte of a character. -/
def lead (c : Char) : Char :=
  (charBytes c).headD c

/-- The bytes behind the first one. -/
def trail (c : Char) : Text :=
  (charBytes c).tail

theorem charBytes_eq (c : Char) : charBytes c = lead c :: trail c := by
  unfold lead trail
  cases found : charBytes c with
  | nil => exact absurd (charBytes_length_pos c) (by rw [found]; exact Nat.lt_irrefl 0)
  | cons byte more => rfl

theorem bytes_cons_eq (c : Char) (s : Text) : bytes (c :: s) = lead c :: (trail c ++ bytes s) := by
  rw [bytes_cons, charBytes_eq]
  rfl

theorem lead_of_ascii (isAscii : c.toNat < 128) : lead c = c := by
  unfold lead
  rw [charBytes_of_ascii isAscii]
  rfl

theorem lead_high (high : 128 ≤ c.toNat) : 128 ≤ (lead c).toNat := by
  refine charBytes_high high _ ?_
  rw [charBytes_eq]
  exact List.mem_cons_self ..

theorem trail_of_ascii (isAscii : c.toNat < 128) : trail c = [] := by
  unfold trail
  rw [charBytes_of_ascii isAscii]
  rfl

theorem trail_high (c : Char) : ∀ byte ∈ trail c, 128 ≤ byte.toNat := by
  rcases Nat.lt_or_ge c.toNat 128 with isAscii | high
  · rw [trail_of_ascii isAscii]
    exact List.forall_mem_nil _
  · intro byte member
    exact charBytes_high high byte (charBytes_eq c ▸ List.mem_cons_of_mem _ member)

/-- The predicate holds of characters of ASCII only. -/
def AsciiOnly (p : Char → Bool) : Prop :=
  ∀ c, p c = true → c.toNat < 128

/-- Beyond ASCII the predicate tells no characters apart. -/
def Uniform (p : Char → Bool) : Prop :=
  ∀ c d : Char, 128 ≤ c.toNat → 128 ≤ d.toNat → p c = p d

theorem AsciiOnly.of_high (only : AsciiOnly p) (high : 128 ≤ c.toNat) : p c = false :=
  Bool.eq_false_iff.mpr fun holds => Nat.not_lt.mpr high (only c holds)

theorem AsciiOnly.uniform (only : AsciiOnly p) : Uniform p :=
  fun _ _ high high' => (only.of_high high).trans (only.of_high high').symm

theorem AsciiOnly.not (only : AsciiOnly p) : Uniform fun c => !p c :=
  fun c d high high' => congrArg (!·) (only.uniform c d high high')

theorem AsciiOnly.or {q : Char → Bool} (only : AsciiOnly p) (other : AsciiOnly q) :
    AsciiOnly fun c => p c || q c := by
  intro c holds
  rcases Bool.or_eq_true_iff.mp holds with holds | holds
  · exact only c holds
  · exact other c holds

theorem asciiOnly_beq {mark : Char} (isAscii : mark.toNat < 128) : AsciiOnly (· == mark) := by
  intro c same
  rw [beq_iff_eq.mp same]
  exact isAscii

theorem Uniform.lead (uniform : Uniform p) (c : Char) : p (lead c) = p c := by
  rcases Nat.lt_or_ge c.toNat 128 with isAscii | high
  · rw [lead_of_ascii isAscii]
  · exact uniform _ _ (lead_high high) high

/-- Comparing a byte with a character of ASCII is comparing the character. -/
theorem lead_beq {mark : Char} (isAscii : mark.toNat < 128) (c : Char) :
    (lead c == mark) = (c == mark) :=
  (asciiOnly_beq isAscii).uniform.lead c

theorem lead_eq {mark : Char} (isAscii : mark.toNat < 128) : lead c = mark ↔ c = mark := by
  rw [← beq_iff_eq, lead_beq isAscii, beq_iff_eq]

/-! ## Skipping characters -/

theorem takeWhile_bytes (uniform : Uniform p) (s : Text) :
    (bytes s).takeWhile p = bytes (s.takeWhile p) := by
  induction s with
  | nil => rfl
  | cons c s ih =>
    rw [bytes_cons_eq, List.takeWhile_cons, List.takeWhile_cons, uniform.lead]
    cases holds : p c with
    | false => rfl
    | true =>
      have passes : ∀ byte ∈ trail c, p byte = true := by
        intro byte member
        rcases Nat.lt_or_ge c.toNat 128 with isAscii | high
        · rw [trail_of_ascii isAscii] at member
          cases member
        · rw [uniform byte c (trail_high c byte member) high, holds]
      rw [if_pos rfl, if_pos rfl, List.takeWhile_append_of_pos passes, ih, bytes_cons_eq]

theorem head?_bytes (s : Text) : (bytes s).head? = s.head?.map lead := by
  cases s with
  | nil => rfl
  | cons c s => rw [bytes_cons_eq]; rfl

/-- Skipping characters of ASCII skips as many bytes. -/
theorem AsciiOnly.takeWhile_bytes (only : AsciiOnly p) (s : Text) :
    (bytes s).takeWhile p = s.takeWhile p := by
  rw [Text.takeWhile_bytes only.uniform]
  exact bytes_of_ascii fun c member => only c (List.mem_takeWhile_imp member)

/-- What holds of all characters holds of all bytes. -/
theorem all_bytes (uniform : Uniform p) (s : Text) : (bytes s).all p = s.all p := by
  induction s with
  | nil => rfl
  | cons c s ih =>
    have first : (charBytes c).all p = p c := by
      rcases Nat.lt_or_ge c.toNat 128 with isAscii | high
      · rw [charBytes_of_ascii isAscii, List.all_cons, List.all_nil, Bool.and_true]
      · rw [Bool.eq_iff_iff, List.all_eq_true]
        constructor
        · intro all
          rw [← uniform.lead]
          exact all _ (charBytes_eq c ▸ List.mem_cons_self ..)
        · intro holds byte member
          rwa [uniform byte c (charBytes_high high byte member) high]
    rw [bytes_cons, List.all_append, List.all_cons, first, ih]

/-- Characters of ASCII are found among the bytes. -/
theorem AsciiOnly.filter_bytes (only : AsciiOnly p) (s : Text) :
    (bytes s).filter p = s.filter p := by
  induction s with
  | nil => rfl
  | cons c s ih =>
    rcases Nat.lt_or_ge c.toNat 128 with isAscii | high
    · rw [bytes_cons_of_ascii isAscii, List.filter_cons, List.filter_cons, ih]
    · have none : (charBytes c).filter p = [] :=
        List.filter_eq_nil_iff.mpr fun byte member =>
          Bool.eq_false_iff.mp (only.of_high (charBytes_high high byte member))
      rw [bytes_cons, List.filter_append, none, List.nil_append, ih,
        List.filter_cons_of_neg (Bool.eq_false_iff.mp (only.of_high high))]

/-! ## Runs of a mark -/

section

variable {mark : Char}

theorem runLength_bytes (isAscii : mark.toNat < 128) (s : Text) :
    runLength mark (bytes s) = runLength mark s := by
  unfold runLength
  rw [(asciiOnly_beq isAscii).takeWhile_bytes]

theorem runLength_of_ne {c : Char} (different : ¬ (c == mark) = true) (s : Text) :
    runLength mark (c :: s) = 0 := by
  unfold runLength
  rw [List.takeWhile_cons, if_neg different]
  rfl

theorem bytes_replicate (isAscii : mark.toNat < 128) (count : Nat) :
    bytes (List.replicate count mark) = List.replicate count mark :=
  bytes_of_ascii fun _ member => (List.mem_replicate.mp member).2 ▸ isAscii

end

end Text

namespace Checked

open Text

variable {b w rest : Text} {c : Char} {i max : Nat} {p : Char → Bool}

/-- The bytes from an index up to the end of a window. -/
def Ahead (b : Text) (i max : Nat) (w : Text) : Prop :=
  ∃ behind, b.drop i = w ++ behind ∧ max = i + w.length

namespace Ahead

theorem whole (b : Text) : Ahead b 0 b.length b :=
  ⟨[], (List.append_nil b).symm, (Nat.zero_add _).symm⟩

theorem of_append (before found behind : Text) :
    Ahead (bytes (before ++ (found ++ behind))) (size before) (size before + size found)
      (bytes found) := by
  refine ⟨bytes behind, ?_, rfl⟩
  rw [bytes_append, bytes_append]
  exact List.drop_left

theorem nil (ahead : Ahead b i max []) : max = i := by
  obtain ⟨behind, -, ends⟩ := ahead
  exact ends

theorem append {x y : Text} (ahead : Ahead b i max (x ++ y)) : Ahead b (i + x.length) max y := by
  obtain ⟨behind, here, ends⟩ := ahead
  refine ⟨behind, ?_, ?_⟩
  · rw [← List.drop_drop, here, List.append_assoc, List.drop_left]
  · rw [ends, List.length_append, Nat.add_assoc]

theorem front {x y : Text} (ahead : Ahead b i max (x ++ y)) : Ahead b i (i + x.length) x := by
  obtain ⟨behind, here, -⟩ := ahead
  exact ⟨y ++ behind, by rw [here, List.append_assoc], rfl⟩

theorem tail (ahead : Ahead b i max (c :: w)) : Ahead b (i + 1) max w :=
  append (x := [c]) ahead

theorem lt (ahead : Ahead b i max (c :: w)) : i < max := by
  obtain ⟨behind, -, ends⟩ := ahead
  rw [ends, List.length_cons]
  omega

theorem byteAt (ahead : Ahead b i max (c :: w)) : byteAt b i = .ok c := by
  obtain ⟨behind, here, -⟩ := ahead
  exact byteAt_of_drop here

/-- The first byte ahead, read without a check. -/
theorem getElem?_head (ahead : Ahead b i max (c :: w)) : b[i]? = some c := by
  obtain ⟨behind, here, -⟩ := ahead
  rw [← List.head?_drop, here]
  rfl

theorem le_length (ahead : Ahead b i max w) (inText : i ≤ b.length) : max ≤ b.length := by
  obtain ⟨behind, here, ends⟩ := ahead
  have lengths := congrArg List.length here
  rw [List.length_drop, List.length_append] at lengths
  omega

theorem bytesIn (ahead : Ahead b i max w) (inText : i ≤ b.length) :
    bytesIn b i max = .ok w := by
  have inBytes := ahead.le_length inText
  obtain ⟨behind, here, ends⟩ := ahead
  exact bytesIn_of_drop (by omega) here ends inBytes

/-- At the end of the bytes, nothing is left to be read without a check. -/
theorem getElem? (ahead : Ahead b i b.length w) : b[i]? = w.head? := by
  obtain ⟨behind, here, ends⟩ := ahead
  have lengths := congrArg List.length here
  rw [List.length_drop, List.length_append] at lengths
  have none : behind = [] := List.length_eq_zero_iff.mp (by omega)
  rw [← List.head?_drop, here, none, List.append_nil]

/-- What is left of a text lies at the end of the window. -/
theorem suffix (ahead : Ahead b i max (bytes w)) (isSuffix : rest <:+ w) :
    Ahead b (max - size rest) max (bytes rest) := by
  obtain ⟨before, rfl⟩ := isSuffix
  rw [bytes_append] at ahead
  have ends := ahead.append
  obtain ⟨-, -, isMax⟩ := ends
  have place : max - size rest = i + (bytes before).length := by
    rw [isMax]
    exact Nat.add_sub_cancel ..
  rw [place]
  exact ahead.append

theorem eq_sub (ahead : Ahead b i max (bytes w)) : i = max - size w := by
  obtain ⟨-, -, ends⟩ := ahead
  rw [ends]
  exact (Nat.add_sub_cancel ..).symm

end Ahead

/-! ## Scans -/

/-- The index behind the bytes from `i` on that satisfy `p`. -/
def skipWhile (p : Char → Bool) (b : Text) (max i : Nat) : Checked Nat :=
  if i < max then do
    let c ← byteAt b i
    if p c then skipWhile p b max (i + 1) else return i
  else return i
termination_by max - i

theorem skipWhile_ahead (ahead : Ahead b i max w) :
    skipWhile p b max i = .ok (i + (w.takeWhile p).length) := by
  induction w generalizing i with
  | nil =>
    rw [skipWhile, if_neg (Nat.not_lt.mpr (Nat.le_of_eq ahead.nil))]
    rfl
  | cons c w ih =>
    rw [skipWhile, if_pos ahead.lt, ahead.byteAt]
    show (if p c then _ else _) = _
    rw [List.takeWhile_cons]
    cases p c with
    | false => rfl
    | true =>
      rw [if_pos rfl, if_pos rfl, ih ahead.tail, List.length_cons, Nat.add_right_comm]
      rfl

/-- Skipping leads to what is left of the text without the characters. -/
theorem skipWhile_text (uniform : Uniform p) (ahead : Ahead b i max (bytes w)) :
    skipWhile p b max i = .ok (max - size (w.dropWhile p)) := by
  rw [skipWhile_ahead ahead, takeWhile_bytes uniform]
  obtain ⟨-, -, ends⟩ := ahead
  have whole := size_append (w.takeWhile p) (w.dropWhile p)
  rw [List.takeWhile_append_dropWhile] at whole
  congr 1
  unfold size at whole ⊢
  omega

/-- Skipping a run of marks leads to what follows them. -/
theorem skipWhile_run {mark : Char} (isAscii : mark.toNat < 128) (ahead : Ahead b i max (bytes w)) :
    skipWhile (· == mark) b max i = .ok (i + runLength mark w) ∧
      Ahead b (i + runLength mark w) max (bytes (w.drop (runLength mark w))) := by
  constructor
  · rw [skipWhile_ahead ahead]
    exact congrArg (fun length => Except.ok (i + length)) (runLength_bytes isAscii w)
  · have whole := replicate_append_drop mark w
    rw [← whole, bytes_append, bytes_replicate isAscii] at ahead
    have behind := ahead.append
    rwa [List.length_replicate] at behind

/-- A scan that comes to the end has found nothing else. -/
theorem skipWhile_atEnd (uniform : Uniform p) (ahead : Ahead b i max (bytes w)) :
    (do return decide (max ≤ (← skipWhile p b max i)) : Checked Bool) = .ok (w.all p) := by
  have ends := ahead.suffix (List.dropWhile_suffix p)
  rw [skipWhile_text uniform ahead, ok_bind]
  refine congrArg Except.ok ?_
  cases rest : w.dropWhile p with
  | nil =>
    have all : w.all p = true := List.all_eq_true.mpr (List.dropWhile_eq_nil_iff.mp rest)
    rw [all]
    exact decide_eq_true (Nat.le_refl _)
  | cons c others =>
    have notAll : w.all p = false := by
      rw [Bool.eq_false_iff]
      intro all
      rw [List.dropWhile_eq_nil_iff.mpr (List.all_eq_true.mp all)] at rest
      cases rest
    rw [rest, bytes_cons_eq] at ends
    rw [notAll]
    exact decide_eq_false (Nat.not_le_of_lt ends.lt)

end Checked

end ComponentMarkdown
