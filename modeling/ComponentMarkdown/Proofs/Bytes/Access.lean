import ComponentMarkdown.Text.Basic

/-!
# Access by bytes

A text is stored in UTF-8. A program that scans it by bytes has to keep its indexes inside of the
text, its slices on the boundaries of characters, and its numbers above zero. The file has:

* `Text.bytes`, the bytes of a text, and `Text.offset`, the byte at which a character begins;
* `Checked` for computations whose accesses are checked: `byteAt`, `slice`, `bytesIn`, `minus`;
* `slice_offset`: a slice between two characters is the text between them.
-/

namespace ComponentMarkdown

/-! ## Bytes -/

namespace Text

/-- The bytes of a character, each as the character with its number. -/
def charBytes (c : Char) : Text :=
  (String.utf8EncodeChar c).map fun byte => Char.ofNat byte.toNat

/-- The bytes of a text, each as the character with its number. -/
def bytes (s : Text) : Text :=
  s.flatMap charBytes

/-- How many bytes a text takes. -/
def size (s : Text) : Nat :=
  s.bytes.length

/-- The byte at which the character of an index begins. Behind the text, characters count one. -/
def offset (s : Text) (index : Nat) : Nat :=
  size (s.take index) + (index - s.length)

/-- What is left behind the first bytes, if a character ends there. -/
def dropBytes? : Nat → Text → Option Text
  | 0, s => some s
  | _ + 1, [] => none
  | count + 1, c :: s =>
    if (charBytes c).length ≤ count + 1 then dropBytes? (count + 1 - (charBytes c).length) s
    else none

/-- The first bytes as a text, if a character ends there. -/
def takeBytes? : Nat → Text → Option Text
  | 0, _ => some []
  | _ + 1, [] => none
  | count + 1, c :: s =>
    if (charBytes c).length ≤ count + 1 then
      (takeBytes? (count + 1 - (charBytes c).length) s).map (c :: ·)
    else none

end Text

/-! ## Checked computations -/

/-- What is wrong with an access. -/
inductive Fault where
  /-- An index outside of what is accessed. -/
  | index
  /-- A slice outside of a text, or that divides a character. -/
  | slice
  /-- A number below zero. -/
  | underflow
  /-- A recursion that is deeper than it should be. -/
  | depth
deriving DecidableEq, Repr

/-- A computation that ends where an access is wrong. -/
abbrev Checked := Except Fault

namespace Checked

@[simp] theorem ok_bind {α β : Type} (a : α) (f : α → Checked β) :
    (Except.ok a >>= f : Checked β) = f a := rfl

/-- The byte at an index. -/
def byteAt (bytes : Text) (index : Nat) : Checked Char :=
  match bytes[index]? with
  | some byte => return byte
  | none => throw .index

/-- The bytes from an index up to another one. -/
def bytesIn (bytes : Text) (first stop : Nat) : Checked Text :=
  if first ≤ stop ∧ stop ≤ bytes.length then return (bytes.take stop).drop first
  else throw .index

/-- The text from a byte up to another one. -/
def slice (s : Text) (first stop : Nat) : Checked Text :=
  if first ≤ stop then
    match (s.dropBytes? first).bind (Text.takeBytes? (stop - first)) with
    | some found => return found
    | none => throw .slice
  else throw .slice

/-- The difference of two numbers. -/
def minus (a b : Nat) : Checked Nat :=
  if b ≤ a then return a - b else throw .underflow

/-- The member of an index. -/
def member {α : Type} (members : Array α) (index : Nat) : Checked α :=
  match members[index]? with
  | some found => return found
  | none => throw .index

/-- Puts another member in the place of the one of an index. -/
def setMember {α : Type} (members : Array α) (index : Nat) (value : α) : Checked (Array α) :=
  if index < members.size then return members.setIfInBounds index value
  else throw .index

end Checked

/-! ## Bytes of characters -/

namespace Text

variable {c : Char} {s t : Text} {index other : Nat}

theorem charBytes_of_ascii (isAscii : c.toNat < 128) : charBytes c = [c] := by
  have small : c.val.toNat ≤ 127 := Nat.le_of_lt_succ isAscii
  have number : (UInt8.ofNat c.val.toNat).toNat = c.toNat := by
    rw [UInt8.toNat_ofNat']
    exact Nat.mod_eq_of_lt (Nat.lt_trans isAscii (by decide))
  unfold charBytes String.utf8EncodeChar
  dsimp only
  rw [if_pos small, List.map_singleton, number, Char.ofNat_toNat]

theorem high_byte {byte : Nat} (high : 128 ≤ byte) (isByte : byte < 256) :
    128 ≤ (Char.ofNat (UInt8.ofNat byte).toNat).toNat := by
  have valid : byte.isValidChar := .inl (Nat.lt_trans isByte (by decide))
  rw [UInt8.toNat_ofNat', Nat.mod_eq_of_lt isByte, Char.ofNat, dif_pos valid]
  exact high

/-- No byte of another character is one of ASCII. -/
theorem charBytes_high (high : 128 ≤ c.toNat) : ∀ byte ∈ charBytes c, 128 ≤ byte.toNat := by
  have large : ¬ c.val.toNat ≤ 127 := Nat.not_le.mpr high
  unfold charBytes String.utf8EncodeChar
  dsimp only
  rw [if_neg large]
  split
  · simp only [List.map_cons, List.map_nil, List.forall_mem_cons]
    exact ⟨high_byte (by omega) (by omega), high_byte (by omega) (by omega),
      List.forall_mem_nil _⟩
  · split
    · simp only [List.map_cons, List.map_nil, List.forall_mem_cons]
      exact ⟨high_byte (by omega) (by omega), high_byte (by omega) (by omega),
        high_byte (by omega) (by omega), List.forall_mem_nil _⟩
    · simp only [List.map_cons, List.map_nil, List.forall_mem_cons]
      exact ⟨high_byte (by omega) (by omega), high_byte (by omega) (by omega),
        high_byte (by omega) (by omega), high_byte (by omega) (by omega), List.forall_mem_nil _⟩

theorem charBytes_length_pos (c : Char) : 0 < (charBytes c).length := by
  unfold charBytes
  rw [List.length_map, String.length_utf8EncodeChar]
  exact c.utf8Size_pos

/-- Only characters of ASCII take a single byte. -/
theorem charBytes_length_high (high : 128 ≤ c.toNat) : 2 ≤ (charBytes c).length := by
  unfold charBytes
  rw [List.length_map, String.length_utf8EncodeChar]
  unfold Char.utf8Size
  dsimp only
  split
  · next small => exact absurd (UInt32.le_iff_toNat_le.mp small) (Nat.not_le.mpr high)
  · split
    · exact Nat.le_refl 2
    · split <;> decide

@[simp] theorem bytes_nil : bytes [] = [] := rfl

theorem bytes_cons (c : Char) (s : Text) : bytes (c :: s) = charBytes c ++ bytes s :=
  List.flatMap_cons ..

theorem bytes_append (s t : Text) : bytes (s ++ t) = bytes s ++ bytes t :=
  List.flatMap_append

theorem bytes_cons_of_ascii (isAscii : c.toNat < 128) (s : Text) :
    bytes (c :: s) = c :: bytes s := by
  rw [bytes_cons, charBytes_of_ascii isAscii]
  rfl

/-- A text of ASCII characters is what its bytes are. -/
theorem bytes_of_ascii (isAscii : ∀ c ∈ s, c.toNat < 128) : bytes s = s := by
  induction s with
  | nil => rfl
  | cons c s ih =>
    obtain ⟨first, others⟩ := List.forall_mem_cons.mp isAscii
    rw [bytes_cons_of_ascii first, ih others]

@[simp] theorem size_nil : size [] = 0 := rfl

theorem size_cons (c : Char) (s : Text) : size (c :: s) = (charBytes c).length + size s := by
  unfold size
  rw [bytes_cons, List.length_append]

theorem size_append (s t : Text) : size (s ++ t) = size s + size t := by
  unfold size
  rw [bytes_append, List.length_append]

theorem size_of_ascii (isAscii : ∀ c ∈ s, c.toNat < 128) : size s = s.length := by
  unfold size
  rw [bytes_of_ascii isAscii]

theorem size_eq_zero : size s = 0 ↔ s = [] := by
  cases s with
  | nil => exact ⟨fun _ => rfl, fun _ => rfl⟩
  | cons c s =>
    rw [size_cons]
    exact ⟨fun none => absurd none (Nat.ne_of_gt (Nat.add_pos_left (charBytes_length_pos c) _)),
      nofun⟩

theorem length_le_size (s : Text) : s.length ≤ size s := by
  induction s with
  | nil => exact Nat.le_refl 0
  | cons c s ih =>
    rw [List.length_cons, size_cons, Nat.add_comm]
    exact Nat.add_le_add (charBytes_length_pos c) ih

/-! ## Offsets -/

theorem offset_append (s t : Text) : offset (s ++ t) s.length = size s := by
  unfold offset
  rw [List.take_left, List.length_append, Nat.sub_add_eq, Nat.sub_self, Nat.zero_sub, Nat.add_zero]

theorem offset_of_eq {source : Text} (same : source = s ++ t) (isLength : index = s.length) :
    offset source index = size s := by
  rw [same, isLength, offset_append]

theorem offset_eq (inText : index ≤ s.length) : offset s index = size (s.take index) := by
  rw [offset, Nat.sub_eq_zero_of_le inText, Nat.add_zero]

@[simp] theorem offset_zero (s : Text) : offset s 0 = 0 := by
  unfold offset
  rw [List.take_zero, Nat.zero_sub]
  rfl

theorem offset_length (s : Text) : offset s s.length = size s := by
  unfold offset
  rw [List.take_length, Nat.sub_self, Nat.add_zero]

theorem offset_succ_gt (s : Text) (index : Nat) : offset s index < offset s (index + 1) := by
  unfold offset
  cases found : s[index]? with
  | none =>
    have beyond := List.getElem?_eq_none_iff.mp found
    rw [List.take_of_length_le beyond, List.take_of_length_le (Nat.le_succ_of_le beyond),
      Nat.succ_sub beyond]
    exact Nat.lt_succ_self _
  | some c =>
    obtain ⟨inText, -⟩ := List.getElem?_eq_some_iff.mp found
    rw [List.take_add_one, found, size_append, Nat.sub_eq_zero_of_le inText,
      Nat.sub_eq_zero_of_le (Nat.le_of_lt inText)]
    have positive : 0 < size (some c).toList := by
      rw [Option.toList_some, size_cons]
      exact Nat.add_pos_left (charBytes_length_pos c) _
    exact Nat.lt_add_of_pos_right positive

theorem offset_strictMono (s : Text) (less : index < other) : offset s index < offset s other := by
  induction other with
  | zero => exact absurd less (Nat.not_lt_zero _)
  | succ other ih =>
    rcases Nat.lt_or_eq_of_le (Nat.le_of_lt_succ less) with less | rfl
    · exact Nat.lt_trans (ih less) (offset_succ_gt s other)
    · exact offset_succ_gt s index

theorem offset_lt : offset s index < offset s other ↔ index < other := by
  refine ⟨fun less => Nat.lt_of_not_le fun notLess => ?_, offset_strictMono s⟩
  rcases Nat.lt_or_eq_of_le notLess with more | rfl
  · exact absurd less (Nat.lt_asymm (offset_strictMono s more))
  · exact absurd less (Nat.lt_irrefl _)

theorem offset_le : offset s index ≤ offset s other ↔ index ≤ other := by
  rw [← Nat.not_lt, offset_lt, Nat.not_lt]

theorem offset_inj : offset s index = offset s other ↔ index = other :=
  ⟨fun same => Nat.le_antisymm (offset_le.mp (Nat.le_of_eq same))
    (offset_le.mp (Nat.le_of_eq same.symm)), fun same => same ▸ rfl⟩

/-! ## Slices -/

theorem dropBytes?_append (s t : Text) : dropBytes? (size s) (s ++ t) = some t := by
  induction s with
  | nil => cases t <;> rfl
  | cons c s ih =>
    obtain ⟨rest, positive⟩ := Nat.exists_eq_succ_of_ne_zero
      (Nat.ne_of_gt (Nat.add_pos_left (charBytes_length_pos c) (size s)))
    rw [size_cons, positive, List.cons_append, dropBytes?, ← Nat.succ_eq_add_one, ← positive,
      if_pos (Nat.le_add_right ..), Nat.add_sub_cancel_left]
    exact ih

theorem takeBytes?_append (s t : Text) : takeBytes? (size s) (s ++ t) = some s := by
  induction s with
  | nil => cases t <;> rfl
  | cons c s ih =>
    obtain ⟨rest, positive⟩ := Nat.exists_eq_succ_of_ne_zero
      (Nat.ne_of_gt (Nat.add_pos_left (charBytes_length_pos c) (size s)))
    rw [size_cons, positive, List.cons_append, takeBytes?, ← Nat.succ_eq_add_one, ← positive,
      if_pos (Nat.le_add_right ..), Nat.add_sub_cancel_left, ih]
    rfl

end Text

namespace Checked

open Text

variable {s before found behind : Text} {first stop : Nat}

/-- A slice between characters. -/
theorem slice_append (before found behind : Text) :
    slice (before ++ (found ++ behind)) (size before) (size before + size found) = .ok found := by
  unfold slice
  rw [if_pos (Nat.le_add_right ..), Nat.add_sub_cancel_left, dropBytes?_append, Option.bind_some,
    takeBytes?_append]
  rfl

theorem slice_of_eq (same : s = before ++ (found ++ behind)) (begins : first = size before)
    (ends : stop = size before + size found) : slice s first stop = .ok found := by
  rw [same, begins, ends, slice_append]

/-- The slice between the characters of two indexes is the text between them. -/
theorem slice_offset (ordered : first ≤ stop) (inText : stop ≤ s.length) :
    slice s (offset s first) (offset s stop) = .ok ((s.take stop).drop first) := by
  have front : s = s.take first ++ ((s.take stop).drop first ++ s.drop stop) := by
    rw [← List.append_assoc]
    conv => lhs; rw [← List.take_append_drop stop s]
    congr 1
    conv => lhs; rw [← List.take_append_drop first (s.take stop)]
    rw [List.take_take, Nat.min_eq_left ordered]
  have length : (s.take first).length = first :=
    List.length_take_of_le (Nat.le_trans ordered inText)
  refine slice_of_eq front (offset_of_eq front length.symm) ?_
  rw [← size_append]
  refine offset_of_eq (t := s.drop stop) (by rw [List.append_assoc]; exact front) ?_
  rw [List.length_append, length, List.length_drop, List.length_take_of_le inText,
    Nat.add_sub_cancel' ordered]

theorem byteAt_of_drop {bytes rest : Text} {index : Nat} {c : Char}
    (here : bytes.drop index = c :: rest) : byteAt bytes index = .ok c := by
  unfold byteAt
  rw [← List.head?_drop, here]
  rfl

theorem bytesIn_of_drop {bytes rest more : Text} (ordered : first ≤ stop)
    (here : bytes.drop first = rest ++ more) (isLength : stop = first + rest.length)
    (inBytes : stop ≤ bytes.length) : bytesIn bytes first stop = .ok rest := by
  unfold bytesIn
  rw [if_pos ⟨ordered, inBytes⟩, List.drop_take, here, isLength, Nat.add_sub_cancel_left,
    List.take_left]
  rfl

theorem minus_of_le {a b : Nat} (enough : b ≤ a) : minus a b = .ok (a - b) :=
  if_pos enough

end Checked

end ComponentMarkdown
