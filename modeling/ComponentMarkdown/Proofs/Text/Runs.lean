import ComponentMarkdown.Text.Basic

/-!
# Runs of a marker and fixed fronts

A text is a run of a marker, which may be empty, and what is behind it. `HasRun` says that a run of
a given length stands somewhere in a text. A text that begins with a fixed front is the front and
what is behind it. `Behind` says that a scanner took at least one character and left the others.
-/

namespace ComponentMarkdown.Text

variable {marker : Char} {s : Text}

theorem runLength_le (marker : Char) (s : Text) : runLength marker s ≤ s.length :=
  (List.takeWhile_prefix _).length_le

/-- A run that begins with its marker is not empty. -/
theorem runLength_pos (marker : Char) (s : Text) : 0 < runLength marker (marker :: s) := by
  simp [runLength]

theorem takeWhile_beq (marker : Char) (s : Text) :
    s.takeWhile (· == marker) = List.replicate (runLength marker s) marker :=
  List.eq_replicate_iff.mpr ⟨rfl, fun c member =>
    eq_of_beq (List.all_eq_true.mp (@List.all_takeWhile _ (· == marker) s) c member)⟩

theorem drop_runLength (marker : Char) (s : Text) :
    s.drop (runLength marker s) = s.dropWhile (· == marker) := by
  have behind := @List.drop_left _ (s.takeWhile (· == marker)) (s.dropWhile (· == marker))
  rwa [List.takeWhile_append_dropWhile] at behind

theorem replicate_append_drop (marker : Char) (s : Text) :
    List.replicate (runLength marker s) marker ++ s.drop (runLength marker s) = s := by
  rw [drop_runLength, ← takeWhile_beq, List.takeWhile_append_dropWhile]

/-- The characters of a run are its marker. -/
theorem getElem?_of_lt_runLength {i : Nat} (inRun : i < runLength marker s) :
    s[i]? = some marker := by
  rw [← replicate_append_drop marker s, List.getElem?_append_left (by simpa using inRun),
    List.getElem?_replicate_of_lt inRun]

/-- Behind a run stands no marker. -/
theorem ne_of_behind_run {c : Char} (next : (s.drop (runLength marker s)).head? = some c) :
    c ≠ marker := by
  rintro rfl
  have differs := List.head?_dropWhile_not (· == c) s
  rw [← drop_runLength, next] at differs
  simp at differs

theorem runLength_of_head (other : s.head? ≠ some marker) : runLength marker s = 0 := by
  cases s with
  | nil => rfl
  | cons c s => rw [runLength, List.takeWhile_cons_of_neg (by simpa using other), List.length_nil]

/-- In front of something else, a run is as long as it is alone. -/
theorem runLength_append {rest : Text} (ends : rest.head? ≠ some marker) (s : Text) :
    runLength marker (s ++ rest) = runLength marker s := by
  have none : rest.takeWhile (· == marker) = [] :=
    List.length_eq_zero_iff.mp (runLength_of_head ends)
  rw [runLength, runLength, List.takeWhile_append, none, List.append_nil]
  split
  · next all => rw [all]
  · rfl

theorem runLength_replicate (marker : Char) (count : Nat) :
    runLength marker (List.replicate count marker) = count := by
  rw [runLength, List.takeWhile_replicate, if_pos (beq_self_eq_true marker),
    List.length_replicate]

/-! ## Runs of a given length -/

/-- Does the text hold exactly so many markers, with no marker on either side? -/
def HasRun (marker : Char) (count : Nat) (s : Text) : Prop :=
  ∃ front behind, s = front ++ behind ∧ front.getLast? ≠ some marker ∧
    runLength marker behind = count

instance (marker : Char) (count : Nat) (s : Text) : Decidable (HasRun marker count s) :=
  decidable_of_iff
    (∃ i ≤ s.length, (s.take i).getLast? ≠ some marker ∧ runLength marker (s.drop i) = count)
    ⟨fun ⟨i, _, run⟩ => ⟨s.take i, s.drop i, (List.take_append_drop i s).symm, run⟩,
      fun ⟨front, _, whole, run⟩ =>
        ⟨front.length, by simp [whole], by simpa [whole] using run⟩⟩

variable {count : Nat}

/-- The run that a text begins with. -/
theorem hasRun_runLength (marker : Char) (s : Text) : HasRun marker (runLength marker s) s :=
  ⟨[], s, rfl, nofun, rfl⟩

theorem HasRun.cons {c : Char} (other : c ≠ marker) (run : HasRun marker count s) :
    HasRun marker count (c :: s) := by
  obtain ⟨front, behind, rfl, apart, long⟩ := run
  refine ⟨c :: front, behind, rfl, ?_, long⟩
  cases front with
  | nil => simpa using other
  | cons _ _ => exact apart

/-- Behind the run that a text begins with, all runs are runs of the text. -/
theorem HasRun.of_drop (positive : 0 < count)
    (run : HasRun marker count (s.drop (runLength marker s))) : HasRun marker count s := by
  obtain ⟨front, behind, whole, apart, long⟩ := run
  have stops : (s.drop (runLength marker s)).head? ≠ some marker :=
    fun next => ne_of_behind_run next rfl
  refine ⟨List.replicate (runLength marker s) marker ++ front, behind, ?_, ?_, long⟩
  · rw [List.append_assoc, ← whole, replicate_append_drop]
  · cases front with
    | nil =>
      rw [List.nil_append] at whole
      rw [← whole, runLength_of_head stops] at long
      exact absurd long (Nat.ne_of_lt positive)
    | cons c front => simpa [List.getLast?_append] using apart

/-! ## Fixed fronts -/

theorem dropPrefix?_eq_some {front s rest : Text} :
    dropPrefix? front s = some rest ↔ s = front ++ rest := by
  induction front generalizing s with
  | nil => simp [dropPrefix?]
  | cons c front ih =>
    cases s with
    | nil => simp [dropPrefix?]
    | cons d s =>
      rw [dropPrefix?]
      split
      · next same =>
        rw [ih, beq_iff_eq.mp same, List.cons_append, List.cons.injEq, and_iff_right rfl]
      · next different =>
        simpa using fun same => absurd (beq_iff_eq.mpr same.symm) different

theorem startsWith_iff {front s : Text} :
    startsWith front s = true ↔ ∃ rest, s = front ++ rest := by
  simp [startsWith, Option.isSome_iff_exists, dropPrefix?_eq_some]

/-! ## What is left -/

/-- What is left of a text behind at least one character. -/
structure Behind (rest s : Text) : Prop where
  suffix : rest <:+ s
  shorter : rest.length < s.length

namespace Behind

theorem cons {rest s : Text} (c : Char) (ends : rest <:+ s) : Behind rest (c :: s) where
  suffix := ends.trans (List.suffix_cons c s)
  shorter := Nat.lt_succ_of_le ends.length_le

theorem of_cons_suffix {rest s : Text} {c : Char} (ends : c :: rest <:+ s) : Behind rest s where
  suffix := (List.suffix_cons c rest).trans ends
  shorter := ends.length_le

theorem trans_suffix {rest middle s : Text} (behind : Behind rest middle) (ends : middle <:+ s) :
    Behind rest s where
  suffix := behind.suffix.trans ends
  shorter := Nat.lt_of_lt_of_le behind.shorter ends.length_le

/-- The length of what was taken lies inside the text. -/
theorem taken_bounds {rest s : Text} (behind : Behind rest s) :
    0 < s.length - rest.length ∧ s.length - rest.length ≤ s.length :=
  ⟨Nat.sub_pos_of_lt behind.shorter, Nat.sub_le _ _⟩

end Behind

end ComponentMarkdown.Text
