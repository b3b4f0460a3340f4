import ComponentMarkdown.Text.Reference

/-!
# Where references stand

A text is left as it is by `decodeAll` exactly when no character reference stands in it. The file
has:

* `BeginsReference` and `HasReference`;
* `decode_length`: references are longer than what they stand for;
* `decodeAll_eq_self_iff`, the result.
-/

namespace ComponentMarkdown.Reference

/-- The body of a reference stands at the front, with the `;` that ends it. -/
def BeginsReference (s : Text) : Prop :=
  ∃ body behind, s = body ++ ';' :: behind ∧ (∀ c ∈ body, c ≠ '&' ∧ c ≠ ';') ∧
    (decode body).isSome = true

/-- Somewhere in the text stands an `&` with the body of a reference behind it. -/
def HasReference (s : Text) : Prop :=
  ∃ front behind, s = front ++ '&' :: behind ∧ BeginsReference behind

variable {s body behind : Text} {c : Char}

/-! ## Bodies -/

/-- What stands in front of the first `;` is the only body there can be. -/
theorem beginsReference_body (inner : ∀ c ∈ body, c ≠ '&' ∧ c ≠ ';') :
    BeginsReference (body ++ ';' :: behind) ↔ (decode body).isSome = true := by
  constructor
  · rintro ⟨other, rest, same, others, decodes⟩
    have front {text more : Text} (free : ∀ c ∈ text, c ≠ '&' ∧ c ≠ ';') :
        (text ++ ';' :: more).takeWhile (· != ';') = text := by
      rw [List.takeWhile_append_of_pos fun c member => bne_iff_ne.mpr (free c member).2]
      simp
    obtain rfl : body = other := by rw [← front inner, same, front others]
    exact decodes
  · exact fun decodes => ⟨body, behind, rfl, inner, decodes⟩

/-- A body goes on to a `;`, and not over another `&` or the end of the text. -/
theorem not_beginsReference (inner : ∀ c ∈ body, c ≠ '&' ∧ c ≠ ';')
    (ends : s.head?.all (· == '&') = true) : ¬BeginsReference (body ++ s) := by
  rintro ⟨other, rest, same, others, -⟩
  induction body generalizing other with
  | nil =>
    rw [List.nil_append] at same
    cases other with
    | nil => simp [same] at ends
    | cons c other =>
      have mark := others c List.mem_cons_self
      simp [same, mark.1] at ends
  | cons c body ih =>
    obtain ⟨first, inner⟩ := List.forall_mem_cons.mp inner
    cases other with
    | nil => exact first.2 (List.cons.inj same).1
    | cons d other => exact ih inner other (List.cons.inj same).2 (List.forall_mem_cons.mp others).2

/-! ## References in a text -/

theorem hasReference_mark :
    HasReference ('&' :: s) ↔ BeginsReference s ∨ HasReference s := by
  constructor
  · rintro ⟨front, behind, same, begins⟩
    cases front with
    | nil => exact .inl ((List.cons.inj same).2 ▸ begins)
    | cons c front => exact .inr ⟨front, behind, (List.cons.inj same).2, begins⟩
  · rintro (begins | ⟨front, behind, rfl, begins⟩)
    · exact ⟨[], s, rfl, begins⟩
    · exact ⟨'&' :: front, behind, rfl, begins⟩

/-- Text without an `&` in front makes no difference. -/
theorem hasReference_append (others : ∀ c ∈ body, c ≠ '&') :
    HasReference (body ++ s) ↔ HasReference s := by
  induction body with
  | nil => exact Iff.rfl
  | cons c body ih =>
    obtain ⟨first, others⟩ := List.forall_mem_cons.mp others
    rw [← ih others]
    constructor
    · rintro ⟨front, behind, same, begins⟩
      cases front with
      | nil => exact absurd (List.cons.inj same).1 first
      | cons d front => exact ⟨front, behind, (List.cons.inj same).2, begins⟩
    · rintro ⟨front, behind, same, begins⟩
      exact ⟨c :: front, behind, congrArg (c :: ·) same, begins⟩

/-! ## What decoding leaves -/

/-- Decoding makes no text longer. -/
theorem decode_length (s : Text) :
    (decodeFrom.decodePlain s).length ≤ s.length ∧
      ∀ body, (decodeFrom body s).length ≤ body.length + s.length + 1 := by
  induction s with
  | nil => exact ⟨Nat.le_refl _, fun body => by simp [decodeFrom]⟩
  | cons c s ih =>
    obtain ⟨plain, inside⟩ := ih
    constructor
    · unfold decodeFrom.decodePlain
      split
      · next same => cases same
      · next rest same =>
        obtain ⟨rfl, rfl⟩ := List.cons.inj same
        simpa using inside []
      · next rest _ same =>
        obtain ⟨rfl, rfl⟩ := List.cons.inj same
        simpa using plain
    · intro body
      unfold decodeFrom
      split
      · next same => cases same
      · next rest same =>
        obtain ⟨rfl, rfl⟩ := List.cons.inj same
        have shorter := inside []
        simp only [List.length_append, List.length_cons, List.length_reverse, List.length_nil] at *
        omega
      · next rest same =>
        obtain ⟨rfl, rfl⟩ := List.cons.inj same
        split <;>
          simp only [List.length_append, List.length_cons, List.length_reverse] <;> omega
      · next d rest _ _ same =>
        obtain ⟨rfl, rfl⟩ := List.cons.inj same
        have shorter := inside (c :: body)
        simp only [List.length_cons] at *
        omega

/-- A reference that is resolved leaves a shorter text. -/
theorem decode_ne_self (value : Char) (body behind : Text) :
    value :: decodeFrom.decodePlain behind ≠ '&' :: (body ++ ';' :: behind) := by
  intro same
  have lengths := congrArg List.length same
  have shorter := (decode_length behind).1
  simp only [List.length_append, List.length_cons] at lengths
  omega

/-- A text stays as it is if no reference stands in it, read from outside a reference or from
within a body. -/
theorem decode_eq_self_iff (s : Text) :
    (decodeFrom.decodePlain s = s ↔ ¬HasReference s) ∧
      ∀ body, (∀ c ∈ body, c ≠ '&' ∧ c ≠ ';') →
        (decodeFrom body.reverse s = '&' :: (body ++ s) ↔ ¬HasReference ('&' :: (body ++ s))) := by
  induction s with
  | nil =>
    have nothing : ¬HasReference [] := by rintro ⟨front, behind, same, -⟩; simp at same
    refine ⟨iff_of_true rfl nothing, fun body inner => ?_⟩
    have noBody := not_beginsReference (s := []) inner rfl
    rw [decodeFrom, List.reverse_reverse, List.append_nil, hasReference_mark]
    rw [List.append_nil] at noBody
    have noOther := @hasReference_append [] body fun c member => (inner c member).1
    rw [List.append_nil] at noOther
    exact iff_of_true rfl (not_or.mpr ⟨noBody, mt noOther.mp nothing⟩)
  | cons c s ih =>
    obtain ⟨plain, inside⟩ := ih
    constructor
    · by_cases isMark : c = '&'
      · subst isMark
        exact inside [] (List.forall_mem_nil _)
      · have others : HasReference (c :: s) ↔ HasReference s :=
          hasReference_append (List.forall_mem_singleton.mpr isMark)
        rw [decodeFrom.decodePlain, others, List.cons_inj_right]
        · exact plain
        · exact isMark
    · intro body inner
      have noMark : ∀ c ∈ body, c ≠ '&' := fun c member => (inner c member).1
      by_cases isMark : c = '&'
      · subst isMark
        have noBody := not_beginsReference (s := '&' :: s) inner rfl
        rw [decodeFrom, hasReference_mark, or_iff_right noBody, hasReference_append noMark,
          List.cons_append, List.cons_inj_right, List.reverse_reverse, List.append_cancel_left_eq]
        exact inside [] (List.forall_mem_nil _)
      by_cases isEnd : c = ';'
      · subst isEnd
        have others : HasReference (body ++ ';' :: s) ↔ HasReference s := by
          rw [hasReference_append noMark]
          exact hasReference_append (List.forall_mem_singleton.mpr isMark)
        rw [decodeFrom, List.reverse_reverse, hasReference_mark, beginsReference_body inner, others]
        cases decode body with
        | some value => simp only [decode_ne_self, Option.isSome_some, true_or, not_true]
        | none =>
          simp only [List.cons_append, List.cons_inj_right, List.append_cancel_left_eq,
            Option.isSome_none, Bool.false_eq_true, false_or]
          exact plain
      · have further := inside (body ++ [c])
          (List.forall_mem_append.mpr ⟨inner, List.forall_mem_singleton.mpr ⟨isMark, isEnd⟩⟩)
        rw [List.reverse_append, List.append_assoc] at further
        rw [decodeFrom]
        · exact further
        · exact isMark
        · exact isEnd

/-- Decoding leaves a text as it is exactly when no reference stands in it. -/
theorem decodeAll_eq_self_iff (s : Text) : decodeAll s = s ↔ ¬HasReference s :=
  (decode_eq_self_iff s).1

end ComponentMarkdown.Reference
