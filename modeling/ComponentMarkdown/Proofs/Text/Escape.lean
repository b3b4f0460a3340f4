import ComponentMarkdown.Proofs.Text.Reference
import ComponentMarkdown.Text.Escape

/-!
# Escaped texts

A text is escaped by a backslash before each of its characters of ASCII punctuation. Dropping the
backslashes gives the text back, but what `unescape` resolves after that are the references of the
text itself. The file has:

* `escaped`, and what stands at its front;
* `dropEscapes_escaped`: the backslashes go;
* `unescape_escaped`: the text comes back unless there is a reference in it.
-/

namespace ComponentMarkdown

/-- The text with a backslash before every character of ASCII punctuation. -/
def escaped : Text → Text
  | [] => []
  | c :: s => if isAsciiPunctuation c then '\\' :: c :: escaped s else c :: escaped s

variable {s : Text} {c : Char}

theorem escaped_mark (isMark : isAsciiPunctuation c = true) (s : Text) :
    escaped (c :: s) = '\\' :: c :: escaped s := by
  rw [escaped, if_pos isMark]

theorem escaped_other (notMark : isAsciiPunctuation c = false) (s : Text) :
    escaped (c :: s) = c :: escaped s := by
  rw [escaped, if_neg (by simp [notMark])]

/-- Text without punctuation stays as it is. -/
theorem escaped_append (others : ∀ c ∈ s, isAsciiPunctuation c = false) (more : Text) :
    escaped (s ++ more) = s ++ escaped more := by
  induction s with
  | nil => rfl
  | cons c s ih =>
    obtain ⟨first, others⟩ := List.forall_mem_cons.mp others
    rw [List.cons_append, escaped_other first, ih others, List.cons_append]

/-- The only punctuation that an escaped text can begin with is a backslash. -/
theorem head_escaped (begins : (escaped s).head? = some c) :
    c = '\\' ∨ isAsciiPunctuation c = false ∧ s.head? = some c := by
  cases s with
  | nil => cases begins
  | cons d s =>
    cases isMark : isAsciiPunctuation d with
    | true =>
      rw [escaped_mark isMark] at begins
      exact .inl (Option.some.inj begins).symm
    | false =>
      rw [escaped_other isMark] at begins
      obtain rfl : d = c := Option.some.inj begins
      exact .inr ⟨isMark, rfl⟩

theorem getLast?_escaped (s : Text) : (escaped s).getLast? = s.getLast? := by
  induction s with
  | nil => rfl
  | cons c s ih =>
    rw [List.getLast?_cons, ← ih, escaped]
    split <;> simp [List.getLast?_cons]

/-- Escaping puts in nothing but backslashes. -/
theorem mem_of_mem_escaped (member : c ∈ escaped s) : c = '\\' ∨ c ∈ s := by
  induction s with
  | nil => cases member
  | cons d s ih =>
    rw [escaped] at member
    split at member
    · simp only [List.mem_cons] at member ⊢
      rcases member with isEscape | isFirst | inRest
      · exact .inl isEscape
      · exact .inr (.inl isFirst)
      · exact (ih inRest).imp_right .inr
    · simp only [List.mem_cons] at member ⊢
      rcases member with isFirst | inRest
      · exact .inr (.inl isFirst)
      · exact (ih inRest).imp_right .inr

theorem dropEscapes_escaped (s : Text) : dropEscapes (escaped s) = s := by
  induction s with
  | nil => rfl
  | cons c s ih =>
    cases isMark : isAsciiPunctuation c with
    | true => rw [escaped_mark isMark, dropEscapes, if_pos isMark, ih]
    | false =>
      have notEscape : c ≠ '\\' := by
        rintro rfl
        cases isMark
      rw [escaped_other isMark, dropEscapes, ih]
      exact fun _ _ same _ => notEscape same

/-- Unescaping an escaped text resolves the references of the text, for they are read after the
backslashes have gone. So it gives the text back exactly when no reference stands in it. -/
theorem unescape_escaped (s : Text) :
    unescape (escaped s) = Reference.decodeAll s ∧
      (unescape (escaped s) = s ↔ ¬Reference.HasReference s) := by
  have resolved : unescape (escaped s) = Reference.decodeAll s := by
    rw [unescape, dropEscapes_escaped]
  exact ⟨resolved, by rw [resolved, Reference.decodeAll_eq_self_iff]⟩

/-- An escaped ampersand begins a reference after all. -/
theorem unescape_escaped_reference :
    escaped "&amp;".toList = "\\&amp\\;".toList ∧
      unescape (escaped "&amp;".toList) = ['&'] ∧
      unescape (escaped "&amp;".toList) ≠ "&amp;".toList := by
  decide +kernel

end ComponentMarkdown
