import ComponentMarkdown.Text.LineEnding

/-!
# Normal texts

What `normalize` makes of the parts of a text. A carriage return belongs together with a line feed
behind it; everything else is replaced by itself.
-/

namespace ComponentMarkdown

/-- Without carriage returns, only NUL is replaced. -/
theorem normalize_append_of_noReturn {s : Text} (noReturn : '\r' ∉ s) (more : Text) :
    normalize (s ++ more) = Text.replaceChar '\x00' '\uFFFD' s ++ normalize more := by
  induction s with
  | nil => rfl
  | cons c s ih =>
    rw [List.mem_cons, not_or] at noReturn
    have others := ih noReturn.2
    by_cases isNull : c = '\x00'
    · subst isNull
      exact congrArg ('\uFFFD' :: ·) others
    · have same : Text.replaceChar '\x00' '\uFFFD' (c :: s) =
          c :: Text.replaceChar '\x00' '\uFFFD' s := by
        simp [Text.replaceChar, isNull]
      rw [same, List.cons_append, normalize, others, List.cons_append]
      · rintro rest rfl
        exact absurd rfl noReturn.1
      · rintro rfl
        exact absurd rfl noReturn.1
      · exact isNull

theorem normalize_of_noReturn {s : Text} (noReturn : '\r' ∉ s) :
    normalize s = Text.replaceChar '\x00' '\uFFFD' s := by
  have whole := normalize_append_of_noReturn noReturn []
  rwa [List.append_nil, normalize, List.append_nil] at whole

theorem normalize_append {s : Text} (noReturn : '\r' ∉ s) (more : Text) :
    normalize (s ++ more) = normalize s ++ normalize more := by
  rw [normalize_append_of_noReturn noReturn, normalize_of_noReturn noReturn]

/-- A text without carriage returns and NUL is normal. -/
theorem normalize_of_normal {s : Text} (normal : ∀ c ∈ s, c ≠ '\r' ∧ c ≠ '\x00') :
    normalize s = s := by
  rw [normalize_of_noReturn fun member => (normal _ member).1 rfl, Text.replaceChar]
  refine (List.map_congr_left fun c member => ?_).trans (List.map_id s)
  exact if_neg (by simpa using (normal c member).2)

/-- A single line, in which nothing is replaced. -/
def IsLine (s : Text) : Prop :=
  ∀ c ∈ s, c ≠ '\n' ∧ c ≠ '\r' ∧ c ≠ '\x00'

instance (s : Text) : Decidable (IsLine s) :=
  List.decidableBAll _ s

theorem IsLine.normalize_eq {s : Text} (line : IsLine s) : normalize s = s :=
  normalize_of_normal fun c member => (line c member).2

theorem IsLine.noFeed {s : Text} (line : IsLine s) : '\n' ∉ s :=
  fun member => (line _ member).1 rfl

theorem isLine_cons {c : Char} {s : Text} :
    IsLine (c :: s) ↔ (c ≠ '\n' ∧ c ≠ '\r' ∧ c ≠ '\x00') ∧ IsLine s :=
  List.forall_mem_cons

theorem isLine_append {s more : Text} : IsLine (s ++ more) ↔ IsLine s ∧ IsLine more :=
  List.forall_mem_append

theorem isLine_replicate {c : Char} (line : IsLine [c]) (count : Nat) :
    IsLine (List.replicate count c) :=
  fun _ member => List.eq_of_mem_replicate member ▸ line c List.mem_cons_self

/-- In front of anything but a line feed the texts stay apart. -/
theorem normalize_append_cons {c : Char} (notFeed : c ≠ '\n') (s more : Text) :
    normalize (s ++ c :: more) = normalize s ++ normalize (c :: more) := by
  fun_induction normalize s with
  | case1 rest ih => exact congrArg ('\n' :: ·) ih
  | case2 rest apart ih =>
    have goesOn : ∀ behind, rest ++ c :: more ≠ '\n' :: behind := by
      cases rest with
      | nil => exact fun behind same => notFeed (List.cons.inj same).1
      | cons d rest => exact fun behind same => apart rest (by rw [(List.cons.inj same).1])
    rw [List.cons_append, normalize]
    · exact congrArg ('\n' :: ·) ih
    · exact goesOn
  | case3 rest ih => exact congrArg ('\uFFFD' :: ·) ih
  | case4 d rest noPair noReturn noNull ih =>
    rw [List.cons_append, normalize]
    · exact congrArg (d :: ·) ih
    · exact fun _ same _ => noReturn same
    · exact noReturn
    · exact noNull
  | case5 => rfl

theorem normalize_eq_nil {s : Text} : normalize s = [] ↔ s = [] := by
  unfold normalize
  split <;> simp

/-- A line is one line still. -/
theorem not_mem_normalize {s : Text} (noReturn : '\r' ∉ s) (oneLine : '\n' ∉ s) :
    '\n' ∉ normalize s := by
  rw [normalize_of_noReturn noReturn]
  intro member
  obtain ⟨c, isChar, same⟩ := List.mem_map.mp member
  split at same
  · cases same
  · exact oneLine (same ▸ isChar)

theorem head?_normalize {s : Text} (begins : s.head? = some '<') :
    (normalize s).head? = some '<' := by
  obtain ⟨behind, rfl⟩ := List.head?_eq_some_iff.mp begins
  rfl

/-- Blank text stays blank. -/
theorem isBlank_normalize {s : Text} (blank : ∀ c ∈ s, isBlank c = true) :
    ∀ c ∈ normalize s, isBlank c = true := by
  have feed : isBlank '\n' = true := rfl
  fun_induction normalize s with
  | case1 rest ih =>
    have others := (List.forall_mem_cons.mp (List.forall_mem_cons.mp blank).2).2
    exact List.forall_mem_cons.mpr ⟨feed, ih others⟩
  | case2 rest apart ih =>
    exact List.forall_mem_cons.mpr ⟨feed, ih (List.forall_mem_cons.mp blank).2⟩
  | case3 rest ih => exact absurd (List.forall_mem_cons.mp blank).1 (by decide)
  | case4 c rest noPair noReturn noNull ih =>
    obtain ⟨first, others⟩ := List.forall_mem_cons.mp blank
    exact List.forall_mem_cons.mpr ⟨first, ih others⟩
  | case5 => exact List.forall_mem_nil _

end ComponentMarkdown
