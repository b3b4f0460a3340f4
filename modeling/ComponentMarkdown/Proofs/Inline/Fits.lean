import ComponentMarkdown.Inline.Autolink
import ComponentMarkdown.Inline.CodeSpan
import ComponentMarkdown.Inline.Link
import ComponentMarkdown.Inline.Plain
import ComponentMarkdown.Proofs.Text.Runs

/-!
# What fits into a text

A construct takes at least one character and no more than there are (`Construct.Fits`). This file
proves it for the rules that look at nothing but the text ahead.
-/

namespace ComponentMarkdown

/-- Is the piece complete? It then has no body, and what it shows of an address is not empty. -/
def Inline.IsComplete : Inline → Prop
  | .autolink address _ => address ≠ []
  | .emphasis .. | .link .. | .image .. | .element .. => False
  | _ => True

/-- A construct takes some of the characters of `rest`; a body lies inside it. -/
structure Construct.Fits (construct : Construct) (rest : Text) : Prop where
  positive : 0 < construct.length
  bounded : construct.length ≤ rest.length
  inside : match construct.form with
    | .leaf piece => piece.IsComplete
    | .enclosing _ skip length => skip + length ≤ construct.length

namespace Construct

/-- Where the body of a construct at `pos` ends. The label of an image is a text of its own. -/
def bodyEnd? (construct : Construct) (pos : Nat) : Option Nat :=
  match construct.form with
  | .leaf _ => none
  | .enclosing (.image _) _ _ => none
  | .enclosing _ skip length => some (pos + skip + length)

theorem bodyEnd?_eq {construct : Construct} {enclosure : Enclosure} {skip length : Nat}
    (isForm : construct.form = .enclosing enclosure skip length)
    (notImage : ∀ target, enclosure ≠ .image target) (pos : Nat) :
    construct.bodyEnd? pos = some (pos + skip + length) := by
  unfold bodyEnd?
  rw [isForm]
  cases enclosure with
  | image target => exact absurd rfl (notImage target)
  | _ => rfl

/-- Does what was found fit, if anything was found? -/
def AllFit (found : Option Construct) (rest : Text) : Prop :=
  ∀ construct, found = some construct → construct.Fits rest

/-- Is what was found complete, and does it fit? -/
def AllLeaves (found : Option Construct) (rest : Text) : Prop :=
  ∀ construct, found = some construct → construct.Fits rest ∧
    ∃ piece, construct.form = .leaf piece

theorem AllLeaves.allFit {found : Option Construct} {rest : Text}
    (leaves : AllLeaves found rest) : AllFit found rest :=
  fun construct same => (leaves construct same).1

theorem allFit_none (rest : Text) : AllFit none rest := by
  intro construct found
  cases found

theorem allLeaves_none (rest : Text) : AllLeaves none rest := by
  intro construct found
  cases found

theorem allLeaves_some {rest : Text} {length : Nat} {piece : Inline} (positive : 0 < length)
    (bounded : length ≤ rest.length) (complete : piece.IsComplete) :
    AllLeaves (some (.leaf length piece)) rest := by
  intro construct found
  cases found
  exact ⟨⟨positive, bounded, complete⟩, piece, rfl⟩

end Construct

/-! ## Plain text -/

theorem allLeaves_plainRun (rest : Text) : Construct.AllLeaves (plainRun? rest) rest := by
  unfold plainRun?
  dsimp only
  split
  · exact Construct.allLeaves_none rest
  · next notEmpty =>
    refine Construct.allLeaves_some ?_ (List.takeWhile_prefix _).length_le trivial
    exact List.length_pos_iff.mpr (by simpa using notEmpty)

theorem lineEndLength_bounds (rest : Text) :
    0 < lineEndLength rest ∧ lineEndLength rest ≤ rest.length + 1 := by
  have := Text.runLength_le ' ' rest
  unfold lineEndLength
  omega

theorem allLeaves_newline (rest : Text) : Construct.AllLeaves (newline? rest) rest := by
  unfold newline?
  split
  · next behind =>
    obtain ⟨positive, bounded⟩ := lineEndLength_bounds behind
    exact Construct.allLeaves_some positive bounded trivial
  · exact Construct.allLeaves_none rest

theorem allLeaves_escape (rest : Text) : Construct.AllLeaves (escape? rest) rest := by
  unfold escape?
  split
  · next c behind =>
    obtain ⟨-, bounded⟩ := lineEndLength_bounds behind
    split
    · exact Construct.allLeaves_some (by decide) (by simp) trivial
    · split
      · refine Construct.allLeaves_some (by omega) ?_ trivial
        simp only [List.length_cons]
        omega
      · exact Construct.allLeaves_some (by decide) (by simp) trivial
  · exact Construct.allLeaves_some (by decide) (by simp) trivial
  · exact Construct.allLeaves_none rest

/-- A character that is no backtick is passed over. -/
theorem untilTicks_cons {count : Nat} {c : Char} (other : c ≠ '\x60') (fuel : Nat) (rest : Text) :
    untilTicks? count (fuel + 1) (c :: rest) = (untilTicks? count fuel rest).map (c :: ·) := by
  rw [untilTicks?, if_neg (by simpa using other)]

/-- The text up to a run of backticks leaves room for the run. -/
theorem untilTicks_length {count fuel : Nat} {s raw : Text}
    (found : untilTicks? count fuel s = some raw) : raw.length + count ≤ s.length := by
  induction fuel generalizing s raw with
  | zero => simp [untilTicks?] at found
  | succ fuel ih =>
    cases s with
    | nil => simp [untilTicks?] at found
    | cons c s =>
      simp only [untilTicks?] at found
      have bounded := Text.runLength_le '\x60' (c :: s)
      split at found
      · split at found
        · next exact =>
          cases found
          rw [← beq_iff_eq.mp exact]
          simpa using bounded
        · obtain ⟨more, behind, rfl⟩ := Option.map_eq_some_iff.mp found
          have := ih behind
          rw [List.length_drop] at this
          rw [List.length_append, List.length_replicate]
          omega
      · obtain ⟨more, behind, rfl⟩ := Option.map_eq_some_iff.mp found
        have := ih behind
        simp only [List.length_cons]
        omega

theorem allLeaves_codeSpan (rest : Text) : Construct.AllLeaves (codeSpan? rest) rest := by
  have bounded := Text.runLength_le '\x60' rest
  unfold codeSpan?
  dsimp only
  split
  · exact Construct.allLeaves_none rest
  · next notZero =>
    have positive : 0 < Text.runLength '\x60' rest := Nat.pos_of_ne_zero (by simpa using notZero)
    split
    · next raw found =>
      have := untilTicks_length found
      rw [List.length_drop] at this
      exact Construct.allLeaves_some (by omega) (by omega) trivial
    · exact Construct.allLeaves_some positive bounded trivial

theorem isSome_head_pos {s : Text} {c : Char} (head : s.head? = some c) : 0 < s.length := by
  cases s with
  | nil => simp at head
  | cons _ _ => simp

theorem length_takeWhile_add_dropWhile (p : Char → Bool) (s : Text) :
    (s.takeWhile p).length + (s.dropWhile p).length = s.length := by
  rw [← List.length_append, List.takeWhile_append_dropWhile]

theorem address_bounds {s address : Text} (found : address? s = some address) :
    address ≠ [] ∧ address.length < s.length := by
  cases s with
  | nil => simp [address?] at found
  | cons c s =>
    have scheme := length_takeWhile_add_dropWhile isSchemeChar s
    have tail := length_takeWhile_add_dropWhile isAddressChar (s.dropWhile isSchemeChar)
    simp only [address?] at found
    split at found
    · split at found
      · next closed =>
        have closed := isSome_head_pos (beq_iff_eq.mp closed)
        cases found
        simp only [List.cons_append, List.length_cons, List.length_append]
        exact ⟨List.cons_ne_nil _ _, by omega⟩
      · exact absurd found (by simp)
    · exact absurd found (by simp)

theorem mailAddress_bounds {s address : Text} (found : mailAddress? s = some address) :
    address ≠ [] ∧ address.length < s.length := by
  have parts := length_takeWhile_add_dropWhile isMailboxChar s
  unfold mailAddress? at found
  dsimp only at found
  split at found
  · next behind split_at =>
    rw [split_at, List.length_cons] at parts
    split at found
    · next valid =>
      simp only [Bool.and_eq_true, decide_eq_true_eq] at valid
      have room := valid.1.2
      cases found
      simp only [List.length_append, List.length_cons]
      exact ⟨by simp, by omega⟩
    · exact absurd found (by simp)
  · exact absurd found (by simp)

theorem allLeaves_autolink (rest : Text) : Construct.AllLeaves (autolink? rest) rest := by
  unfold autolink?
  split
  · split
    · next found =>
      obtain ⟨notEmpty, bounded⟩ := address_bounds found
      exact Construct.allLeaves_some (by omega) (Nat.succ_le_succ bounded) notEmpty
    · split
      · next found =>
        obtain ⟨notEmpty, bounded⟩ := mailAddress_bounds found
        exact Construct.allLeaves_some (by omega) (Nat.succ_le_succ bounded) notEmpty
      · exact Construct.allLeaves_none _
  · exact Construct.allLeaves_none _

theorem referenceValue_bounds {s : Text} {value : Char} {length : Nat}
    (found : referenceValue? s = some (value, length)) : length < s.length := by
  unfold referenceValue? at found
  dsimp only at found
  split at found
  · next valid =>
    obtain ⟨decoded, -, made⟩ := Option.map_eq_some_iff.mp found
    cases made
    simp only [Bool.and_eq_true, decide_eq_true_eq] at valid
    exact valid.1
  · exact absurd found (by simp)

theorem allLeaves_entity (rest : Text) : Construct.AllLeaves (entity? rest) rest := by
  unfold entity?
  split
  · split
    · next found =>
      have := referenceValue_bounds found
      exact Construct.allLeaves_some (by omega) (Nat.succ_le_succ this) trivial
    · exact Construct.allLeaves_some (by decide) (by simp) trivial
  · exact Construct.allLeaves_none _

end ComponentMarkdown
