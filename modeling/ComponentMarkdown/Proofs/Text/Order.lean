import ComponentMarkdown.Text.Order

/-!
# The order of texts

Texts are ordered by their first characters that differ. The file has:

* `IsOrder`, a strict order of all things, and `IsOrder.lists` for lists of them;
* `isOrder_text`, the order of texts;
* what is in a set of texts, each once.
-/

namespace ComponentMarkdown

/-- A strict order in which any two things can be compared. -/
structure IsOrder {α : Type} (before : α → α → Bool) : Prop where
  irrefl : ∀ a, before a a = false
  trans : ∀ {a b c}, before a b = true → before b c = true → before a c = true
  total : ∀ {a b}, before a b = false → a ≠ b → before b a = true

/-- Compares lists by their first members that differ; a list is before those that go on. -/
def listBefore {α : Type} [BEq α] (before : α → α → Bool) : List α → List α → Bool
  | _, [] => false
  | [], _ :: _ => true
  | a :: as, b :: bs => before a b || (a == b && listBefore before as bs)

namespace IsOrder

variable {α : Type} [BEq α] [LawfulBEq α] {before : α → α → Bool}

/-- Lists are ordered as their members are. -/
theorem lists (order : IsOrder before) : IsOrder (listBefore before) where
  irrefl as := by
    induction as with
    | nil => rfl
    | cons a as ih => rw [listBefore, order.irrefl, ih, Bool.and_false, Bool.or_false]
  trans := by
    intro as bs cs first second
    induction as generalizing bs cs with
    | nil =>
      cases cs with
      | nil => cases bs <;> cases second
      | cons c cs => rfl
    | cons a as ih =>
      match bs, cs with
      | [], _ => cases first
      | _ :: _, [] => cases second
      | b :: bs, c :: cs =>
        rw [listBefore, Bool.or_eq_true, Bool.and_eq_true, beq_iff_eq] at first second ⊢
        rcases first with first | ⟨rfl, first⟩
        · rcases second with second | ⟨rfl, -⟩
          · exact .inl (order.trans first second)
          · exact .inl first
        · exact second.imp_right fun ⟨same, second⟩ => ⟨same, ih first second⟩
  total := by
    intro as bs notBefore apart
    induction as generalizing bs with
    | nil =>
      cases bs with
      | nil => exact absurd rfl apart
      | cons b bs => cases notBefore
    | cons a as ih =>
      cases bs with
      | nil => rfl
      | cons b bs =>
        rw [listBefore, Bool.or_eq_false_iff, Bool.and_eq_false_iff, beq_eq_false_iff_ne]
          at notBefore
        rw [listBefore, Bool.or_eq_true, Bool.and_eq_true, beq_iff_eq]
        by_cases same : a = b
        · subst same
          have others := notBefore.2.resolve_left (absurd rfl)
          exact .inr ⟨rfl, ih others fun alike => apart (congrArg (a :: ·) alike)⟩
        · exact .inl (order.total notBefore.1 same)

end IsOrder

theorem isOrder_char : IsOrder fun a b : Char => decide (a < b) where
  irrefl a := decide_eq_false (Char.lt_irrefl a)
  trans first second := decide_eq_true
    (Char.lt_trans (of_decide_eq_true first) (of_decide_eq_true second))
  total notBefore apart := by
    have atMost := Char.not_lt.mp (of_decide_eq_false notBefore)
    exact decide_eq_true (Std.lt_of_le_of_ne atMost apart.symm)

/-- Texts are ordered. -/
theorem isOrder_text : IsOrder textBefore := by
  have same : textBefore = listBefore fun a b : Char => decide (a < b) := by
    funext s t
    induction s generalizing t with
    | nil => cases t <;> rfl
    | cons a s ih =>
      cases t with
      | nil => rfl
      | cons b t => rw [textBefore, listBefore, ih]
  exact same ▸ isOrder_char.lists

/-! ## Sets of texts -/

namespace TextSet

theorem mem_insert {text name : Text} {set : TextSet} :
    name ∈ insert text set ↔ name = text ∨ name ∈ set := by
  induction set with
  | nil => simp [insert]
  | cons other others ih =>
    rw [insert]
    split
    · exact List.mem_cons
    · split
      · next same =>
        rw [beq_iff_eq.mp same]
        simp
      · rw [List.mem_cons, ih, List.mem_cons]
        exact or_left_comm

/-- Texts stay in order. -/
theorem pairwise_insert (text : Text) {set : TextSet}
    (ordered : set.Pairwise (textBefore · · = true)) :
    (insert text set).Pairwise (textBefore · · = true) := by
  induction set with
  | nil => exact List.pairwise_singleton _ _
  | cons other others ih =>
    obtain ⟨first, behind⟩ := List.pairwise_cons.mp ordered
    rw [insert]
    split
    · next before =>
      refine List.pairwise_cons.mpr ⟨List.forall_mem_cons.mpr ⟨before, fun name member => ?_⟩,
        ordered⟩
      exact isOrder_text.trans before (first name member)
    · next notBefore =>
      split
      · exact ordered
      · next apart =>
        refine List.pairwise_cons.mpr ⟨fun name member => ?_, ih behind⟩
        rcases mem_insert.mp member with rfl | member
        · exact isOrder_text.total (Bool.eq_false_iff.mpr notBefore) (by simpa using apart)
        · exact first name member

/-- A set has each text once. -/
theorem nodup_ofList (texts : List Text) : (ofList texts).Nodup := by
  have ordered : ∀ set : TextSet, set.Pairwise (textBefore · · = true) →
      (texts.foldl (fun set text => insert text set) set).Pairwise (textBefore · · = true) := by
    induction texts with
    | nil => exact fun _ ordered => ordered
    | cons text texts ih => exact fun set ordered => ih _ (pairwise_insert text ordered)
  refine (ordered [] List.Pairwise.nil).imp ?_
  rintro a b before rfl
  rw [isOrder_text.irrefl] at before
  cases before

theorem mem_ofList {name : Text} {texts : List Text} : name ∈ ofList texts ↔ name ∈ texts := by
  have all : ∀ set : TextSet, name ∈ texts.foldl (fun set text => insert text set) set ↔
      name ∈ set ∨ name ∈ texts := by
    induction texts with
    | nil => simp
    | cons text texts ih =>
      intro set
      rw [List.foldl_cons, ih, mem_insert, List.mem_cons, or_assoc, or_left_comm]
  exact (all []).trans (by simp)

end TextSet

end ComponentMarkdown
