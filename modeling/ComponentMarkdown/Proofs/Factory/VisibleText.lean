import Mathlib.Data.List.DropRight
import ComponentMarkdown.Factory.MarkupText

/-!
# Visible text

The text in the body of an element is laid out by lines. Spaces that border on another line are
layout, lines of nothing else are dropped, and the others are joined with single spaces
(`referenceText`). `visibleText` gives that text, although it writes the lines as it goes and has
to know beforehand whether another one follows (`visibleText_eq`).
-/

namespace ComponentMarkdown.Factory

/-! ## The rule -/

/-- The `i`-th of `count` lines: tabs are spaces, and there are none at its front unless the line is
the first one, and none at its end unless it is the last one. -/
def laidLine (count i : Nat) (line : Text) : Text :=
  let spaced := line.map fun c => if c = '\t' then ' ' else c
  let fromStart := if i = 0 then spaced else spaced.dropWhile (· = ' ')
  if i + 1 = count then fromStart else fromStart.rdropWhile (· = ' ')

/-- The lines that are not empty once they are laid out. -/
def laidLines (lines : List Text) : List Text :=
  (lines.mapIdx (laidLine lines.length)).filter (· ≠ [])

/-- The text that raw text stands for: its lines, laid out and joined with single spaces. There is
none if no line is left. -/
def referenceText (raw : Text) : Option Text :=
  match laidLines ((Reference.decodeAll raw).splitOn '\n') with
  | [] => none
  | lines => some ([' '].intercalate lines)

/-! ## Lines -/

theorem splitLines_eq (s : Text) : s.splitLines = s.splitOn '\n' := by
  rw [Text.splitLines, List.splitOn]
  induction s with
  | nil => rfl
  | cons c s ih =>
    rw [Text.splitWhere, List.splitOnP_cons_eq_if_modifyHead, ih]
    split
    · rfl
    · have notEmpty := List.splitOnP_ne_nil (· == '\n') s
      cases pieces : List.splitOnP (· == '\n') s with
      | nil => exact absurd pieces notEmpty
      | cons piece pieces => rfl

theorem laidLine_eq (count i : Nat) (line : Text) :
    laidLine count i line = trimLine (i = 0) (i + 1 = count) line := by
  have isSpace : (fun c : Char => decide (c = ' ')) = (· == ' ') := by
    funext c
    rw [beq_eq_decide]
  simp only [laidLine, trimLine, Text.replaceChar, isSpace, decide_eq_true_eq, beq_iff_eq]
  rfl

theorem dropWhile_eq_nil {line : Text} :
    (line.replaceChar '\t' ' ').dropWhile (· == ' ') = [] ↔ hasContent line = false := by
  have isSpace : ∀ c : Char, ((if c == '\t' then ' ' else c) == ' ') = isSpaceOrTab c := by
    intro c
    rw [isSpaceOrTab]
    split <;> simp_all
  simp only [List.dropWhile_eq_nil_iff, Text.replaceChar, List.forall_mem_map, isSpace, hasContent,
    List.any_eq_false, Bool.not_eq_true, Bool.not_eq_false']

/-- Nothing but spaces is left at neither end, or at both. -/
theorem rdropWhile_dropWhile_eq_nil {p : Char → Bool} {line : Text} :
    (line.dropWhile p).rdropWhile p = [] ↔ line.dropWhile p = [] := by
  rw [List.rdropWhile_eq_nil_iff]
  constructor
  · intro all
    by_contra notEmpty
    have stops := List.head_dropWhile_not p notEmpty
    rw [all _ (List.head_mem notEmpty)] at stops
    cases stops
  · intro isEmpty c member
    rw [isEmpty] at member
    cases member

/-- A line that is not the first one is empty as soon as it holds nothing but spaces and tabs. -/
theorem trimLine_eq_nil {isLast : Bool} {line : Text} :
    trimLine false isLast line = [] ↔ hasContent line = false := by
  rw [← dropWhile_eq_nil]
  cases isLast with
  | true => rfl
  | false => exact rdropWhile_dropWhile_eq_nil

/-! ## Writing the lines -/

/-- The lines from the `i`-th one on, laid out; they are the last ones. -/
def laidFrom (i : Nat) (lines : List Text) : List Text :=
  lines.mapIdx fun j => laidLine (i + lines.length) (i + j)

theorem laidFrom_cons (i : Nat) (line : Text) (later : List Text) :
    laidFrom i (line :: later) =
      trimLine (i = 0) later.isEmpty line :: laidFrom (i + 1) later := by
  have isLast : decide (i + 1 = i + (later.length + 1)) = later.isEmpty := by
    cases later with
    | nil => simp
    | cons next later => simp
  rw [laidFrom, List.mapIdx_cons, laidLine_eq, List.length_cons, Nat.add_zero, isLast, laidFrom]
  congr 2
  funext j
  congr 1 <;> omega

/-- Behind the first line, a line is left if and only if one has content. -/
theorem filter_laidFrom_eq_nil {i : Nat} (behind : 0 < i) (lines : List Text) :
    (laidFrom i lines).filter (· ≠ []) = [] ↔ lines.any hasContent = false := by
  induction lines generalizing i with
  | nil => simp [laidFrom]
  | cons line later ih =>
    have notFirst : decide (i = 0) = false := by simpa using Nat.ne_of_gt behind
    have others := ih (Nat.succ_pos i)
    have isEmpty : trimLine false later.isEmpty line = [] ↔ hasContent line = false :=
      trimLine_eq_nil
    rw [laidFrom_cons, notFirst, List.any_cons, Bool.or_eq_false_iff, ← others, ← isEmpty]
    by_cases empty : trimLine false later.isEmpty line = []
    · simp [empty]
    · simp [empty]

/-- Lines that are written one after the other are joined. -/
theorem layLines_eq (i : Nat) (lines : List Text) :
    layLines (i = 0) lines = [' '].intercalate ((laidFrom i lines).filter (· ≠ [])) := by
  induction lines generalizing i with
  | nil => rfl
  | cons line later ih =>
    have others := ih (i + 1)
    rw [decide_eq_false (Nat.succ_ne_zero i)] at others
    rw [layLines, laidFrom_cons, others]
    by_cases empty : trimLine (i = 0) later.isEmpty line = []
    · simp [empty]
    · rw [if_neg (by simpa using empty), List.filter_cons_of_pos (by simpa using empty)]
      have isLast := filter_laidFrom_eq_nil (Nat.succ_pos i) later
      by_cases none : (laidFrom (i + 1) later).filter (· ≠ []) = []
      · rw [none, isLast.mp none]
        simp
      · rw [List.intercalate_cons_of_ne_nil none, if_pos (by simpa using mt isLast.mpr none)]

/-- The text in the body of an element follows the rule. -/
theorem visibleText_eq (raw : Text) : visibleText raw = referenceText raw := by
  rw [visibleText, splitLines_eq, referenceText]
  generalize (Reference.decodeAll raw).splitOn '\n' = lines
  have same : layLines true lines = [' '].intercalate (laidLines lines) := by
    simpa [laidFrom, laidLines] using layLines_eq 0 lines
  rw [same]
  cases left : laidLines lines with
  | nil => rfl
  | cons line later =>
    have member : line ∈ laidLines lines := left ▸ List.mem_cons_self
    have notEmpty : line ≠ [] := by simpa using List.of_mem_filter member
    refine if_neg ?_
    cases later with
    | nil => simpa using notEmpty
    | cons next later => simp [List.intercalate_cons_cons]

end ComponentMarkdown.Factory
