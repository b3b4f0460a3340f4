import ComponentMarkdown.Block.Opens

/-!
# Lines that are replaced for a while

A container puts other lines in the place of its own, and the old ones back at the end. The file
has:

* what replacing lines leaves alone;
* `Scope.restore_lines`: the old lines in the place of the new ones are all lines as they were;
* `endsAt_congr`: what begins at a line depends on the line, the indentation and the parent only.
-/

namespace ComponentMarkdown

theorem size_replaceLines (lines : Array Line) (first : Nat) (more : List Line) :
    (replaceLines lines first more).size = lines.size := by
  induction more generalizing lines first with
  | nil => rfl
  | cons line more ih => rw [replaceLines, ih, Array.size_setIfInBounds]

/-- A line before those that are replaced may be replaced before or after them. -/
theorem replaceLines_setIfInBounds (lines : Array Line) {first number : Nat}
    (before : number < first) (line : Line) (more : List Line) :
    replaceLines (lines.setIfInBounds number line) first more =
      (replaceLines lines first more).setIfInBounds number line := by
  induction more generalizing lines first with
  | nil => rfl
  | cons other more ih =>
    rw [replaceLines, Array.setIfInBounds_comm _ _ (by omega), ih _ (Nat.lt_succ_of_lt before),
      replaceLines]

namespace Scope

variable {scope other : Scope}

theorem line_eq_getElem (scope : Scope) {number : Nat} (inText : number < scope.lines.size) :
    scope.line number = scope.lines[number] := by
  rw [line, Array.getElem?_eq_getElem inText, Option.getD_some]

/-- Behind the last line there is no content, whatever the lines are. -/
theorem isEmpty_of_le {number : Nat} (beyond : scope.lines.size ≤ number) :
    scope.isEmpty number = true := by
  rw [isEmpty, line, Array.getElem?_eq_none beyond]
  rfl

theorem line_congr (same : scope.lines.size = other.lines.size) {number : Nat}
    (inText : number < scope.lines.size) (found : scope.lines[number]? = other.lines[number]?) :
    scope.line number = other.line number := by
  rw [line_eq_getElem scope inText, line_eq_getElem other (same ▸ inText)]
  rw [Array.getElem?_eq_getElem inText, Array.getElem?_eq_getElem (same ▸ inText)] at found
  exact Option.some.inj found

theorem restore_line (scope : Scope) {number : Nat} (inText : number < scope.lines.size)
    (line : Line) :
    (scope.lines.setIfInBounds number line).setIfInBounds number (scope.line number) =
      scope.lines := by
  rw [Array.setIfInBounds_setIfInBounds, line_eq_getElem scope inText,
    Array.setIfInBounds_def, dif_pos inText, Array.set_getElem_self]

/-- The old lines in the place of the new ones are all lines as they were. -/
theorem restore_lines (scope : Scope) (first : Nat) (more : List Line)
    (fits : first + more.length ≤ scope.lines.size) :
    replaceLines (replaceLines scope.lines first more) first
        ((List.range' first more.length).map scope.line) = scope.lines := by
  induction more generalizing first with
  | nil => rfl
  | cons line more ih =>
    rw [List.length_cons] at fits ⊢
    -- The first line is put back before the others are.
    rw [List.range'_succ, List.map_cons, replaceLines, replaceLines,
      ← replaceLines_setIfInBounds _ (Nat.lt_succ_self first),
      restore_line scope (by omega) line]
    exact ih (first + 1) (by omega)

end Scope

/-- A line among those that are put in the place of others. -/
theorem line_replaceLines {lines : Array Line} {more : List Line} {first index : Nat} {line : Line}
    (found : more[index]? = some line) (fits : first + more.length ≤ lines.size) (indent : Nat)
    (parent : Parent) (level : Nat) :
    Scope.line ⟨replaceLines lines first more, indent, parent, level⟩ (first + index) = line := by
  induction more generalizing lines first index with
  | nil => cases found
  | cons other more ih =>
    rw [List.length_cons] at fits
    cases index with
    | zero =>
      cases found
      have size : first < (replaceLines lines (first + 1) more).size := by
        rw [size_replaceLines]
        omega
      rw [replaceLines, replaceLines_setIfInBounds _ (Nat.lt_succ_self first), Scope.line]
      simp [size]
    | succ index =>
      have others := @ih (lines.setIfInBounds first other) (first + 1) index found
        (by rw [Array.size_setIfInBounds]; omega)
      rwa [Nat.add_right_comm, Nat.add_assoc] at others

/-! ## What begins at a line -/

section

variable {md : Markdown} {scope other : Scope} {number : Nat}

theorem BlockRule.opens_congr (line : scope.line number = other.line number)
    (indent : scope.indent = other.indent) (parent : scope.parent = other.parent)
    (rule : BlockRule) : rule.opens md scope number = rule.opens md other number := by
  have deep : scope.isDeeplyIndented number = other.isDeeplyIndented number := by
    unfold Scope.isDeeplyIndented
    rw [line, indent]
  have dedented : scope.isDedented number = other.isDedented number := by
    unfold Scope.isDedented
    rw [line, indent]
  have content : scope.content number = other.content number := congrArg Line.content line
  cases rule with
  | code => exact deep
  | fence => unfold opens; rw [deep, content]
  | blockquote => unfold opens opensBlockquote; rw [deep, content]
  | hr => unfold opens hr?; rw [deep, content]
  | list => unfold opens opensList; rw [deep, content, dedented, parent]
  | embedded => unfold opens openTagAt?; rw [content]
  | heading => unfold opens; rw [deep, content]
  | paragraph => rfl

theorem endsAt_congr (line : scope.line number = other.line number)
    (indent : scope.indent = other.indent) (parent : scope.parent = other.parent)
    (chain : String) : endsAt md chain scope number = endsAt md chain other number := by
  unfold endsAt
  simp only [BlockRule.opens_congr line indent parent]

end

end ComponentMarkdown
