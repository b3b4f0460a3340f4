import ComponentMarkdown.Render.Attributes
import ComponentMarkdown.Render.Writer

/-!
# Indented text

Indentation goes before each line of a text. The file has:

* `indentBy_eq`: it goes to the front and behind each line feed;
* from there, indentation of text that is put together, and of indented text;
* `Quoted.quote` and `Attributes.objectLiteral`, which stay on one line.
-/

namespace ComponentMarkdown

/-! ## Lines -/

namespace Text

theorem splitWhere_ne_nil (separates : Char → Bool) (s : Text) : splitWhere separates s ≠ [] := by
  cases s with
  | nil => exact List.cons_ne_nil _ _
  | cons c s =>
    rw [splitWhere]
    split
    · exact List.cons_ne_nil _ _
    · split <;> exact List.cons_ne_nil _ _

/-- The pieces on either side of a separator. -/
theorem splitWhere_append {separates : Char → Bool} {c : Char} (isSeparator : separates c = true)
    (s more : Text) :
    splitWhere separates (s ++ c :: more) =
      splitWhere separates s ++ splitWhere separates more := by
  induction s with
  | nil =>
    show splitWhere separates (c :: more) = [] :: splitWhere separates more
    rw [splitWhere, if_pos isSeparator]
  | cons d s ih =>
    rw [List.cons_append, splitWhere, splitWhere, ih]
    split
    · rfl
    · cases found : splitWhere separates s with
      | nil => exact absurd found (splitWhere_ne_nil separates s)
      | cons piece pieces => rfl

/-- A text without separators is one piece. -/
theorem splitWhere_singleton {separates : Char → Bool} {s : Text}
    (apart : ∀ c ∈ s, separates c = false) : splitWhere separates s = [s] := by
  induction s with
  | nil => rfl
  | cons c s ih =>
    obtain ⟨first, others⟩ := List.forall_mem_cons.mp apart
    rw [splitWhere, first, if_neg Bool.false_ne_true, ih others]

theorem splitLines_line (c : Char) (s : Text) :
    splitLines (c :: s) =
      if c = '\n' then [] :: splitLines s
      else match splitLines s with
        | [] => [[c]]
        | piece :: pieces => (c :: piece) :: pieces := by
  rw [splitLines, splitWhere]
  simp only [beq_iff_eq]
  rfl

theorem splitLines_ne_nil (s : Text) : splitLines s ≠ [] :=
  splitWhere_ne_nil _ s

theorem join_cons (separator piece : Text) {pieces : List Text} (more : pieces ≠ []) :
    join separator (piece :: pieces) = piece ++ separator ++ join separator pieces := by
  cases pieces with
  | nil => exact absurd rfl more
  | cons other pieces => rfl

theorem join_append (separator front piece : Text) (pieces : List Text) :
    join separator ((front ++ piece) :: pieces) = front ++ join separator (piece :: pieces) := by
  cases pieces with
  | nil => rfl
  | cons other pieces =>
    rw [join_cons _ _ (List.cons_ne_nil _ _), join_cons _ _ (List.cons_ne_nil _ _)]
    simp only [List.append_assoc]

/-- A text without line feeds is one line. -/
theorem splitLines_singleton {s : Text} (oneLine : '\n' ∉ s) : splitLines s = [s] :=
  splitWhere_singleton fun _ member =>
    beq_eq_false_iff_ne.mpr fun isBreak => oneLine (isBreak ▸ member)

theorem splitLines_append {s : Text} (oneLine : '\n' ∉ s) (more : Text) :
    splitLines (s ++ '\n' :: more) = s :: splitLines more := by
  have pieces := @splitWhere_append (· == '\n') _ (beq_self_eq_true _) s more
  rw [show splitWhere (· == '\n') s = [s] from splitLines_singleton oneLine] at pieces
  exact pieces

/-- Lines are found again in their text. -/
theorem splitLines_join {lines : List Text} (notEmpty : lines ≠ [])
    (oneLine : ∀ line ∈ lines, '\n' ∉ line) : splitLines (join ['\n'] lines) = lines := by
  induction lines with
  | nil => exact absurd rfl notEmpty
  | cons line lines ih =>
    obtain ⟨first, others⟩ := List.forall_mem_cons.mp oneLine
    cases lines with
    | nil => exact splitLines_singleton first
    | cons other lines =>
      rw [join_cons _ _ (List.cons_ne_nil _ _), List.append_assoc, List.singleton_append,
        splitLines_append first, ih (List.cons_ne_nil _ _) others]

theorem join_splitLines (s : Text) : join ['\n'] (splitLines s) = s := by
  induction s with
  | nil => rfl
  | cons c s ih =>
    rw [splitLines_line]
    split
    · next isBreak => rw [join_cons _ _ (splitLines_ne_nil s), ih, isBreak]; rfl
    · cases found : splitLines s with
      | nil => exact absurd found (splitLines_ne_nil s)
      | cons piece pieces =>
        rw [found] at ih
        exact (join_append ['\n'] [c] piece pieces).trans (congrArg (c :: ·) ih)

theorem not_mem_splitLines (s : Text) : ∀ line ∈ splitLines s, '\n' ∉ line := by
  induction s with
  | nil => exact List.forall_mem_singleton.mpr (List.not_mem_nil)
  | cons c s ih =>
    rw [splitLines_line]
    split
    · exact List.forall_mem_cons.mpr ⟨List.not_mem_nil, ih⟩
    · next other =>
      split
      · exact List.forall_mem_singleton.mpr (by simpa using Ne.symm other)
      · next piece pieces found =>
        rw [found] at ih
        obtain ⟨first, others⟩ := List.forall_mem_cons.mp ih
        refine List.forall_mem_cons.mpr ⟨?_, others⟩
        rw [List.mem_cons, not_or]
        exact ⟨Ne.symm other, first⟩

theorem not_mem_spaces (count : Nat) : '\n' ∉ spaces count := by
  intro member
  cases List.eq_of_mem_replicate member

end Text

/-! ## Indentation -/

namespace Render

open Text (spaces)

/-- What indentation makes of a character: it goes behind a line feed. -/
def indentChar (count : Nat) (c : Char) : Text :=
  if c = '\n' then '\n' :: spaces count else [c]

theorem indentBy_eq (count : Nat) (s : Text) :
    indentBy count s = spaces count ++ s.flatMap (indentChar count) := by
  induction s with
  | nil => rfl
  | cons c s ih =>
    unfold indentBy at ih ⊢
    have notEmpty := Text.splitLines_ne_nil s
    rw [Text.splitLines_line, List.flatMap_cons, indentChar]
    split
    · rw [List.map_cons, Text.join_cons _ _ (by simpa using notEmpty), ih]
      simp
    · cases found : Text.splitLines s with
      | nil => exact absurd found notEmpty
      | cons piece pieces =>
        rw [found, List.map_cons, Text.join_append] at ih
        have behind := List.append_cancel_left ih
        have spelled : c :: piece = [c] ++ piece := rfl
        dsimp only
        rw [List.map_cons, Text.join_append, spelled, Text.join_append, behind]

variable {count : Nat}

theorem indentBy_append (count : Nat) (s more : Text) :
    indentBy count (s ++ more) = indentBy count s ++ more.flatMap (indentChar count) := by
  rw [indentBy_eq, indentBy_eq, List.flatMap_append, List.append_assoc]

/-- What stays on one line is not indented. -/
theorem flatMap_indentChar {s : Text} (oneLine : '\n' ∉ s) : s.flatMap (indentChar count) = s := by
  induction s with
  | nil => rfl
  | cons c s ih =>
    rw [List.mem_cons, not_or] at oneLine
    rw [List.flatMap_cons, ih oneLine.2, indentChar, if_neg (Ne.symm oneLine.1)]
    rfl

theorem indentBy_append_line (count : Nat) (s : Text) {more : Text} (oneLine : '\n' ∉ more) :
    indentBy count (s ++ more) = indentBy count s ++ more := by
  rw [indentBy_append, flatMap_indentChar oneLine]

/-- What goes behind a line feed is not indented itself. -/
theorem indentChar_indentChar (count more : Nat) (c : Char) :
    (indentChar more c).flatMap (indentChar count) = indentChar (count + more) c := by
  rw [indentChar, indentChar]
  split
  · rw [List.flatMap_cons, flatMap_indentChar (Text.not_mem_spaces more), indentChar, if_pos rfl,
      List.cons_append, Text.spaces, Text.spaces, List.replicate_append_replicate]
    rfl
  · next other => rw [List.flatMap_cons, indentChar, if_neg other]; rfl

/-- Indentation of indented text adds up. -/
theorem indentBy_indentBy (count more : Nat) (s : Text) :
    indentBy count (indentBy more s) = indentBy (count + more) s := by
  rw [indentBy_eq count, indentBy_eq more, indentBy_eq (count + more), List.flatMap_append,
    flatMap_indentChar (Text.not_mem_spaces more), List.flatMap_assoc, ← List.append_assoc,
    Text.spaces, Text.spaces, List.replicate_append_replicate]
  simp only [indentChar_indentChar]
  rfl

theorem isAllBlank_indentBy (count : Nat) (s : Text) :
    Text.isAllBlank (indentBy count s) = Text.isAllBlank s := by
  have blank : isBlank ' ' = true ∧ isBlank '\n' = true := by decide
  have spaces : (spaces count).all isBlank = true := by simp [Text.spaces, blank]
  have each : ∀ c, (indentChar count c).all isBlank = isBlank c := by
    intro c
    rw [indentChar]
    split
    · next same => rw [List.all_cons, spaces, same, Bool.and_true]
    · exact Bool.and_true _
  rw [Text.isAllBlank, Text.isAllBlank, indentBy_eq, List.all_append, spaces, Bool.true_and,
    List.all_flatMap]
  simp only [each]

/-- Code in several pieces is indented when its pieces are. -/
theorem join_indentBy (count : Nat) {pieces : List Text} (notEmpty : pieces ≠ []) :
    Text.join [',', '\n'] (pieces.map (indentBy count)) =
      indentBy count (Text.join [',', '\n'] pieces) := by
  induction pieces with
  | nil => exact absurd rfl notEmpty
  | cons piece pieces ih =>
    cases pieces with
    | nil => rfl
    | cons other pieces =>
      have behind := ih (List.cons_ne_nil _ _)
      rw [List.map_cons, Text.join_cons _ _ (by simp), Text.join_cons _ _ (List.cons_ne_nil _ _),
        behind, indentBy_append, indentBy_append, indentBy_eq count (Text.join _ _)]
      simp [indentChar]

theorem prefix_of_mem_splitLines (count : Nat) (s : Text) :
    ∀ line ∈ (indentBy count s).splitLines, Text.spaces count <+: line := by
  have notEmpty := Text.splitLines_ne_nil s
  have oneLine := Text.not_mem_splitLines s
  rw [indentBy, Text.splitLines_join (by simpa using notEmpty)]
  · intro line member
    obtain ⟨bare, -, rfl⟩ := List.mem_map.mp member
    exact List.prefix_append _ _
  · intro line member
    obtain ⟨bare, isLine, rfl⟩ := List.mem_map.mp member
    rw [List.mem_append, not_or]
    exact ⟨Text.not_mem_spaces count, oneLine bare isLine⟩

end Render

/-! ## Quoted text and attributes -/

namespace Quoted

theorem hexDigit_ne : ∀ n < 16, hexDigit n ≠ '\n' := by
  decide

theorem not_mem_escapeChar (c : Char) : '\n' ∉ escapeChar c := by
  unfold escapeChar
  split
  case h_8 _ _ _ _ notLine _ _ =>
    split
    · next control =>
      have high := hexDigit_ne (c.toNat / 16) (by omega)
      have low := hexDigit_ne (c.toNat % 16) (by omega)
      simp [Ne.symm high, Ne.symm low]
    · simpa using Ne.symm notLine
  all_goals decide

theorem not_mem_quote (s : Text) : '\n' ∉ quote s := by
  have inside : '\n' ∉ s.flatMap escapeChar := by
    intro member
    obtain ⟨c, -, member⟩ := List.mem_flatMap.mp member
    exact not_mem_escapeChar c member
  simp [quote, inside]

end Quoted

theorem Text.not_mem_join {separator : Text} {pieces : List Text} {c : Char}
    (outside : c ∉ separator) (inside : ∀ piece ∈ pieces, c ∉ piece) :
    c ∉ Text.join separator pieces := by
  induction pieces with
  | nil => exact List.not_mem_nil
  | cons piece pieces ih =>
    obtain ⟨first, others⟩ := List.forall_mem_cons.mp inside
    cases pieces with
    | nil => exact first
    | cons other pieces =>
      rw [join_cons _ _ (List.cons_ne_nil _ _)]
      simp [first, outside, ih others]

/-- Attributes that are text stay on one line. -/
theorem Attributes.not_mem_objectLiteral {attrs : Attributes}
    (textual : ∀ attr ∈ attrs, ∃ value, attr.2 = .text value) :
    '\n' ∉ attrs.objectLiteral := by
  have fields : ∀ field ∈ attrs.map fun attr => Quoted.quote (attrKey attr.1) ++ [':', ' '] ++
      attr.2.render, '\n' ∉ field := by
    intro field member
    obtain ⟨⟨name, value⟩, isAttr, rfl⟩ := List.mem_map.mp member
    obtain ⟨content, rfl⟩ := textual _ isAttr
    simp [AttributeValue.render, Quoted.not_mem_quote]
  have inside := @Text.not_mem_join [',', ' '] _ '\n' (by decide) fields
  simp only [objectLiteral, List.mem_append, List.mem_singleton, not_or]
  exact ⟨⟨by decide, inside⟩, by decide⟩

end ComponentMarkdown
