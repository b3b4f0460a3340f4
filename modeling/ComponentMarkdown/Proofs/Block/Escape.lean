import ComponentMarkdown.Proofs.Block.Embedded
import ComponentMarkdown.Proofs.Factory.Hanging
import ComponentMarkdown.Proofs.Inline.Escape

/-!
# Escaped lines are paragraphs

No block but a paragraph begins at a line that is escaped: of all punctuation only a backslash can
stand at its front or behind its first digits. The file has:

* `Scope.isOrdinary_escaped`: the rules for other blocks do not take the line;
* `parse_escaped`: the paragraph shows the line as it was.
-/

namespace ComponentMarkdown

open Factory (Solid)

variable {s : Text} {c : Char}

/-! ## The front of an escaped line -/

theorem head?_escaped_ne (isMark : isAsciiPunctuation c = true) (other : c ≠ '\\') (s : Text) :
    (escaped s).head? ≠ some c := by
  intro begins
  rcases head_escaped begins with same | ⟨notMark, -⟩
  · exact other same
  · rw [isMark] at notMark
    cases notMark

theorem ne_of_escaped_eq_cons {mark : Char} {rest : Text} (begins : escaped s = mark :: rest)
    (isMark : isAsciiPunctuation c = true) (other : c ≠ '\\') : mark ≠ c := by
  rintro rfl
  exact head?_escaped_ne isMark other s (congrArg List.head? begins)

theorem fenceOpening?_escaped (s : Text) : fenceOpening? (escaped s) = none := by
  cases begins : escaped s with
  | nil => rfl
  | cons mark rest =>
    have backtick : mark ≠ '\x60' := ne_of_escaped_eq_cons begins rfl (by decide)
    have tilde : mark ≠ '~' := ne_of_escaped_eq_cons begins rfl (by decide)
    simp [fenceOpening?, backtick, tilde]

theorem breakMarks?_escaped (s : Text) : breakMarks? (escaped s) = none := by
  cases begins : escaped s with
  | nil => rfl
  | cons mark rest =>
    have star : mark ≠ '*' := ne_of_escaped_eq_cons begins rfl (by decide)
    have dash : mark ≠ '-' := ne_of_escaped_eq_cons begins rfl (by decide)
    have underscore : mark ≠ '_' := ne_of_escaped_eq_cons begins rfl (by decide)
    simp [breakMarks?, star, dash, underscore]

theorem headingDepth?_escaped (s : Text) : headingDepth? (escaped s) = none := by
  cases begins : escaped s with
  | nil => rfl
  | cons mark rest =>
    have hash : mark ≠ '#' := ne_of_escaped_eq_cons begins rfl (by decide)
    simp [headingDepth?, Text.runLength, hash]

theorem bullet?_escaped (s : Text) : Marker.bullet? (escaped s) = none := by
  cases begins : escaped s with
  | nil => rfl
  | cons mark rest =>
    have star : mark ≠ '*' := ne_of_escaped_eq_cons begins rfl (by decide)
    have dash : mark ≠ '-' := ne_of_escaped_eq_cons begins rfl (by decide)
    have plus : mark ≠ '+' := ne_of_escaped_eq_cons begins rfl (by decide)
    simp [Marker.bullet?, star, dash, plus]

theorem not_isAsciiPunctuation_of_isDigit (digit : c.isDigit = true) :
    isAsciiPunctuation c = false := by
  have bounds : 48 ≤ c.toNat ∧ c.toNat ≤ 57 := by
    simpa [Char.isDigit, UInt32.le_iff_toNat_le] using digit
  rw [isAsciiPunctuation, Bool.eq_false_iff]
  intro mark
  simp only [Bool.or_eq_true, Bool.and_eq_true, decide_eq_true_eq] at mark
  omega

/-- What stands behind the first digits is escaped as well. -/
theorem dropWhile_isDigit_escaped (s : Text) :
    (escaped s).dropWhile Char.isDigit = escaped (s.dropWhile Char.isDigit) := by
  induction s with
  | nil => rfl
  | cons c s ih =>
    cases digit : c.isDigit with
    | true =>
      rw [escaped_other (not_isAsciiPunctuation_of_isDigit digit), List.dropWhile_cons_of_pos digit,
        List.dropWhile_cons_of_pos digit, ih]
    | false =>
      rw [List.dropWhile_cons_of_neg (by simp [digit]), escaped]
      split
      · exact List.dropWhile_cons_of_neg (by decide)
      · exact List.dropWhile_cons_of_neg (by simp [digit])

theorem ordered?_escaped (s : Text) : Marker.ordered? (escaped s) = none := by
  rw [Marker.ordered?, dropWhile_isDigit_escaped]
  cases begins : escaped (s.dropWhile Char.isDigit) with
  | nil => rfl
  | cons mark rest =>
    have dot : mark ≠ '.' := ne_of_escaped_eq_cons begins rfl (by decide)
    have parenthesis : mark ≠ ')' := ne_of_escaped_eq_cons begins rfl (by decide)
    simp [dot, parenthesis]

/-! ## The line -/

theorem isLine_escaped (line : IsLine s) : IsLine (escaped s) := by
  intro c member
  rcases mem_of_mem_escaped member with rfl | member
  · decide
  · exact line c member

theorem solid_escaped (solid : Solid s) : Solid (escaped s) := by
  refine ⟨?_, getLast?_escaped s ▸ solid.ends⟩
  obtain ⟨c, begins, shown⟩ := solid.begins
  obtain ⟨rest, rfl⟩ := List.head?_eq_some_iff.mp begins
  rw [escaped]
  split
  · exact ⟨'\\', rfl, rfl⟩
  · exact ⟨c, rfl, shown⟩

theorem not_isSpaceOrTab_of_not_isBlank (shown : isBlank c = false) : isSpaceOrTab c = false := by
  have notSpace : c ≠ ' ' := by
    rintro rfl
    cases shown
  have notTab : c ≠ '\t' := by
    rintro rfl
    cases shown
  simp [isSpaceOrTab, notSpace, notTab]

section

variable (ended : Bool) (line : IsLine s) (solid : Solid s)
include solid

theorem filled_escaped : [escaped s].getLast? ≠ some [] :=
  fun same => (solid_escaped solid).ne_nil (Option.some.inj same)

include line

theorem unplaced_line_escaped :
    ((Scope.ofSource (lineText ended [escaped s])).line 0).unplaced =
      ⟨0, [], escaped s, 0, ended⟩ := by
  obtain ⟨c, begins, shown⟩ := (solid_escaped solid).begins
  have here := unplaced_line_lineText ended
    (List.forall_mem_singleton.mpr (isLine_escaped line).noFeed) (filled_escaped solid)
    (Nat.succ_pos 0 : 0 < [escaped s].length)
  rw [here]
  show Line.ofText 0 (escaped s) (ended || false) = _
  rw [Bool.or_false, ofText_shown 0 begins (not_isSpaceOrTab_of_not_isBlank shown)]

theorem content_escaped : (Scope.ofSource (lineText ended [escaped s])).content 0 = escaped s :=
  congrArg Line.content (unplaced_line_escaped ended line solid)

/-- Only the rules for embedded markup and paragraphs can take the line. -/
theorem isOrdinary_escaped : (Scope.ofSource (lineText ended [escaped s])).IsOrdinary 0 := by
  have here := unplaced_line_escaped ended line solid
  refine ⟨?filled, ?shallow, ?fence, ?quote, ?hr, ?list, ?heading⟩
  case filled =>
    have notEmpty := (solid_escaped solid).ne_nil
    exact (congrArg Line.isEmpty here).trans (by simpa [Line.isEmpty] using notEmpty)
  case shallow => exact Scope.not_isDeeplyIndented (congrArg Line.columns here :)
  all_goals rw [content_escaped ended line solid]
  case fence => exact fenceOpening?_escaped s
  case quote => exact head?_escaped_ne rfl (by decide) s
  case hr => exact breakMarks?_escaped s
  case list => rw [Marker.of?, ordered?_escaped, bullet?_escaped]; rfl
  case heading => exact headingDepth?_escaped s

/-- It is no markup either. -/
theorem markupBlock_escaped (md : Markdown) :
    markupBlock md (Scope.ofSource (lineText ended [escaped s])) 0 1 =
      .paragraph (escaped s) (0, 1) false := by
  let scope := Scope.ofSource (lineText ended [escaped s])
  have noTag : openTagAt? md scope 0 = none := by
    rw [openTagAt?, content_escaped ended line solid]
    exact if_neg (by simpa using head?_escaped_ne (c := '<') rfl (by decide) s)
  have noMarkup : embeddedBlock? md scope 0 1 = none := by
    rw [embeddedBlock?, noTag]
    rfl
  have shown : scope.source 0 1 0 false = escaped s :=
    calc scope.source 0 1 0 false
      _ = (scope.line 0).unplaced.strip 0 ++ [] := rfl
      _ = escaped s := by rw [unplaced_line_escaped ended line solid, strip_zero]; simp
  rw [markupBlock, noMarkup, Option.getD_none]
  show Block.paragraph (scope.source 0 1 0 false).trim (0, 1) false = _
  rw [shown, Factory.trim_solid (solid_escaped solid)]

end

/-- The tokens of an escaped line: the text of the paragraph is the line. -/
theorem parse_escaped (md : Markdown) (room : 1 ≤ md.maxNesting) {s : Text} (line : IsLine s)
    (solid : Solid s) (ended : Bool) :
    let usual : Markdown :=
      { md with
        blockRules := ⟨BlockRule.all.map BlockRule.entry⟩
        inlineRules := ⟨InlineRule.all.map InlineRule.entry⟩ }
    usual.parse (lineText ended [escaped s]) =
      [{ blockToken .paragraphOpen ['p'] 0 (0, 1) with nesting := .opening },
       { inlineToken 1 (0, 1) (escaped s) with
         children := [{ kind := .text, tag := [], nesting := .selfClosing, content := s }] },
       { blockToken .paragraphClose ['p'] 0 (0, 1) with nesting := .closing, map := none }] := by
  intro usual
  have blocks : usual.blockChain RuleTable.mainChain = BlockRule.all := rfl
  have inlines : usual.inlineChain = InlineRule.all := rfl
  have keeps : usual.KeepsChains :=
    keepsChains_entries { md with inlineRules := usual.inlineRules } BlockRule.all
  have apart : ∀ line ∈ [escaped s], IsLine line :=
    List.forall_mem_singleton.mpr (isLine_escaped line)
  have ordinary := isOrdinary_escaped ended line solid
  have made := @findSome?_ordinary usual _ 0 1 (parseBlocks usual usual.maxNesting) {} ordinary
  rw [markupBlock_escaped ended line solid] at made
  have children : usual.inlineTokens (escaped s) =
      [{ kind := .text, tag := [], nesting := .selfClosing, content := s }] := by
    rw [inlineTokens_escaped inlines room line.noFeed, textTokens,
      if_neg (by simpa using solid.ne_nil)]
  rw [parse_lineText blocks keeps room ended apart (filled_escaped solid)
    ordinary.filled made rfl, ← children]
  rfl

/-- A line with the marks of a list, a tag, a reference and emphasis. -/
theorem parse_escaped_marks :
    let md : Markdown := { transform := .ok }
    let s := "1. <b> &amp; *x*".toList
    let text := "1\\. \\<b\\> \\&amp\\; \\*x\\*".toList
    escaped s = text ∧
      md.parse text =
        [{ blockToken .paragraphOpen ['p'] 0 (0, 1) with nesting := .opening },
         { inlineToken 1 (0, 1) text with
           children := [{ kind := .text, tag := [], nesting := .selfClosing, content := s }] },
         { blockToken .paragraphClose ['p'] 0 (0, 1) with nesting := .closing, map := none }] := by
  intro md s text
  have isEscaped : escaped s = text := by decide +kernel
  have whole : lineText false [text] = text := List.append_nil text
  have parsed := parse_escaped md (by decide) (s := s) (by decide) (by decide) false
  rw [isEscaped, whole] at parsed
  exact ⟨isEscaped, parsed⟩

end ComponentMarkdown
