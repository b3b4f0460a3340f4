import ComponentMarkdown.Compiler
import ComponentMarkdown.Proofs.Inline.Leaves
import ComponentMarkdown.Proofs.Text.Escape

/-!
# Escaped text is literal

Every character that can begin a construct is punctuation or a line end. In an escaped line only
plain characters and backslashes with the punctuation that they escape are read (`leaves_escaped`),
and so the line is a single text (`inlineTokens_escaped`).
-/

namespace ComponentMarkdown

variable {s : Text} {c : Char}

theorem not_isSpecial_of_other (other : isAsciiPunctuation c = false) (notFeed : c ≠ '\n') :
    isSpecial c = false := by
  unfold isSpecial
  split
  · exact absurd rfl notFeed
  all_goals first | rfl | cases other

/-- An escaped character is literal. -/
theorem leaf_escape (isMark : isAsciiPunctuation c = true) (behind : Text) :
    leaf? ('\\' :: c :: behind) = some (.leaf 2 (.literal [c])) := by
  have escapes : escape? ('\\' :: c :: behind) = some (.leaf 2 (.literal [c])) := if_pos isMark
  show (escape? ('\\' :: c :: behind) <|> codeSpan? ('\\' :: c :: behind)) = _
  rw [escapes]
  rfl

/-- So are the characters up to a special one. -/
theorem leaf_plain {front behind : Text} (notEmpty : front ≠ [])
    (plain : ∀ c ∈ front, isSpecial c = false)
    (ends : ∀ c, behind.head? = some c → isSpecial c = true) :
    leaf? (front ++ behind) = some (.leaf front.length (.literal front)) := by
  have none : behind.takeWhile (fun c => !isSpecial c) = [] := by
    cases behind with
    | nil => rfl
    | cons c behind => exact List.takeWhile_cons_of_neg (by simp [ends c rfl])
  have reads : plainRun? (front ++ behind) = some (.leaf front.length (.literal front)) := by
    rw [plainRun?, List.takeWhile_append_of_pos fun c member => by simp [plain c member], none,
      List.append_nil]
    exact if_neg (by simpa using notEmpty)
  rw [leaf?, reads]
  rfl

/-- A text without marks, and what stands behind it up to the end. -/
theorem exists_plain_front (s : Text) : ∃ front behind, s = front ++ behind ∧
    (∀ c ∈ front, isAsciiPunctuation c = false) ∧
    ∀ c, behind.head? = some c → isAsciiPunctuation c = true := by
  induction s with
  | nil => exact ⟨[], [], rfl, List.forall_mem_nil _, nofun⟩
  | cons c s ih =>
    cases isMark : isAsciiPunctuation c with
    | true => exact ⟨[], c :: s, rfl, List.forall_mem_nil _, by simp [isMark]⟩
    | false =>
      obtain ⟨front, behind, rfl, others, ends⟩ := ih
      exact ⟨c :: front, behind, rfl, List.forall_mem_cons.mpr ⟨isMark, others⟩, ends⟩

/-- An escaped line is read as literal pieces, which make up the line. -/
theorem leaves_escaped (oneLine : '\n' ∉ s) :
    ∃ texts : List Text, texts.flatten = s ∧ Leaves (escaped s) (texts.map .literal) := by
  induction length : s.length using Nat.strongRecOn generalizing s with
  | ind n ih =>
    obtain ⟨front, behind, rfl, others, ends⟩ := exists_plain_front s
    rw [List.length_append] at length
    rw [List.mem_append, not_or] at oneLine
    cases front with
    | nil =>
      cases behind with
      | nil => exact ⟨[], rfl, .nil⟩
      | cons c behind =>
        have isMark := ends c rfl
        rw [List.length_cons] at length
        obtain ⟨texts, rfl, leaves⟩ :=
          ih behind.length (by omega) (List.not_mem_of_not_mem_cons oneLine.2) rfl
        rw [List.nil_append, escaped_mark isMark]
        exact ⟨[c] :: texts, rfl, @Leaves.cons ['\\', c] _ _ _ (leaf_escape isMark _) leaves⟩
    | cons c front =>
      rw [List.length_cons] at length
      obtain ⟨texts, rfl, leaves⟩ := ih behind.length (by omega) oneLine.2 rfl
      have plain : ∀ d ∈ c :: front, isSpecial d = false := fun d member =>
        not_isSpecial_of_other (others d member) fun isFeed => oneLine.1 (isFeed ▸ member)
      have escapes : ∀ d, (escaped texts.flatten).head? = some d → isSpecial d = true := by
        intro d begins
        rcases head_escaped begins with rfl | ⟨notMark, begins⟩
        · rfl
        · exact absurd (ends d begins) (by simp [notMark])
      rw [escaped_append others]
      exact ⟨(c :: front) :: texts, rfl,
        .cons (leaf_plain (List.cons_ne_nil c front) plain escapes) leaves⟩

/-- The inline content of an escaped line is a single text. -/
theorem inlineTokens_escaped {md : Markdown} (chain : md.inlineChain = InlineRule.all)
    (levels : 1 ≤ md.maxNesting) (oneLine : '\n' ∉ s) :
    md.inlineTokens (escaped s) = textTokens 0 s := by
  obtain ⟨texts, rfl, leaves⟩ := leaves_escaped oneLine
  rw [Markdown.inlineTokens, InlineRun.parse_leaves chain levels leaves, Inline.tokens,
    InlineRun.emitAll_eq, InlineRun.emitPieces_map_literal]
  rfl

end ComponentMarkdown
