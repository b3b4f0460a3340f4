import ComponentMarkdown.Compiler
import ComponentMarkdown.Proofs.Inline.Leaves
import ComponentMarkdown.Proofs.Text.LineEnding

/-!
# Code spans hold any text

A text without a run of exactly `count` backticks can stand in a code span: between two runs of
`count` backticks, with a space at either end. Runs of other lengths are passed over by the search
for the end (`untilTicks_apart`), and of the spaces around the text one goes at either end
(`spanText_padded`). The result is `parseInline_codeSpan`.
-/

namespace ComponentMarkdown

open Text

variable {count : Nat} {s : Text}

/-- The search for the end of a span passes over a text without a run of that length. -/
theorem untilTicks_apart (positive : 0 < count) (apart : ¬HasRun '\x60' count s) {rest : Text}
    (ends : rest.head? ≠ some '\x60') {fuel : Nat} (enough : s.length + rest.length < fuel) :
    ∃ left, rest.length < left ∧
      untilTicks? count fuel (s ++ rest) = (untilTicks? count left rest).map (s ++ ·) := by
  induction fuel generalizing s with
  | zero => exact absurd enough (Nat.not_lt_zero _)
  | succ fuel ih =>
    cases s with
    | nil => exact ⟨fuel + 1, by simpa using enough, by simp⟩
    | cons c s =>
      by_cases isTick : c = '\x60'
      · -- A run of another length is passed over as a whole.
        subst isTick
        have whole := replicate_append_drop '\x60' ('\x60' :: s)
        have length := runLength_append ends ('\x60' :: s)
        have bounded := runLength_le '\x60' ('\x60' :: s)
        have notEmpty := runLength_pos '\x60' s
        have otherLength : runLength '\x60' ('\x60' :: s) ≠ count :=
          fun same => apart (same ▸ hasRun_runLength '\x60' ('\x60' :: s))
        obtain ⟨left, enough, passed⟩ := ih (fun run => apart (run.of_drop positive))
          (by rw [List.length_drop]; omega)
        refine ⟨left, enough, ?_⟩
        rw [List.cons_append] at length ⊢
        rw [untilTicks?, if_pos (beq_self_eq_true _)]
        dsimp only
        rw [length, if_neg (by simpa using otherLength), ← List.cons_append,
          List.drop_append_of_le_length bounded, passed, Option.map_map]
        congr 1
        funext found
        rw [Function.comp_apply, ← List.append_assoc, whole]
      · rw [List.length_cons] at enough
        obtain ⟨left, enough, passed⟩ := ih (fun run => apart (run.cons isTick)) (by omega)
        refine ⟨left, enough, ?_⟩
        rw [List.cons_append, untilTicks_cons isTick, passed, Option.map_map]
        rfl

/-- It ends at a run of that length. -/
theorem untilTicks_ticks (positive : 0 < count) (fuel : Nat) :
    untilTicks? count (fuel + 1) (List.replicate count '\x60') = some [] := by
  obtain ⟨more, rfl⟩ := Nat.exists_eq_add_one.mpr positive
  rw [List.replicate_succ, untilTicks?, if_pos (beq_self_eq_true _), ← List.replicate_succ]
  dsimp only
  rw [runLength_replicate, if_pos (beq_self_eq_true _)]

/-- Of the spaces around a text that is not all spaces, one goes at either end. -/
theorem spanText_padded (oneLine : '\n' ∉ s) (shown : ∃ c ∈ s, c ≠ ' ') :
    spanText (' ' :: (s ++ [' '])) = s := by
  have same : Text.replaceChar '\n' ' ' (' ' :: (s ++ [' '])) = ' ' :: (s ++ [' ']) := by
    refine (List.map_congr_left fun c member => ?_).trans (List.map_id _)
    have notFeed : c ≠ '\n' := by
      rintro rfl
      exact oneLine (by simpa using member)
    exact if_neg (by simpa using notFeed)
  have visible : (' ' :: (s ++ [' '])).any (· != ' ') = true := by simpa using shown
  obtain ⟨c, member, -⟩ := shown
  have long : 2 < (' ' :: (s ++ [' '])).length := by
    have := List.length_pos_of_mem member
    simp only [List.length_cons, List.length_append, List.length_nil]
    omega
  rw [spanText, same, visible, decide_eq_true long, ← List.cons_append, List.getLast?_concat]
  simp

/-- A text between two runs of that many backticks, with a space at either end. -/
def codeSpan (count : Nat) (s : Text) : Text :=
  List.replicate count '\x60' ++ ' ' :: (s ++ ' ' :: List.replicate count '\x60')

/-- A span is read up to its end. -/
theorem codeSpan?_codeSpan (positive : 0 < count) (apart : ¬HasRun '\x60' count s)
    (oneLine : '\n' ∉ s) (shown : ∃ c ∈ s, c ≠ ' ') :
    codeSpan? (codeSpan count s) =
      some (.leaf (codeSpan count s).length (.code (List.replicate count '\x60') s)) := by
  let ticks := List.replicate count '\x60'
  let inner := ' ' :: (s ++ ' ' :: ticks)
  have length : runLength '\x60' (codeSpan count s) = count := by
    have ends : inner.head? ≠ some '\x60' := by simp [inner]
    exact (runLength_append ends ticks).trans (runLength_replicate '\x60' count)
  have behind : (codeSpan count s).drop count = inner := List.drop_left' List.length_replicate
  have found : untilTicks? count (inner.length + 1) inner = some (' ' :: (s ++ [' '])) := by
    have ends : (' ' :: ticks).head? ≠ some '\x60' := by simp
    have room : s.length + (' ' :: ticks).length < inner.length := by simp [inner]
    obtain ⟨left, enough, passed⟩ := untilTicks_apart positive apart ends room
    obtain ⟨fuel, rfl⟩ : ∃ fuel, left = fuel + 1 + 1 := ⟨left - 2, by simp [ticks] at enough; omega⟩
    rw [untilTicks_cons (by decide), passed, untilTicks_cons (by decide),
      untilTicks_ticks positive]
    rfl
  rw [codeSpan?]
  dsimp only
  rw [length, if_neg (by simpa using Nat.ne_of_gt positive), behind, found]
  dsimp only
  rw [spanText_padded oneLine shown]
  congr 2
  simp [codeSpan]
  omega

theorem leaf_codeSpan (positive : 0 < count) (apart : ¬HasRun '\x60' count s)
    (oneLine : '\n' ∉ s) (shown : ∃ c ∈ s, c ≠ ' ') :
    leaf? (codeSpan count s) =
      some (.leaf (codeSpan count s).length (.code (List.replicate count '\x60') s)) := by
  rw [← codeSpan?_codeSpan positive apart oneLine shown]
  obtain ⟨more, rfl⟩ := Nat.exists_eq_add_one.mpr positive
  rfl

/-- Any line that is not all spaces can stand in a code span, between runs of `count` backticks, if
it has no run of exactly that many itself. For any grammar, any transformer and any depth, the span
is then a single token, and the line is its content. -/
theorem parseInline_codeSpan (md : Markdown) (chain : md.inlineChain = InlineRule.all)
    (levels : 1 ≤ md.maxNesting) {s : Text} (line : IsLine s) (shown : ∃ c ∈ s, c ≠ ' ')
    {count : Nat} (positive : 1 ≤ count) (apart : ¬HasRun '\x60' count s) :
    md.parseInline (codeSpan count s) =
      [{ kind := .codeInline, tag := "code".toList, nesting := .selfClosing,
         markup := List.replicate count '\x60', content := s }] := by
  have ticks : IsLine (List.replicate count '\x60') := isLine_replicate (by decide) count
  have whole : IsLine (codeSpan count s) := by
    simp [codeSpan, isLine_append, isLine_cons, ticks, line]
  have leaves : Leaves (codeSpan count s) [.code (List.replicate count '\x60') s] :=
    .single (leaf_codeSpan positive apart line.noFeed shown)
  rw [Markdown.parseInline, whole.normalize_eq, Markdown.inlineTokens,
    InlineRun.parse_leaves chain levels leaves]
  rfl

/-- A line that begins and ends with a backtick and has a longer run, in a span of two. -/
theorem parseInline_codeSpan_ticks :
    let md : Markdown := { transform := .ok }
    md.parseInline "\x60\x60 \x60a \x60\x60\x60 b\x60 \x60\x60".toList =
      [{ kind := .codeInline, tag := "code".toList, nesting := .selfClosing,
         markup := "\x60\x60".toList, content := "\x60a \x60\x60\x60 b\x60".toList }] :=
  @parseInline_codeSpan { transform := .ok } rfl (by decide) "\x60a \x60\x60\x60 b\x60".toList
    (by decide) ⟨'a', by decide, by decide⟩ 2 (by decide) (by decide)

end ComponentMarkdown
