import ComponentMarkdown.Inline.Run
import ComponentMarkdown.Proofs.Inline.PlainText

/-!
# Silent runs

A rule that runs silently changes nothing but the position and the memo, for any grammar, and so
does skipping.
-/

namespace ComponentMarkdown.InlineRun

variable {md : Markdown} {run middle last : InlineRun} {skip : Step}

/-- The second run differs from the first in the position and the memo only. -/
def Moves (run moved : InlineRun) : Prop :=
  ∃ pos memo, moved = { run with pos, memo }

theorem Moves.refl (run : InlineRun) : Moves run run :=
  ⟨run.pos, run.memo, rfl⟩

theorem Moves.trans (first : Moves run middle) (second : Moves middle last) : Moves run last := by
  obtain ⟨_, _, rfl⟩ := first
  obtain ⟨pos, memo, rfl⟩ := second
  exact ⟨pos, memo, rfl⟩

theorem moves_to (run : InlineRun) (pos : Nat) (memo : Memo) :
    Moves run { run with pos, memo } :=
  ⟨pos, memo, rfl⟩

/-- The step changes nothing else of any run. -/
def MovesOnly (step : Step) : Prop :=
  ∀ run, Moves run (step run).2

theorem seekCloser_moves (quiet : MovesOnly skip) (marker : Char) (count bodyStart fuel : Nat)
    (run : InlineRun) : Moves run (seekCloser skip marker count bodyStart fuel run).2 := by
  induction fuel generalizing run with
  | zero => exact .refl run
  | succ fuel ih =>
    rw [seekCloser]
    dsimp only
    split
    · exact .refl run
    · split
      · exact .refl run
      · exact (quiet run).trans (ih _)

theorem seekLabelEnd_moves (quiet : MovesOnly skip) (fuel depth : Nat) (run : InlineRun) :
    Moves run (seekLabelEnd skip fuel depth run).2 := by
  induction fuel generalizing depth run with
  | zero => exact .refl run
  | succ fuel ih =>
    rw [seekLabelEnd]
    split
    · exact .refl run
    · next mark rest begins =>
      dsimp only
      generalize (if (mark == ']') = true then depth - 1 else depth) = depth
      split
      · exact .refl run
      · exact (quiet run).trans (ih _ _)

theorem seekCloseTag_moves (quiet : MovesOnly skip) (grammar : TagGrammar) (name : Text)
    (fuel : Nat) (run : InlineRun) : Moves run (seekCloseTag grammar skip name fuel run).2 := by
  induction fuel generalizing run with
  | zero => exact .refl run
  | succ fuel ih =>
    rw [seekCloseTag]
    dsimp only
    split
    · exact .refl run
    · split
      · split
        · exact quiet run
        · exact (quiet run).trans (ih _)
      · exact (quiet run).trans (ih _)

theorem take_moves (run : InlineRun) (found : Option Construct) :
    Moves run (run.take true found).2 := by
  unfold take
  split
  · exact moves_to run _ _
  · exact .refl run

/-- Whatever a search behind the position has found, the run goes on from some position. -/
theorem Moves.back {pos : Nat} (searched : Moves { run with pos } last) (next : Nat) :
    Moves run { last with pos := next } := by
  obtain ⟨_, memo, rfl⟩ := searched
  exact ⟨next, memo, rfl⟩

theorem emphasis_moves (quiet : MovesOnly skip) (parse : InlineRun → InlineRun) :
    MovesOnly (emphasis skip parse true) := by
  intro run
  unfold emphasis
  split
  · exact .refl run
  · dsimp only
    split
    · exact .refl run
    · have searched := fun pos marker count bodyStart fuel =>
        seekCloser_moves quiet marker count bodyStart fuel { run with pos }
      split
      · exact (searched _ _ _ _ _).back _
      · exact (searched _ _ _ _ _).back _

theorem labelled_moves (quiet : MovesOnly skip) (opening : Nat)
    (write : Target → Nat → Nat → InlineRun → InlineRun) :
    MovesOnly (labelled skip opening write true) := by
  intro run
  unfold labelled
  dsimp only
  have searched := fun pos fuel => seekLabelEnd_moves quiet fuel 1 { run with pos }
  split
  · exact (searched _ _).back _
  · split
    · exact (searched _ _).back _
    · exact (searched _ _).back _

theorem embedded_moves (quiet : MovesOnly skip) (parse : InlineRun → InlineRun) :
    MovesOnly (embedded md skip parse true) := by
  intro run
  unfold embedded
  dsimp only
  split
  · exact .refl run
  · split
    · exact .refl run
    · split
      · exact .refl run
      · exact moves_to run _ _
    · have searched := fun pos name fuel =>
        seekCloseTag_moves quiet md.grammar name fuel { run with pos }
      split
      · exact (searched _ _ _).back _
      · split
        · exact (searched _ _ _).back _
        · exact (searched _ _ _).back _

/-- A silent rule adds nothing to the run, for any grammar. -/
theorem runRule_moves (quiet : MovesOnly skip) (parse : InlineRun → InlineRun)
    (parseLabel : Text → List Token) (rule : InlineRule) :
    MovesOnly (runRule md skip parse parseLabel rule true) := by
  cases rule with
  | emphasis => exact emphasis_moves quiet parse
  | embedded => exact embedded_moves quiet parse
  | link =>
    intro run
    simp only [runRule, link]
    split
    · exact labelled_moves quiet _ _ run
    · exact .refl run
  | image =>
    intro run
    simp only [runRule, image]
    split
    · exact labelled_moves quiet _ _ run
    · exact .refl run
  | _ => exact fun run => take_moves run _

theorem skipBy_moves {step : InlineRule → Step} (quiet : ∀ rule, MovesOnly (step rule))
    (start : Nat) (rules : List InlineRule) : MovesOnly (skipBy step start rules) := by
  intro run
  induction rules generalizing run with
  | nil => exact .refl run
  | cons rule rules ih =>
    have tried : Moves run { (step rule { run with level := run.level + 1 }).2 with
        level := (step rule { run with level := run.level + 1 }).2.level - 1 } := by
      obtain ⟨pos, memo, same⟩ := quiet rule { run with level := run.level + 1 }
      rw [same]
      exact moves_to run pos memo
    rw [skipBy]
    dsimp only
    split
    · exact tried
    · exact (tried.trans (moves_to _ start _)).trans (ih _)

theorem recallStep_moves {step : Step} (quiet : MovesOnly step) : MovesOnly (recallStep step) := by
  intro run
  have anew : Moves run (recordStep step run).2 := (quiet run).trans (moves_to _ _ _)
  unfold recallStep
  split
  · split
    · exact moves_to run _ _
    · exact anew
  · exact anew

theorem skipUpTo_moves (md : Markdown) (fuel : Nat) : MovesOnly (skipUpTo md fuel) := by
  induction fuel with
  | zero => exact recallStep_moves fun run => moves_to run _ _
  | succ fuel ih =>
    refine recallStep_moves fun run => ?_
    have skipped := skipBy_moves (fun rule => @runRule_moves md _ ih id (fun _ => []) rule) run.pos
      md.inlineChain run
    dsimp only
    split
    · split
      · exact skipped
      · exact skipped.trans (moves_to _ _ _)
    · exact moves_to run _ _

/-- Skipping changes nothing but the position and the memo. -/
theorem skipNext_moves (md : Markdown) : MovesOnly (skipNext md) :=
  fun run => skipUpTo_moves md _ run

/-- Where nothing but text or emphasis begins, no other rule changes the run. -/
theorem runRule_nothing {run : InlineRun} (nothing : BeginsNothing run.cursor.rest)
    (step : Step) (parse : InlineRun → InlineRun) (parseLabel : Text → List Token)
    {rule : InlineRule} (notText : rule ≠ .text) (notEmphasis : rule ≠ .emphasis) :
    runRule md step parse parseLabel rule false run = (false, run) := by
  cases rule with
  | text => exact absurd rfl notText
  | emphasis => exact absurd rfl notEmphasis
  | newline => rw [runRule, nothing.newline]; rfl
  | escape => rw [runRule, nothing.escape]; rfl
  | backticks => rw [runRule, nothing.codeSpan]; rfl
  | autolink => rw [runRule, nothing.autolink]; rfl
  | entity => rw [runRule, nothing.entity]; rfl
  | embedded =>
    rw [runRule, embedded]
    dsimp only
    rw [nothing.embedded]
    rfl
  | link =>
    rw [runRule, link]
    split
    · next begins => exact absurd (congrArg List.head? begins) nothing.link
    · rfl
  | image =>
    rw [runRule, image]
    split
    · next begins => exact absurd (congrArg List.head? begins) nothing.image
    · rfl

end ComponentMarkdown.InlineRun
