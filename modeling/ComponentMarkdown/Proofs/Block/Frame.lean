import ComponentMarkdown.Proofs.Block.InPlace

/-!
# What block rules leave as it is

A rule runs on lines that containers around it have changed, and goes on from there. The file has:

* `Frame`: a run of a rule leaves the scope as it was, and only a match changes anything;
* `BlockRule.IsSure` for the rules whose silent answer is the answer;
* `frame_tryRule`, the result for every rule on every run.
-/

namespace ComponentMarkdown

/-- Would a run in this scope match whenever a silent one does? -/
def BlockRule.IsSure (scope : Scope) : BlockRule → Prop
  | fence | blockquote | hr | heading => True
  | list => scope.parent ≠ .paragraph
  | code | embedded | paragraph => False

namespace BlockRun

/-- What holds of a rule that ran on `run`: the scope is as it was, tokens are only added, and
without a match nothing has changed. -/
structure Frame (run : BlockRun) (tried : Bool × BlockRun) : Prop where
  scope : tried.2.scope = run.scope
  tokens : run.tokens <+: tried.2.tokens
  unmatched : tried.1 = false → tried.2 = run

/-- A run that only adds a block keeps its frame. -/
theorem frame_accept (run : BlockRun) (made : Option Made) : Frame run (run.accept made) := by
  cases made with
  | none => exact ⟨rfl, List.prefix_refl _, fun _ => rfl⟩
  | some block =>
    refine ⟨rfl, List.prefix_append _ _, ?_⟩
    rintro ⟨⟩

/-! ## Silent and other runs -/

section

variable {md : Markdown} {parse : Nat → Nat → BlockRun → BlockRun} {ends : Step} (first stop : Nat)
  (run : BlockRun)

theorem fence_sure : (fence true first stop run).1 = (fence false first stop run).1 := by
  unfold fence
  dsimp only
  cases run.scope.isDeeplyIndented first with
  | true => rfl
  | false => cases fenceOpening? (run.scope.content first) <;> rfl

theorem hr_sure : (hr true first stop run).1 = (hr false first stop run).1 := by
  unfold hr
  cases run.scope.isDeeplyIndented first with
  | true => rfl
  | false => cases breakMarks? (run.scope.content first) <;> rfl

theorem heading_sure : (heading true first stop run).1 = (heading false first stop run).1 := by
  unfold heading
  dsimp only
  cases run.scope.isDeeplyIndented first with
  | true => rfl
  | false => cases headingDepth? (run.scope.content first) <;> rfl

theorem blockquote_sure :
    (blockquote parse ends true first stop run).1 =
      (blockquote parse ends false first stop run).1 := by
  unfold blockquote
  dsimp only
  cases run.scope.isDeeplyIndented first with
  | true => rfl
  | false => cases (run.scope.content first).head? != some '>' <;> rfl

/-- Only in a paragraph, a silent run asks for more than a marker. -/
theorem list_sure {run : BlockRun} (outside : run.scope.parent ≠ .paragraph) :
    (list parse ends true first stop run).1 = (list parse ends false first stop run).1 := by
  unfold list
  dsimp only
  cases run.scope.isDeeplyIndented first with
  | true => rfl
  | false =>
    cases Marker.of? (run.scope.content first) with
    | none => rfl
    | some marker => simp [outside]

/-- Embedded markup has to begin with a tag. -/
theorem embedded_asked {run : BlockRun} (matched : (embedded md false first stop run).1 = true) :
    (embedded md true first stop run).1 = true := by
  unfold embedded at matched ⊢
  dsimp only at matched ⊢
  cases begins : openTagAt? md run.scope first with
  | none => rw [begins] at matched; exact matched
  | some tag => rfl

end

/-! ## Every rule on every run -/

/-- A rule restores the lines, the indentation, the container and the level, and only adds tokens; a
rule that does not match changes nothing. A silent run of a rule that may end a block changes
nothing either, and its answer is that of the other run, but that a tag may turn out to begin no
embedded markup, and that not every list ends a paragraph. -/
theorem frame_tryRule (md : Markdown) (rules : List BlockRule) (rule : BlockRule)
    {first stop : Nat} {run : BlockRun} (ordered : first < stop) (inText : stop ≤ run.lineCount) :
    let md := { md with blockRules := ⟨rules.map (·.entry)⟩ }
    let tried := tryRule md rule first stop false run
    let asked := tryRule md rule first stop true run
    Frame run tried ∧
      (rule ≠ .code ∧ rule ≠ .paragraph → asked.2 = run) ∧
      (rule.IsSure run.scope → asked.1 = tried.1) ∧
      (rule = .embedded → tried.1 = true → asked.1 = true) := by
  intro md tried asked
  have keeps : md.KeepsChains := keepsChains_entries _ rules
  refine ⟨?frame, ?silent, ?sure, ?embedded⟩
  case frame =>
    show Frame run (tryRule md rule first stop false run)
    rw [tryRule_eq keeps rule ordered inText]
    exact frame_accept run _
  case silent =>
    intro asks
    exact congrArg Prod.snd (tryRule_silent asks first stop run)
  case sure =>
    intro sure
    cases rule with
    | fence => exact fence_sure first stop run
    | blockquote => exact blockquote_sure first stop run
    | hr => exact hr_sure first stop run
    | list => exact list_sure first stop sure
    | heading => exact heading_sure first stop run
    | code | embedded | paragraph => exact absurd sure id
  case embedded =>
    rintro rfl matched
    exact embedded_asked first stop matched

theorem frame_tryRule_blockquote :
    let md : Markdown := { transform := .ok }
    let run := ofSource ['>', ' ', 'a', '\n', 'b']
    Frame run (tryRule md .blockquote 0 2 false run) ∧
      (tryRule md .blockquote 0 2 true run).2 = run ∧
      (tryRule md .blockquote 0 2 false run).1 = true :=
  have frame := @frame_tryRule { transform := .ok } BlockRule.all .blockquote 0 2
    (ofSource ['>', ' ', 'a', '\n', 'b']) (by decide) (by decide)
  ⟨frame.1, frame.2.1 (by decide), by decide⟩

end BlockRun

end ComponentMarkdown
