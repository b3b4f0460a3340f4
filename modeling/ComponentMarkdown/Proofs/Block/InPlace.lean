import ComponentMarkdown.Block.Run
import ComponentMarkdown.Proofs.Block.Lists

/-!
# Parsing blocks in place and on a scope

Blocks that are parsed in place are the blocks that are parsed on the scope of the run, written as
tokens. The file has:

* `runRule_eq`: a rule adds the tokens of the block that it makes;
* `parseUpTo_parses`: the tokens of all blocks are added, one block after the other;
* `parse_eq` for a whole text, and `tryRule_eq` for a rule that runs on its own.
-/

namespace ComponentMarkdown.BlockRun

variable {md : Markdown} {parse : Nat → Nat → BlockRun → BlockRun} {tree : ParseBlocks}

/-! ## Rules -/

/-- Every rule adds the tokens of the block that it makes on the scope of the run. -/
theorem runRule_eq (keeps : md.KeepsChains) (parses : ParsesAs parse tree)
    (anew : StartsAnew tree) (fuel : Nat) (rule : BlockRule) {first stop : Nat} {run : BlockRun}
    (ordered : first ≤ stop) (inText : stop ≤ run.lineCount) :
    runRule md parse (fuel + 2) rule false first stop run =
      run.accept (ComponentMarkdown.runRule md tree rule run.scope run.progress first stop) := by
  cases rule with
  | code => exact code_eq first stop run
  | fence => exact fence_eq first stop run
  | blockquote =>
    exact blockquote_eq (answers_firstMatch keeps (by decide) fuel) parses ordered inText
  | hr => exact hr_eq first stop run
  | list => exact list_eq parses anew (answers_firstMatch keeps (by decide) fuel) first inText
  | embedded => exact embedded_eq first stop run
  | heading => exact heading_eq first stop run
  | paragraph => exact paragraph_eq (answers_firstMatch keeps (by decide) fuel) first stop run

/-- The first rule that matches is the first one that makes a block. -/
theorem firstMatch_eq {step : BlockRule → Step} {made : BlockRule → Option Made}
    {first stop : Nat} {run : BlockRun}
    (same : ∀ rule, step rule first stop run = run.accept (made rule)) (rules : List BlockRule) :
    firstMatch step rules first stop run = run.accept (rules.findSome? made) := by
  induction rules with
  | nil => rfl
  | cons rule rules ih =>
    unfold firstMatch
    dsimp only
    rw [List.findSome?_cons, same rule]
    cases made rule with
    | none => exact ih
    | some block => rfl

/-! ## Blocks -/

/-- A loop whose step makes blocks on the scope adds the tokens of these blocks. -/
theorem parseBy_eq {step : Step} {scope : Scope} {stop : Nat} {made : Progress → Nat → Option Made}
    (same : ∀ first progress tokens, first < stop → step first stop ⟨scope, progress, tokens⟩ =
      accept ⟨scope, progress, tokens⟩ (made progress first))
    (fuel next : Nat) (sawEmpty : Bool) (progress : Progress) (tokens : List Token) :
    parseBy md step stop fuel next sawEmpty ⟨scope, progress, tokens⟩ =
      ⟨scope, (blocksFrom md made scope stop fuel progress next sawEmpty).2,
        tokens ++ Block.allTokens scope.level
          (blocksFrom md made scope stop fuel progress next sawEmpty).1⟩ := by
  induction fuel generalizing next sawEmpty progress tokens with
  | zero => simp [parseBy, blocksFrom, Block.allTokens]
  | succ fuel ih =>
    unfold parseBy blocksFrom
    dsimp only [moveTo, setTight]
    by_cases ended : stop ≤ next
    · simp [ended, Block.allTokens]
    · rw [if_neg ended, if_neg ended]
      generalize scope.skipEmpty next = first
      cases outside : decide (stop ≤ first) || scope.isDedented first with
      | true => simp [Block.allTokens]
      | false =>
        simp only [Bool.false_eq_true, if_false]
        by_cases tooDeep : md.maxNesting ≤ scope.level
        · simp [tooDeep, Block.allTokens]
        · have inWindow : first < stop := by
            rw [Bool.or_eq_false_iff, decide_eq_false_iff_not] at outside
            exact Nat.lt_of_not_le outside.1
          rw [if_neg tooDeep, if_neg tooDeep, same first _ tokens inWindow]
          cases made { progress with line := first } first with
          | none => simp [accept, Block.allTokens]
          | some block =>
            obtain ⟨block, behind⟩ := block
            dsimp only [accept]
            by_cases stuck : behind.line ≤ first
            · simp [stuck, Block.allTokens]
            · simp only [stuck, Bool.not_true, Bool.false_or, decide_false, Bool.false_eq_true,
                if_false]
              -- An empty line right behind the block is skipped before the next one.
              by_cases emptyBehind :
                  (decide (behind.line < stop) && scope.isEmpty behind.line) = true
              · simp only [emptyBehind, if_true, ih, Bool.or_true, Block.allTokens,
                  List.append_assoc]
                exact if_pos emptyBehind
              · simp only [emptyBehind, Bool.false_eq_true, if_false, ih, Bool.or_false,
                  Block.allTokens, List.append_assoc]
                exact if_neg emptyBehind

/-- What comes first in a loop is to look for a line to go on from. -/
theorem blocksFrom_congr {made : Progress → Nat → Option Made} (scope : Scope)
    {before other : Progress} {first stop : Nat} (fuel : Nat) (sawEmpty : Bool)
    (ordered : first < stop) (tight : before.tight = other.tight) :
    blocksFrom md made scope stop (fuel + 1) before first sawEmpty =
      blocksFrom md made scope stop (fuel + 1) other first sawEmpty := by
  unfold blocksFrom
  rw [if_neg (Nat.not_le_of_lt ordered), if_neg (Nat.not_le_of_lt ordered), tight]

theorem startsAnew_parseBlocks (md : Markdown) (depth : Nat) :
    StartsAnew (parseBlocks md depth) := by
  intro scope before other first stop ordered tight
  cases depth with
  | zero =>
    unfold parseBlocks
    exact blocksFrom_congr scope _ false ordered tight
  | succ depth =>
    unfold parseBlocks
    exact blocksFrom_congr scope _ false ordered tight

/-- Blocks that are nested up to some depth. -/
theorem parseUpTo_parses (keeps : md.KeepsChains) (depth : Nat) :
    ParsesAs (parseUpTo md depth) (parseBlocks md depth) := by
  induction depth with
  | zero =>
    rintro first stop ⟨scope, progress, tokens⟩ -
    exact parseBy_eq (fun _ _ _ _ => rfl) _ _ _ _ _
  | succ depth ih =>
    rintro first stop ⟨scope, progress, tokens⟩ inText
    refine parseBy_eq ?_ _ _ _ _ _
    intro next progress tokens inWindow
    refine firstMatch_eq ?_ _
    intro rule
    -- There is a line to parse, so that there is fuel for questions.
    obtain ⟨fuel, enough⟩ : ∃ fuel, stop - next = fuel + 1 := ⟨stop - next - 1, by omega⟩
    rw [enough]
    exact runRule_eq keeps ih (startsAnew_parseBlocks md depth) fuel rule (Nat.le_of_lt inWindow)
      inText

theorem parseLines_parses (keeps : md.KeepsChains) : ParsesAs (parseLines md) (parseScope md) :=
  fun first stop run inText => parseUpTo_parses keeps _ first stop run inText

theorem startsAnew_parseScope (md : Markdown) : StartsAnew (parseScope md) :=
  fun scope => startsAnew_parseBlocks md _ scope

/-! ## Texts and single rules -/

/-- The tokens of a text are those of its blocks. -/
theorem parse_eq (keeps : md.KeepsChains) (source : Text) :
    BlockRun.parse md source = Block.allTokens 0 (Block.parse md source) := by
  unfold BlockRun.parse
  dsimp only
  rw [parseLines_parses keeps 0 _ (ofSource source) (Nat.le_refl _)]
  exact List.nil_append _

theorem tryRule_eq (keeps : md.KeepsChains) (rule : BlockRule) {first stop : Nat} {run : BlockRun}
    (ordered : first < stop) (inText : stop ≤ run.lineCount) :
    tryRule md rule first stop false run =
      run.accept
        (ComponentMarkdown.runRule md (parseScope md) rule run.scope run.progress first stop) := by
  unfold tryRule
  obtain ⟨fuel, enough⟩ : ∃ fuel, stop - first = fuel + 1 := ⟨stop - first - 1, by omega⟩
  rw [enough]
  exact runRule_eq keeps (parseLines_parses keeps) (startsAnew_parseScope md) fuel rule
    (Nat.le_of_lt ordered) inText

/-- A silent run only answers whether a block begins, but for indented code and paragraphs. -/
theorem tryRule_silent {rule : BlockRule} (asks : rule ≠ .code ∧ rule ≠ .paragraph)
    (first stop : Nat) (run : BlockRun) :
    tryRule md rule first stop true run = (rule.opens md run.scope first, run) :=
  runRule_silent (stop - first) asks first stop run

end ComponentMarkdown.BlockRun
