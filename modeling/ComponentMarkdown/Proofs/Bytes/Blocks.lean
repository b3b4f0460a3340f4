import ComponentMarkdown.Proofs.Bytes.Lists
import ComponentMarkdown.Proofs.Block.InPlace

/-!
# Parsing blocks by bytes

The rules of the chain run on marks for lines. The file has:

* `runRule`, `parseUpTo` and `parse`, with every access checked;
* `agrees_firstMatch`: with marks for lines, the question of a chain is answered as on lines;
* `parse_eq`: the tokens of a text are those that are parsed on its lines, and no access is wrong.
-/

namespace ComponentMarkdown

open Text Checked

namespace ByteRun

/-! ## Any rule -/

/-- Runs rules one after the other until one matches. -/
def firstMatch (step : BlockRule → Step) : List BlockRule → Step
  | [] => fun _ _ run => return (false, run)
  | rule :: rules => fun first stop run => do
    let tried ← step rule first stop run
    if tried.1 then return tried else firstMatch step rules first stop tried.2

/-- Runs a rule. `parse` parses the blocks of a container. What is under way ends where a rule of
its chain matches silently; `fuel` such questions may arise from each other. -/
def runRule (md : Markdown) (parse : Parse) : Nat → BlockRule → Bool → Step
  | 0, _, _ => fun _ _ _ => throw .depth
  | fuel + 1, rule, silent =>
    let ends := fun chain =>
      firstMatch (fun rule => runRule md parse fuel rule true) (md.blockChain chain)
    match rule with
    | .code => code
    | .fence => fence silent
    | .blockquote => blockquote parse (ends "blockquote") silent
    | .hr => hr silent
    | .list => list parse (ends "list") silent
    | .embedded => embedded md silent
    | .heading => heading silent
    | .paragraph => paragraph (ends "paragraph")

/-! ## Blocks -/

/-- Is the last line of a block empty, and is the line behind it, if it lies before `stop`? -/
def emptyAround (run : ByteRun) (stop : Nat) : Checked (Bool × Bool) := do
  let after := run.progress.line
  let last ← run.isEmpty (← minus after 1)
  if after < stop then return (last, ← run.isEmpty after) else return (last, false)

/-- Parses blocks one after the other with `step`, from `next` up to `stop`. `sawEmpty` says that an
empty line was met; at most `fuel` blocks are parsed. -/
def parseBy (md : Markdown) (step : Step) (stop : Nat) :
    Nat → Nat → Bool → ByteRun → Checked ByteRun
  | 0, _, _, _ => throw .depth
  | fuel + 1, next, sawEmpty, run =>
    if stop ≤ next then return run
    else do
      let first ← run.skipEmpty next
      let run := run.moveTo first
      if stop ≤ first then return run
      else if ← run.isDedented first then return run
      else if md.maxNesting ≤ run.level then return run.moveTo stop
      else
        let (matched, left) ← step first stop run
        let after := left.progress.line
        if !matched || after ≤ first then return left
        else
          let (lastEmpty, emptyBehind) ← left.emptyAround stop
          let run := left.setTight (!sawEmpty)
          if emptyBehind then parseBy md step stop fuel (after + 1) true (run.moveTo (after + 1))
          else parseBy md step stop fuel after (sawEmpty || lastEmpty) run

/-- Parses the blocks from line `first` up to `stop`, with containers nested up to `depth` deep. -/
def parseUpTo (md : Markdown) : Nat → Parse
  | 0 => fun first stop run =>
    parseBy md (fun _ _ _ => throw .depth) stop (stop - first + 1) first false run
  | depth + 1 => fun first stop run =>
    let step := fun first stop run =>
      firstMatch (fun rule => runRule md (parseUpTo md depth) (stop - first + 1) rule false)
        (md.blockChain RuleTable.mainChain) first stop run
    parseBy md step stop (stop - first + 1) first false run

/-- The tokens of a text. -/
def parse (md : Markdown) (source : Text) : Checked (List Token) := do
  let run ← ofSource source
  return (← parseUpTo md (md.maxNesting + 1) 0 run.lineMax run).tokens

/-! ## Rules -/

section

variable {md : Markdown} {source : Text} {run : BlockRun} {first next stop depth : Nat}
  {parse : Nat → Nat → BlockRun → BlockRun} {checkedParse : Parse} {tree : ParseBlocks}

/-- The first rule that matches is the same if each of the rules does the same, and leaves the run
as it is where it does not match. -/
theorem firstMatch_eq {step : BlockRule → BlockRun.Step} {checkedStep : BlockRule → Step}
    (rules : List BlockRule)
    (same : ∀ rule ∈ rules, checkedStep rule first stop (ofRun source run) =
      .ok (ofStep source (step rule first stop run)))
    (stays : ∀ rule ∈ rules, (step rule first stop run).1 = false →
      (step rule first stop run).2 = run) :
    firstMatch checkedStep rules first stop (ofRun source run) =
      .ok (ofStep source (BlockRun.firstMatch step rules first stop run)) := by
  induction rules with
  | nil => rfl
  | cons rule rules ih =>
    obtain ⟨same, sameOthers⟩ := List.forall_mem_cons.mp same
    obtain ⟨stays, staysOthers⟩ := List.forall_mem_cons.mp stays
    unfold firstMatch BlockRun.firstMatch
    rw [same, ok_bind]
    generalize step rule first stop run = tried at stays
    obtain ⟨matched, left⟩ := tried
    cases matched with
    | true => rfl
    | false =>
      obtain rfl : left = run := stays rfl
      exact ih sameOthers staysOthers

/-- With marks for lines, a rule that belongs to other chains answers what it answers on lines. -/
theorem runRule_silent (isJsx : md.grammar = TagGrammar.jsx)
    (parses : BlockRun.ParsesAs parse tree) (anew : BlockRun.StartsAnew tree)
    (takes : TakesLines md depth tree) (like : ParsesLike md depth source checkedParse parse)
    (fuel : Nat) {rule : BlockRule} (asks : rule ≠ .code ∧ rule ≠ .paragraph)
    (lies : run.scope.LiesIn source) (inWindow : first < stop) (inText : stop ≤ run.lineCount) :
    runRule md checkedParse (fuel + 1) rule true first stop (ofRun source run) =
      .ok (ofStep source (BlockRun.runRule md parse (fuel + 1) rule true first stop run)) := by
  have inLines : first < run.lineCount := Nat.lt_of_lt_of_le inWindow inText
  cases rule with
  | code => exact absurd rfl asks.1
  | fence => exact fence_eq lies true inWindow inText
  | blockquote => exact blockquote_eq parses like true nofun nofun nofun lies inWindow inText
  | hr => exact hr_eq lies true stop inLines
  | list => exact list_eq parses anew takes like true nofun nofun nofun lies inWindow inText
  | embedded => exact embedded_eq isJsx lies true inWindow inText
  | heading => exact heading_eq lies true stop inLines
  | paragraph => exact absurd rfl asks.2

/-- With marks for lines, the question of a chain is answered as it is on lines. -/
theorem agrees_firstMatch (keeps : md.KeepsChains) (isJsx : md.grammar = TagGrammar.jsx)
    (parses : BlockRun.ParsesAs parse tree) (anew : BlockRun.StartsAnew tree)
    (takes : TakesLines md depth tree) (like : ParsesLike md depth source checkedParse parse)
    {chain : String} (named : chain ≠ RuleTable.mainChain) (fuel : Nat) :
    Agrees source
      (firstMatch (fun rule => runRule md checkedParse (fuel + 1) rule true) (md.blockChain chain))
      (BlockRun.firstMatch (fun rule => BlockRun.runRule md parse (fuel + 1) rule true)
        (md.blockChain chain)) := by
  intro first stop run inWindow inText lies
  refine firstMatch_eq _ (fun rule member => ?_) fun rule member _ => ?_
  · exact runRule_silent isJsx parses anew takes like fuel (keeps.asks named member) lies inWindow
      inText
  · rw [BlockRun.runRule_silent fuel (keeps.asks named member)]

/-- With marks for lines, a rule does what it does on lines. -/
theorem runRule_eq (keeps : md.KeepsChains) (isJsx : md.grammar = TagGrammar.jsx)
    (parses : BlockRun.ParsesAs parse tree) (anew : BlockRun.StartsAnew tree)
    (takes : TakesLines md depth tree) (like : ParsesLike md depth source checkedParse parse)
    (fuel : Nat) (rule : BlockRule) (levels : md.maxNesting ≤ run.scope.level + (depth + 1))
    (lies : run.scope.LiesIn source) (inWindow : first < stop) (inText : stop ≤ run.lineCount) :
    runRule md checkedParse (fuel + 2) rule false first stop (ofRun source run) =
      .ok (ofStep source (BlockRun.runRule md parse (fuel + 2) rule false first stop run)) := by
  have inLines : first < run.lineCount := Nat.lt_of_lt_of_le inWindow inText
  have answers {chain : String} (named : chain ≠ RuleTable.mainChain) :=
    @BlockRun.answers_firstMatch md parse keeps chain named fuel
  have agrees {chain : String} (named : chain ≠ RuleTable.mainChain) :=
    agrees_firstMatch keeps isJsx parses anew takes like named fuel
  cases rule with
  | code => exact code_eq lies inWindow inText
  | fence => exact fence_eq lies false inWindow inText
  | blockquote =>
    exact blockquote_eq parses like false (fun _ => answers (by decide))
      (fun _ => agrees (by decide)) (fun _ => levels) lies inWindow inText
  | hr => exact hr_eq lies false stop inLines
  | list =>
    exact list_eq parses anew takes like false (fun _ => answers (by decide))
      (fun _ => agrees (by decide)) (fun _ => levels) lies inWindow inText
  | embedded => exact embedded_eq isJsx lies false inWindow inText
  | heading => exact heading_eq lies false stop inLines
  | paragraph =>
    exact paragraph_eq (answers (by decide)) (agrees (by decide)) lies inWindow inText

/-- On lines, the first rule of the main chain that matches makes a block. -/
theorem mainChain_accepts (keeps : md.KeepsChains) (parses : BlockRun.ParsesAs parse tree)
    (anew : BlockRun.StartsAnew tree) (inWindow : first < stop) (inText : stop ≤ run.lineCount) :
    BlockRun.firstMatch (fun rule => BlockRun.runRule md parse (stop - first + 1) rule false)
        (md.blockChain RuleTable.mainChain) first stop run =
      run.accept ((md.blockChain RuleTable.mainChain).findSome? fun rule =>
        ComponentMarkdown.runRule md tree rule run.scope run.progress first stop) := by
  -- There is a line to parse, so that there is fuel for questions.
  obtain ⟨fuel, enough⟩ : ∃ fuel, stop - first = fuel + 1 := ⟨stop - first - 1, by omega⟩
  rw [enough]
  exact BlockRun.firstMatch_eq (fun rule =>
    BlockRun.runRule_eq keeps parses anew fuel rule (Nat.le_of_lt inWindow) inText) _

/-- With marks for lines, the rules of the main chain do what they do on lines. -/
theorem mainChain_eq (keeps : md.KeepsChains) (isJsx : md.grammar = TagGrammar.jsx)
    (parses : BlockRun.ParsesAs parse tree) (anew : BlockRun.StartsAnew tree)
    (takes : TakesLines md depth tree) (like : ParsesLike md depth source checkedParse parse)
    (levels : md.maxNesting ≤ run.scope.level + (depth + 1)) (lies : run.scope.LiesIn source)
    (inWindow : first < stop) (inText : stop ≤ run.lineCount) :
    firstMatch (fun rule => runRule md checkedParse (stop - first + 1) rule false)
        (md.blockChain RuleTable.mainChain) first stop (ofRun source run) =
      .ok (ofStep source (BlockRun.firstMatch
        (fun rule => BlockRun.runRule md parse (stop - first + 1) rule false)
        (md.blockChain RuleTable.mainChain) first stop run)) := by
  obtain ⟨fuel, enough⟩ : ∃ fuel, stop - first = fuel + 1 := ⟨stop - first - 1, by omega⟩
  rw [enough]
  refine firstMatch_eq _ (fun rule _ => ?_) fun rule _ => ?_
  · exact runRule_eq keeps isJsx parses anew takes like fuel rule levels lies inWindow inText
  · rw [BlockRun.runRule_eq keeps parses anew fuel rule (Nat.le_of_lt inWindow) inText]
    cases ComponentMarkdown.runRule md tree rule run.scope run.progress first stop with
    | none => exact fun _ => rfl
    | some made => exact nofun

end

/-! ## Blocks -/

section

variable {md : Markdown} {source : Text} {scope : Scope} {stop : Nat} {step : BlockRun.Step}
  {checkedStep : Step} {made : Progress → Nat → Option Made}

theorem emptyAround_eq {run : BlockRun} (lies : run.scope.LiesIn source)
    (inText : stop ≤ run.lineCount) (behind : 0 < run.progress.line)
    (inLines : run.progress.line ≤ run.lineCount) :
    (ofRun source run).emptyAround stop =
      .ok (run.scope.isEmpty (run.progress.line - 1),
        decide (run.progress.line < stop) && run.scope.isEmpty run.progress.line) := by
  unfold emptyAround
  dsimp only
  rw [show (ofRun source run).progress.line = run.progress.line from rfl,
    minus_of_le (show 1 ≤ run.progress.line from behind), ok_bind,
    isEmpty_eq lies (show run.progress.line - 1 < run.lineCount by omega), ok_bind]
  rcases Nat.lt_or_ge run.progress.line stop with inWindow | beyond
  · rw [if_pos inWindow, decide_eq_true inWindow, Bool.true_and,
      isEmpty_eq lies (Nat.lt_of_lt_of_le inWindow inText)]
    rfl
  · rw [if_neg (Nat.not_lt_of_le beyond), decide_eq_false (Nat.not_lt_of_le beyond)]
    rfl

/-- A loop whose step does what it does on lines does the same. The step is not asked if there is no
level left to make blocks on. -/
theorem parseBy_eq
    (same : ∀ first progress tokens, first < stop → scope.level < md.maxNesting →
      checkedStep first stop (ofRun source ⟨scope, progress, tokens⟩) =
        .ok (ofStep source (step first stop ⟨scope, progress, tokens⟩)))
    (accepts : ∀ first progress tokens, first < stop →
      step first stop ⟨scope, progress, tokens⟩ =
        BlockRun.accept ⟨scope, progress, tokens⟩ (made progress first))
    (makes : MakesBlocks md scope stop made) (lies : scope.LiesIn source)
    (inText : stop ≤ scope.lines.size) (fuel next : Nat) (positive : 0 < fuel)
    (enough : stop < next + fuel) (sawEmpty : Bool) (progress : Progress) (tokens : List Token) :
    parseBy md checkedStep stop fuel next sawEmpty (ofRun source ⟨scope, progress, tokens⟩) =
      .ok (ofRun source
        (BlockRun.parseBy md step stop fuel next sawEmpty ⟨scope, progress, tokens⟩)) := by
  induction fuel generalizing next sawEmpty progress tokens with
  | zero => exact absurd positive (Nat.lt_irrefl 0)
  | succ fuel ih =>
    rw [parseBy, BlockRun.parseBy]
    rcases Nat.lt_or_ge next stop with goesOn | ended
    case inr =>
      rw [if_pos ended, if_pos ended]
      rfl
    have skips := scope.le_skipEmpty next
    rw [if_neg (Nat.not_le_of_lt goesOn), if_neg (Nat.not_le_of_lt goesOn),
      @skipEmpty_eq source ⟨scope, progress, tokens⟩ lies, ok_bind]
    dsimp only [BlockRun.moveTo]
    generalize scope.skipEmpty next = first at skips
    rcases Nat.lt_or_ge first stop with inWindow | beyond
    case inr =>
      rw [if_pos beyond, decide_eq_true beyond]
      rfl
    have moved : (ofRun source ⟨scope, progress, tokens⟩).moveTo first =
        ofRun source ⟨scope, { progress with line := first }, tokens⟩ := rfl
    have inLines : first < scope.lines.size := Nat.lt_of_lt_of_le inWindow inText
    rw [if_neg (Nat.not_le_of_lt inWindow), decide_eq_false (Nat.not_le_of_lt inWindow),
      Bool.false_or, moved, isDedented_eq inLines, ok_bind]
    cases dedented : scope.isDedented first with
    | true => rfl
    | false =>
      rw [if_neg Bool.false_ne_true, if_neg Bool.false_ne_true,
        show (ofRun source ⟨scope, { progress with line := first }, tokens⟩).level = scope.level
          from rfl]
      rcases Nat.lt_or_ge scope.level md.maxNesting with shallow | tooDeep
      case inr =>
        rw [if_pos tooDeep, if_pos tooDeep]
        rfl
      obtain ⟨⟨block, behind⟩, isMade, takes⟩ :=
        makes shallow { progress with line := first } first inWindow dedented
      have after : first < behind.line ∧ behind.line ≤ scope.lines.size :=
        ⟨takes.behind, takes.inText⟩
      rw [if_neg (Nat.not_le_of_lt shallow), if_neg (Nat.not_le_of_lt shallow),
        same first _ _ inWindow shallow, ok_bind, accepts first _ _ inWindow, isMade]
      dsimp only [BlockRun.accept, ofStep]
      generalize tokens ++ block.tokens scope.level = tokens
      obtain ⟨line, wasTight⟩ := behind
      dsimp only at after
      have moves : ¬ (!true || decide (line ≤ first)) = true := by
        rw [Bool.not_true, Bool.false_or, decide_eq_true_iff]
        exact Nat.not_le_of_lt after.1
      have around := @emptyAround_eq source stop ⟨scope, ⟨line, wasTight⟩, tokens⟩ lies inText
        (Nat.zero_lt_of_lt after.1) after.2
      refine ((if_neg moves).trans ?_).trans
        (congrArg (fun left => Except.ok (ofRun source left)) (if_neg moves)).symm
      rw [around, ok_bind]
      dsimp only [BlockRun.setTight]
      cases emptyBehind : decide (line < stop) && scope.isEmpty line with
      | true =>
        exact (ih (line + 1) (by omega) (by omega) true ⟨line + 1, !sawEmpty⟩ tokens).trans
          (congrArg (fun left => Except.ok (ofRun source left)) (if_pos emptyBehind)).symm
      | false =>
        have notEmpty : ¬ (decide (line < stop) && scope.isEmpty line) = true :=
          Bool.eq_false_iff.mp emptyBehind
        exact (ih line (by omega) (by omega) _ ⟨line, !sawEmpty⟩ tokens).trans
          (congrArg (fun left => Except.ok (ofRun source left)) (if_neg notEmpty)).symm

/-- With marks for lines, blocks that are nested up to some depth are parsed as they are on lines,
if there are no more levels left. -/
theorem parseUpTo_eq (keeps : md.KeepsChains) (isJsx : md.grammar = TagGrammar.jsx)
    (paragraphs : .paragraph ∈ md.blockChain RuleTable.mainChain) (source : Text) (depth : Nat) :
    ParsesLike md depth source (parseUpTo md depth) (BlockRun.parseUpTo md depth) := by
  induction depth with
  | zero =>
    rintro first stop ⟨scope, progress, tokens⟩ inText lies levels
    have noLevel {P : Prop} (shallow : scope.level < md.maxNesting) : P :=
      absurd shallow (Nat.not_lt_of_le levels)
    rw [parseUpTo, BlockRun.parseUpTo]
    exact @parseBy_eq md source scope stop _ _ (fun _ _ => none) (fun _ _ _ _ => noLevel)
      (fun _ _ _ _ => rfl) noLevel lies inText _ first (Nat.succ_pos _) (by omega) false progress
      tokens
  | succ depth ih =>
    rintro first stop ⟨scope, progress, tokens⟩ inText lies levels
    have parses := BlockRun.parseUpTo_parses keeps depth
    have anew := BlockRun.startsAnew_parseBlocks md depth
    have takes := takesLines_parseBlocks paragraphs depth
    rw [parseUpTo, BlockRun.parseUpTo]
    refine parseBy_eq ?same ?accepts (makesBlocks_rules takes paragraphs levels inText) lies
      inText _
      first (Nat.succ_pos _) (by omega) false progress tokens
    case same =>
      intro next progress tokens inWindow _
      exact @mainChain_eq md source ⟨scope, progress, tokens⟩ next stop depth _ _ _ keeps isJsx
        parses
        anew takes ih levels lies inWindow inText
    case accepts =>
      intro next progress tokens inWindow
      exact @mainChain_accepts md ⟨scope, progress, tokens⟩ next stop _ _ keeps parses anew inWindow
        inText

/-- The tokens of a text are those that are parsed on its lines, and no access is wrong. -/
theorem parse_eq (keeps : md.KeepsChains) (isJsx : md.grammar = TagGrammar.jsx)
    (paragraphs : .paragraph ∈ md.blockChain RuleTable.mainChain) (source : Text) :
    parse md source = .ok (BlockRun.parse md source) := by
  have parsed := parseUpTo_eq keeps isJsx paragraphs source (md.maxNesting + 1) 0
    (BlockRun.ofSource source).lineCount (BlockRun.ofSource source) (Nat.le_refl _)
    (liesIn_ofSource source)
    (show md.maxNesting ≤ 0 + (md.maxNesting + 1) by omega)
  unfold parse
  rw [ofSource_eq, ok_bind]
  show (parseUpTo md (md.maxNesting + 1) 0 (BlockRun.ofSource source).lineCount
    (ofRun source (BlockRun.ofSource source)) >>= _) = _
  rw [parsed]
  rfl

end

end ByteRun

end ComponentMarkdown
