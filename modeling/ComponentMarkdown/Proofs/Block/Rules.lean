import ComponentMarkdown.Block.Rules
import ComponentMarkdown.Block.Parse
import ComponentMarkdown.Proofs.Block.Lines

/-!
# Block rules in place and on a scope

A block rule that runs in place makes the block that it makes on the scope of the run: it adds the
tokens of the block, and the scope is the old one again at the end. The file has:

* `runRule_silent`: a silent run of a rule that may end a block is a question, `endsAt` the answer;
* the rules for blocks without blocks in them;
* quotes and lists, where `parse` parses the blocks in them.
-/

namespace ComponentMarkdown

/-! ## Questions -/

/-- Each rule belongs to the chains that the rules of its kind belong to. -/
def Markdown.KeepsChains (md : Markdown) : Prop :=
  ∀ entry ∈ md.blockRules.entries, entry.chains = entry.rule.chains

theorem keepsChains_entries (md : Markdown) (rules : List BlockRule) :
    Markdown.KeepsChains { md with blockRules := ⟨rules.map (·.entry)⟩ } := by
  intro entry member
  obtain ⟨rule, -, rfl⟩ := List.mem_map.mp member
  rfl

/-- Indented code and paragraphs end nothing: they belong to no chain but the main one. -/
theorem Markdown.KeepsChains.asks {md : Markdown} (keeps : md.KeepsChains) {chain : String}
    (named : chain ≠ RuleTable.mainChain) {rule : BlockRule} (member : rule ∈ md.blockChain chain) :
    rule ≠ .code ∧ rule ≠ .paragraph := by
  have isNamed : (chain == RuleTable.mainChain) = false := by simpa using named
  simp only [Markdown.blockChain, RuleTable.rules, isNamed, Bool.false_eq_true, if_false,
    List.nil_append, List.mem_flatMap, List.mem_replicate] at member
  obtain ⟨entry, isEntry, belongs, rfl⟩ := member
  rw [keeps entry isEntry] at belongs
  constructor
  · intro isCode
    simp [isCode, BlockRule.chains] at belongs
  · intro isParagraph
    simp [isParagraph, BlockRule.chains] at belongs

namespace BlockRun

variable {md : Markdown} {parse : Nat → Nat → BlockRun → BlockRun}

/-- A silent run answers whether a block begins at the line, and changes nothing. -/
theorem runRule_silent (fuel : Nat) {rule : BlockRule} (asks : rule ≠ .code ∧ rule ≠ .paragraph)
    (first stop : Nat) (run : BlockRun) :
    runRule md parse (fuel + 1) rule true first stop run =
      (rule.opens md run.scope first, run) := by
  cases rule with
  | code => exact absurd rfl asks.1
  | fence =>
    show fence true first stop run = _
    unfold fence BlockRule.opens
    dsimp only
    cases run.scope.isDeeplyIndented first with
    | true => rfl
    | false => cases fenceOpening? (run.scope.content first) <;> rfl
  | blockquote =>
    show blockquote parse _ true first stop run = _
    unfold blockquote BlockRule.opens opensBlockquote
    dsimp only
    cases run.scope.isDeeplyIndented first with
    | true => rfl
    | false =>
      cases begins : (run.scope.content first).head? == some '>' with
      | true => simp [bne, begins]
      | false => simp [bne, begins]
  | hr =>
    show hr true first stop run = _
    unfold hr BlockRule.opens hr?
    dsimp only
    cases run.scope.isDeeplyIndented first with
    | true => rfl
    | false => cases breakMarks? (run.scope.content first) <;> rfl
  | list =>
    show list parse _ true first stop run = _
    unfold list BlockRule.opens opensList
    dsimp only
    cases run.scope.isDeeplyIndented first with
    | true => rfl
    | false =>
      cases Marker.of? (run.scope.content first) with
      | none => rfl
      | some marker =>
        simp only [Bool.false_eq_true, if_false, if_true, Bool.not_false, Bool.true_and,
          Option.any_some]
        cases marker.interrupts <;> cases run.scope.isDedented first <;>
          by_cases inParagraph : run.scope.parent = .paragraph <;> simp [inParagraph]
  | embedded =>
    show embedded md true first stop run = _
    unfold embedded BlockRule.opens
    dsimp only
    cases openTagAt? md run.scope first <;> rfl
  | heading =>
    show heading true first stop run = _
    unfold heading BlockRule.opens
    dsimp only
    cases run.scope.isDeeplyIndented first with
    | true => rfl
    | false => cases headingDepth? (run.scope.content first) <;> rfl
  | paragraph => exact absurd rfl asks.2

/-- The question of a chain is answered on the scope of a run, and changes nothing. -/
def Answers (md : Markdown) (chain : String) (ends : Step) : Prop :=
  ∀ first stop run, ends first stop run = (endsAt md chain run.scope first, run)

theorem answers_firstMatch (keeps : md.KeepsChains) {chain : String}
    (named : chain ≠ RuleTable.mainChain) (fuel : Nat) :
    Answers md chain
      (firstMatch (fun rule => runRule md parse (fuel + 1) rule true) (md.blockChain chain)) := by
  intro first stop run
  have asks : ∀ rule ∈ md.blockChain chain, rule ≠ .code ∧ rule ≠ .paragraph :=
    fun rule member => keeps.asks named member
  unfold endsAt
  generalize md.blockChain chain = rules at asks
  induction rules with
  | nil => rfl
  | cons rule rules ih =>
    rw [firstMatch, List.any_cons]
    dsimp only
    rw [runRule_silent fuel (asks rule List.mem_cons_self)]
    cases rule.opens md run.scope first with
    | true => rfl
    | false => exact ih fun other member => asks other (List.mem_cons_of_mem _ member)

/-! ## Tokens -/

theorem add_selfClosing (run : BlockRun) {token : Token} (complete : token.nesting = .selfClosing) :
    run.add token =
      { run with
        tokens := run.tokens ++ [{ token with level := run.scope.level, block := true }] } := by
  simp [add, complete]

theorem add_opening (run : BlockRun) {token : Token} (opens : token.nesting = .opening) :
    run.add token =
      { run with
        scope := { run.scope with level := run.scope.level + 1 }
        tokens := run.tokens ++ [{ token with level := run.scope.level, block := true }] } := by
  simp [add, opens]

theorem add_closing (run : BlockRun) {token : Token} (closes : token.nesting = .closing) :
    run.add token =
      { run with
        scope := { run.scope with level := run.scope.level - 1 }
        tokens := run.tokens ++ [{ token with level := run.scope.level - 1, block := true }] } := by
  simp [add, closes]

theorem addText_eq (run : BlockRun) (kinds : TokenKind × TokenKind) (tag markup content : Text)
    (span : LineSpan) :
    run.addText kinds tag markup content span =
      { run with
        tokens := run.tokens ++
          encloseBlock kinds tag run.scope.level span markup
            [inlineToken (run.scope.level + 1) span content] } := by
  unfold addText
  rw [add_closing _ rfl, add_selfClosing _ rfl, add_opening _ rfl]
  simp [encloseBlock, inlineToken, blockToken]

/-! ## Blocks without blocks in them -/

/-- What a run does with the block that a rule has made: it adds the tokens of the block. -/
def accept (run : BlockRun) : Option Made → Bool × BlockRun
  | none => (false, run)
  | some made =>
    (true,
      { run with
        progress := made.2
        tokens := run.tokens ++ made.1.tokens run.scope.level })

theorem code_eq (first stop : Nat) (run : BlockRun) :
    code first stop run =
      run.accept ((indentedCode? run.scope first stop).map (·.made run.progress)) := by
  unfold code indentedCode?
  cases run.scope.isDeeplyIndented first with
  | false => rfl
  | true =>
    dsimp only
    rw [add_selfClosing _ rfl]
    rfl

theorem fence_eq (first stop : Nat) (run : BlockRun) :
    fence false first stop run =
      run.accept ((fence? run.scope first stop).map (·.made run.progress)) := by
  unfold fence fence?
  cases run.scope.isDeeplyIndented first with
  | true => rfl
  | false =>
    cases fenceOpening? (run.scope.content first) with
    | none => rfl
    | some opening =>
      obtain ⟨mark, length, info⟩ := opening
      dsimp only
      rw [add_selfClosing _ rfl]
      rfl

theorem hr_eq (first stop : Nat) (run : BlockRun) :
    hr false first stop run = run.accept ((hr? run.scope first).map (·.made run.progress)) := by
  unfold hr hr?
  cases run.scope.isDeeplyIndented first with
  | true => rfl
  | false =>
    cases breakMarks? (run.scope.content first) with
    | none => rfl
    | some marks =>
      dsimp only
      rw [add_selfClosing _ rfl]
      rfl

theorem heading_eq (first stop : Nat) (run : BlockRun) :
    heading false first stop run =
      run.accept ((heading? run.scope first).map (·.made run.progress)) := by
  unfold heading heading?
  cases run.scope.isDeeplyIndented first with
  | true => rfl
  | false =>
    cases headingDepth? (run.scope.content first) with
    | none => rfl
    | some depth =>
      dsimp only
      rw [addText_eq]
      rfl

theorem embedded_eq (first stop : Nat) (run : BlockRun) :
    embedded md false first stop run =
      run.accept ((embeddedBlock? md run.scope first stop).map (·.made run.progress)) := by
  unfold embedded embeddedBlock?
  cases openTagAt? md run.scope first with
  | none => rfl
  | some tag =>
    dsimp only [Option.bind_eq_bind, Option.bind_some]
    generalize (if (md.grammar.selfClosing .block (run.scope.content first).trim).isSome = true then
        (first + 1, none)
      else findBlockClose md run.scope tag.name first stop (stop - first) (first + 1)) = found
    obtain ⟨next, code⟩ := found
    dsimp only
    cases (code <|> embedLines? md run.scope first next) with
    | none => rfl
    | some content =>
      rw [if_neg Bool.false_ne_true]
      dsimp only
      rw [add_selfClosing _ rfl]
      rfl

/-! ## Paragraphs -/

section

variable {ends : Step}

theorem seekParagraphEnd_eq (answers : Answers md "paragraph" ends) (scope : Scope)
    (stop fuel next : Nat) {run : BlockRun}
    (inside : run.scope = { scope with parent := .paragraph }) :
    seekParagraphEnd ends stop fuel next run = (paragraphEnd md scope stop fuel next, run) := by
  induction fuel generalizing next with
  | zero => rfl
  | succ fuel ih =>
    have isEmpty : run.scope.isEmpty next = scope.isEmpty next := by rw [inside]; rfl
    have deep : run.scope.isDeeplyIndented next = scope.isDeeplyIndented next := by
      rw [inside]
      rfl
    have line : run.scope.line next = scope.line next := by rw [inside]; rfl
    unfold seekParagraphEnd paragraphEnd
    rw [isEmpty, deep, line, answers next stop run, inside]
    split
    · rfl
    · split
      · exact ih (next + 1)
      · dsimp only
        split
        · rfl
        · exact ih (next + 1)

theorem paragraph_eq (answers : Answers md "paragraph" ends) (first stop : Nat) (run : BlockRun) :
    paragraph ends first stop run =
      run.accept
        (some ((ComponentMarkdown.paragraph md run.scope first stop).made run.progress)) := by
  unfold paragraph
  dsimp only
  rw [seekParagraphEnd_eq answers run.scope _ _ _ rfl]
  dsimp only
  rw [addText_eq]
  rfl

/-! ## Quotes -/

/-- On some lines of a run, parsing in place adds the tokens of the blocks that `tree` parses. -/
def ParsesAs (parse : Nat → Nat → BlockRun → BlockRun) (tree : ParseBlocks) : Prop :=
  ∀ first stop run, stop ≤ run.lineCount →
    parse first stop run =
      { run with
        progress := (tree run.scope run.progress first stop).2
        tokens := run.tokens ++
          Block.allTokens run.scope.level (tree run.scope run.progress first stop).1 }

theorem quoteLines_length (md : Markdown) (scope : Scope) {stop next : Nat} (fuel : Nat)
    (lastEmpty : Bool) (ordered : next ≤ stop) :
    next + (quoteLines md scope stop fuel lastEmpty next).length ≤ stop := by
  induction fuel generalizing lastEmpty next with
  | zero => exact ordered
  | succ fuel ih =>
    unfold quoteLines
    split
    · exact ordered
    · dsimp only
      split
      · exact ordered
      · split
        · next mark behind _ _ =>
          have := ih (unquote (scope.line next) behind).isEmpty (show next + 1 ≤ stop by omega)
          rw [List.length_cons]
          omega
        · split
          · exact ordered
          · have := ih false (show next + 1 ≤ stop by omega)
            rw [List.length_cons]
            omega

/-- Entering a quote puts the lines without their marks in the place of the lines of the scope. -/
theorem enterQuote_eq (answers : Answers md "blockquote" ends) (scope : Scope) {stop : Nat}
    (inText : stop ≤ scope.lines.size) (fuel : Nat) (lastEmpty : Bool) (next : Nat)
    {run : BlockRun} (size : run.scope.lines.size = scope.lines.size)
    (ahead : ∀ number, next ≤ number → run.scope.lines[number]? = scope.lines[number]?)
    (indent : run.scope.indent = scope.indent) (parent : run.scope.parent = .blockquote) :
    enterQuote ends stop fuel lastEmpty next run =
      ((List.range' next (quoteLines md scope stop fuel lastEmpty next).length).map scope.line,
        run.setLines next (quoteLines md scope stop fuel lastEmpty next)) := by
  induction fuel generalizing lastEmpty next run with
  | zero => rfl
  | succ fuel ih =>
    unfold enterQuote quoteLines
    split
    · rfl
    · have line : run.scope.line next = scope.line next :=
        Scope.line_congr size (by omega) (ahead next (Nat.le_refl next))
      have dedented : run.scope.isDedented next = scope.isDedented next := by
        unfold Scope.isDedented
        rw [line, indent]
      -- The rest of the lines is entered behind a line that was replaced.
      have goOn : ∀ (inner : Line) (isEmpty : Bool),
          enterQuote ends stop fuel isEmpty (next + 1) (run.setLine next inner) =
            (((List.range' (next + 1)
              (quoteLines md scope stop fuel isEmpty (next + 1)).length).map scope.line),
              run.setLines next (inner :: quoteLines md scope stop fuel isEmpty (next + 1))) := by
        intro inner isEmpty
        refine ih isEmpty (next + 1) ?_ ?_ indent parent
        · exact (Array.size_setIfInBounds).trans size
        · intro number behind
          exact (Array.getElem?_setIfInBounds_ne (by omega)).trans (ahead number (by omega))
      have same : endsAt md "blockquote" (run.setIndent 0).scope next =
          endsAt md "blockquote" { scope with indent := 0, parent := .blockquote } next :=
        @endsAt_congr md (run.setIndent 0).scope { scope with indent := 0, parent := .blockquote }
          next line rfl parent "blockquote"
      dsimp only
      rw [line, dedented, answers next stop (run.setIndent 0), same]
      cases (scope.line next).content with
      | nil => rfl
      | cons mark behind =>
        dsimp only
        cases mark == '>' && !scope.isDedented next with
        | true =>
          rw [if_pos rfl, if_pos rfl, goOn]
          rfl
        | false =>
          cases lastEmpty with
          | true => rfl
          | false =>
            cases endsAt md "blockquote" { scope with indent := 0, parent := .blockquote } next with
            | true => rfl
            | false =>
              have restored : (run.setIndent 0).setIndent run.scope.indent = run := rfl
              simp only [Bool.false_eq_true, if_false, Bool.or_self, restored, goOn]
              rfl

theorem modify_length_append (tokens more : List Token) (token : Token) (change : Token → Token) :
    (tokens ++ token :: more).modify tokens.length change = tokens ++ change token :: more := by
  induction tokens with
  | nil => rfl
  | cons first tokens ih => rw [List.cons_append, List.length_cons, List.modify_succ_cons, ih]; rfl

theorem blockquote_eq (answers : Answers md "blockquote" ends) {tree : ParseBlocks}
    (parses : ParsesAs parse tree) {first stop : Nat} {run : BlockRun} (ordered : first ≤ stop)
    (inText : stop ≤ run.lineCount) :
    blockquote parse ends false first stop run =
      run.accept (blockquote? md tree run.scope run.progress first stop) := by
  unfold blockquote blockquote? opensBlockquote bne
  cases run.scope.isDeeplyIndented first with
  | true => rfl
  | false =>
    cases (run.scope.content first).head? == some '>' with
    | false => rfl
    | true =>
      have entered := enterQuote_eq answers run.scope inText (stop - first) false first
        (show (run.setParent .blockquote).scope.lines.size = _ from rfl) (fun _ _ => rfl) rfl rfl
      have inside := quoteLines_length md run.scope (stop - first) false ordered
      dsimp only
      rw [entered, List.length_map, List.length_range']
      generalize quoteLines md run.scope stop (stop - first) false first = quoted at *
      have fits : first + quoted.length ≤ run.scope.lines.size := Nat.le_trans inside inText
      have restored := run.scope.restore_lines first quoted fits
      rw [← size_replaceLines run.scope.lines first quoted] at fits
      obtain ⟨scope, progress, tokens⟩ := run
      rw [if_neg Bool.false_ne_true, if_neg (by decide), if_neg Bool.false_ne_true,
        add_closing _ rfl, parses _ _ _ fits, add_opening _ rfl]
      dsimp only [setMap, setLines, setIndent, setParent] at restored ⊢
      show (true, _) = (true, _)
      dsimp only
      generalize tree
          { lines := replaceLines scope.lines first quoted, parent := .blockquote,
            level := scope.level + 1 }
          progress first (first + quoted.length) = made
      rw [restored, List.append_assoc, List.append_assoc, List.singleton_append,
        modify_length_append]
      rfl

end

end BlockRun

end ComponentMarkdown
