import ComponentMarkdown.Inline.Run
import ComponentMarkdown.Proofs.Balance

/-!
# Balance of inline tokens

Whatever the grammar of tags is, a rule adds balanced tokens, and a silent run adds none. The file
has:

* `Extends`, which says so of a run before and after a step;
* `extends_runRule`: so it is for each rule if it is for skipping and for the bodies;
* `balanced_parse` for the tokens of a text.
-/

namespace ComponentMarkdown.InlineRun

/-- The later run has the tokens of the earlier one and balanced ones behind them, none in a silent
run. -/
def Extends (embeds : Prop) (silent : Bool) (before after : InlineRun) : Prop :=
  ∃ added, after.tokens = before.tokens ++ added ∧ Balanced (Token.Writable embeds) added ∧
    (silent = true → added = [])

variable {embeds : Prop} {silent : Bool} {before middle after : InlineRun}

namespace Extends

theorem of_tokens (same : after.tokens = before.tokens) : Extends embeds silent before after :=
  ⟨[], by rw [same, List.append_nil], .nil, fun _ => rfl⟩

theorem trans (first : Extends embeds silent before middle)
    (second : Extends embeds silent middle after) : Extends embeds silent before after := by
  obtain ⟨added, tokens, balanced, isSilent⟩ := first
  obtain ⟨more, others, alsoBalanced, alsoSilent⟩ := second
  refine ⟨added ++ more, ?_, .append balanced alsoBalanced, fun silent => ?_⟩
  · rw [others, tokens, List.append_assoc]
  · rw [isSilent silent, alsoSilent silent, List.append_nil]

theorem tokens_eq (extend : Extends embeds true before after) : after.tokens = before.tokens := by
  obtain ⟨added, tokens, -, isSilent⟩ := extend
  rw [tokens, isSilent rfl, List.append_nil]

end Extends

/-! ## Adding tokens -/

theorem extends_settle (run : InlineRun) : Extends embeds false run run.settle := by
  unfold settle
  split
  · exact .of_tokens rfl
  · exact ⟨_, rfl, .complete (.text rfl rfl) rfl, by rintro ⟨⟩⟩

theorem extends_add (run : InlineRun) {token : Token} (writable : token.Writable embeds)
    (alone : token.nesting = .selfClosing) : Extends embeds false run (run.add token) := by
  refine (extends_settle run).trans ⟨_, rfl, .complete (writable.withLevel _) alone, ?_⟩
  rintro ⟨⟩

/-- The level of a token that is added does not matter here. -/
theorem tokens_add (run : InlineRun) (token : Token) :
    ∃ level, (run.add token).tokens = run.settle.tokens ++ [{ token with level }] :=
  ⟨_, rfl⟩

/-- Tokens that answer each other, around what extends the run between them. -/
theorem extends_around {run inside : InlineRun} {opening closing : Token}
    (encloses : Token.Encloses (Token.Writable embeds) opening closing)
    (between : Extends embeds false (run.add opening) inside) :
    Extends embeds false run (inside.add closing) := by
  refine (extends_settle run).trans ?_
  obtain ⟨level, begun⟩ := tokens_add run opening
  obtain ⟨levelBehind, ended⟩ := tokens_add inside closing
  obtain ⟨body, tokens, balanced, -⟩ := between.trans (extends_settle inside)
  rw [tokens, begun] at ended
  refine ⟨{ opening with level } :: body ++ [{ closing with level := levelBehind }], ?_, ?_, ?_⟩
  · rw [ended, List.append_assoc, List.append_assoc]
    rfl
  · exact .enclosed (encloses.withLevels _ _) balanced
  · rintro ⟨⟩

/-- Parsing a body adds balanced tokens. -/
def ParsesBalanced (embeds : Prop) (parse : InlineRun → InlineRun) : Prop :=
  ∀ run, Extends embeds false run (parse run)

theorem extends_wrap {parse : InlineRun → InlineRun} (parses : ParsesBalanced embeds parse)
    {opening closing : Token} (encloses : Token.Encloses (Token.Writable embeds) opening closing)
    (start stop : Nat) (run : InlineRun) :
    Extends embeds false run (run.wrap parse opening closing start stop) := by
  refine extends_around encloses ?_
  exact .trans (.of_tokens rfl)
    ((parses { run.add opening with pos := start, posMax := stop }).trans (.of_tokens rfl))

/-- A complete piece; embedded code has to be accepted. -/
theorem extends_write (run : InlineRun) (piece : Inline)
    (accepted : ∀ code, piece = .embedded code → embeds) :
    Extends embeds false run (run.write piece) := by
  have named : IsName ['b', 'r'] ∧ IsName "code".toList ∧ IsName ['a'] := by decide
  have noAttributes := List.forall_mem_nil fun attr : Text × AttributeValue =>
    ∃ value, attr.2 = .text value
  cases piece with
  | literal text => exact .of_tokens rfl
  | lineBreak =>
    refine .trans (.of_tokens rfl) (extends_add _ (.element rfl ?_ named.1 noAttributes) rfl)
    split <;> rfl
  | hardBreak => exact extends_add _ (.element rfl rfl named.1 noAttributes) rfl
  | code ticks content => exact extends_add _ (.element rfl rfl named.2.1 noAttributes) rfl
  | autolink address href =>
    refine extends_around ?_ (extends_add _ (.text rfl rfl) rfl)
    refine ⟨⟨.element rfl rfl named.2.2 ?_, .element rfl rfl named.2.2 noAttributes⟩,
      rfl, rfl, rfl, rfl⟩
    exact List.forall_mem_singleton.mpr ⟨href, rfl⟩
  | embedded code => exact extends_add _ (.embedded rfl rfl rfl (accepted code rfl)) rfl
  | emphasis | link | image | element => exact .of_tokens rfl

/-- What a rule does when it matches, where it may have looked ahead: a silent run only moves on. -/
theorem extends_match {run looked : InlineRun} (same : looked.tokens = run.tokens)
    (write : InlineRun → InlineRun)
    (writes : silent = false → Extends embeds false looked (write looked)) (pos : Nat) :
    Extends embeds silent run { (if silent then looked else write looked) with pos } := by
  cases silent with
  | true => exact .of_tokens same
  | false => exact .trans (.of_tokens same) ((writes rfl).trans (.of_tokens rfl))

theorem extends_take (run : InlineRun) {found : Option Construct}
    (accepted : ∀ length code, found = some ⟨length, .leaf (.embedded code)⟩ → embeds) :
    Extends embeds silent run (run.take silent found).2 := by
  unfold take
  split
  · next length piece =>
    have written : ∀ code, piece = .embedded code → embeds := by
      rintro code rfl
      exact accepted length code rfl
    exact extends_match rfl (·.write piece) (fun _ => extends_write run piece written) _
  · exact .of_tokens rfl

/-! ## Skipping -/

/-- Skipping adds no tokens. -/
def KeepsTokens (skip : Step) : Prop :=
  ∀ run, (skip run).2.tokens = run.tokens

section

variable {skip : Step}

theorem tokens_seekCloser (keeps : KeepsTokens skip) (marker : Char) (count bodyStart fuel : Nat)
    (run : InlineRun) :
    (seekCloser skip marker count bodyStart fuel run).2.tokens = run.tokens := by
  induction fuel generalizing run with
  | zero => rfl
  | succ fuel ih =>
    unfold seekCloser
    dsimp only
    split
    · rfl
    · split
      · rfl
      · exact (ih _).trans (keeps run)

theorem tokens_seekLabelEnd (keeps : KeepsTokens skip) (fuel depth : Nat) (run : InlineRun) :
    (seekLabelEnd skip fuel depth run).2.tokens = run.tokens := by
  induction fuel generalizing depth run with
  | zero => rfl
  | succ fuel ih =>
    unfold seekLabelEnd
    split
    · rfl
    · next mark _ _ =>
      generalize (if mark == ']' then depth - 1 else depth) = depth
      dsimp only
      split
      · rfl
      · exact (ih _ _).trans (keeps run)

theorem tokens_seekCloseTag (keeps : KeepsTokens skip) (grammar : TagGrammar) (name : Text)
    (fuel : Nat) (run : InlineRun) :
    (seekCloseTag grammar skip name fuel run).2.tokens = run.tokens := by
  induction fuel generalizing run with
  | zero => rfl
  | succ fuel ih =>
    unfold seekCloseTag
    dsimp only
    split
    · rfl
    · split
      · split
        · exact keeps run
        · exact (ih _).trans (keeps run)
      · exact (ih _).trans (keeps run)

end

/-! ## Rules -/

section

variable {skip : Step} {parse : InlineRun → InlineRun}

theorem extends_wrapEmphasis (parses : ParsesBalanced embeds parse) (marker : Char)
    (count start stop : Nat) (run : InlineRun) :
    Extends embeds false run (wrapEmphasis parse marker count start stop run) := by
  unfold wrapEmphasis
  dsimp only
  have noAttributes := List.forall_mem_nil fun attr : Text × AttributeValue =>
    ∃ value, attr.2 = .text value
  refine extends_wrap parses ?_ start stop run
  cases count == 2 with
  | true =>
    have named : IsName "strong".toList := by decide
    exact ⟨⟨.element rfl rfl named noAttributes, .element rfl rfl named noAttributes⟩,
      rfl, rfl, rfl, rfl⟩
  | false =>
    have named : IsName "em".toList := by decide
    exact ⟨⟨.element rfl rfl named noAttributes, .element rfl rfl named noAttributes⟩,
      rfl, rfl, rfl, rfl⟩

theorem extends_emphasis (keeps : KeepsTokens skip)
    (parses : silent = false → ParsesBalanced embeds parse) (run : InlineRun) :
    Extends embeds silent run (emphasis skip parse silent run).2 := by
  unfold emphasis
  split
  · exact .of_tokens rfl
  · next marker _ _ =>
    dsimp only
    split
    · exact .of_tokens rfl
    · split
      · exact .of_tokens (tokens_seekCloser keeps _ _ _ _ _)
      · refine extends_match ?_ (wrapEmphasis parse marker _ _ _) (fun loud => ?_) _
        · exact tokens_seekCloser keeps _ _ _ _ _
        · exact extends_wrapEmphasis (parses loud) marker _ _ _ _

theorem textual_target (target : Target) (name : String) (more : Attributes)
    (textual : ∀ attr ∈ more, ∃ value, attr.2 = .text value) :
    ∀ attr ∈ target.attrs name ++ more, ∃ value, attr.2 = .text value :=
  List.forall_mem_append.mpr ⟨List.forall_mem_singleton.mpr ⟨target.href, rfl⟩, textual⟩

theorem textual_title (target : Target) :
    ∀ attr ∈ target.titleAttributes, ∃ value, attr.2 = .text value := by
  intro attr member
  obtain ⟨title, -, rfl⟩ := Option.map_eq_some_iff.mp (Option.mem_toList.mp member)
  exact ⟨title, rfl⟩

theorem extends_labelled (keeps : KeepsTokens skip) (opening : Nat)
    {write : Target → Nat → Nat → InlineRun → InlineRun}
    (writes : silent = false → ∀ target start stop run,
      Extends embeds false run (write target start stop run)) (run : InlineRun) :
    Extends embeds silent run (labelled skip opening write silent run).2 := by
  unfold labelled
  dsimp only
  split
  · exact .of_tokens (tokens_seekLabelEnd keeps _ _ _)
  · split
    · exact .of_tokens (tokens_seekLabelEnd keeps _ _ _)
    · refine extends_match ?_ (write _ _ _) (fun loud => writes loud _ _ _ _) _
      exact tokens_seekLabelEnd keeps _ _ _

theorem extends_link (keeps : KeepsTokens skip)
    (parses : silent = false → ParsesBalanced embeds parse) (run : InlineRun) :
    Extends embeds silent run (link skip parse silent run).2 := by
  unfold link
  split
  · refine extends_labelled keeps 1 (fun loud target start stop run => ?_) run
    have named : IsName ['a'] := by decide
    refine extends_wrap (parses loud) ?_ start stop run
    refine ⟨⟨.element rfl rfl named ?_, .element rfl rfl named ?_⟩, rfl, rfl, rfl, rfl⟩
    · exact textual_target target _ _ (textual_title target)
    · exact List.forall_mem_nil _
  · exact .of_tokens rfl

theorem extends_image (keeps : KeepsTokens skip) (parseLabel : Text → List Token)
    (run : InlineRun) : Extends embeds silent run (image skip parseLabel silent run).2 := by
  unfold image
  split
  · refine extends_labelled keeps 2 (fun loud target start stop run => ?_) run
    have named : IsName "img".toList := by decide
    refine extends_add run (.element rfl rfl named ?_) rfl
    refine textual_target target _ _ (List.forall_mem_cons.mpr ⟨⟨[], rfl⟩, textual_title target⟩)
  · exact .of_tokens rfl

theorem extends_writeElement (parses : ParsesBalanced embeds parse) (accepted : embeds)
    (code : Text) (start stop : Nat) (run : InlineRun) :
    Extends embeds false run (writeElement parse code start stop run) := by
  unfold writeElement
  split
  · exact extends_write run _ fun _ _ => accepted
  · refine extends_wrap parses ?_ start stop run
    exact ⟨⟨.embedded rfl rfl rfl accepted, .embedded rfl rfl rfl accepted⟩, rfl, rfl, rfl, rfl⟩

theorem extends_embedded {md : Markdown} (accepted : md.Accepts → embeds)
    (keeps : KeepsTokens skip) (parses : silent = false → ParsesBalanced embeds parse)
    (run : InlineRun) : Extends embeds silent run (embedded md skip parse silent run).2 := by
  unfold embedded
  dsimp only
  split
  · exact .of_tokens rfl
  · split
    · exact .of_tokens rfl
    · split
      · exact .of_tokens rfl
      · next code made =>
        refine extends_match rfl (·.write (.embedded code)) (fun _ => ?_) _
        exact extends_write run _ fun _ _ => accepted ⟨_, code, made⟩
    · split
      · exact .of_tokens (tokens_seekCloseTag keeps _ _ _ _)
      · split
        · exact .of_tokens (tokens_seekCloseTag keeps _ _ _ _)
        · next code made =>
          refine extends_match ?_ (writeElement parse code _ _) (fun loud => ?_) _
          · exact tokens_seekCloseTag keeps _ _ _ _
          · exact extends_writeElement (parses loud) (accepted ⟨_, code, made⟩) code _ _ _

/-- The rules that look at nothing but the text ahead find no embedded markup. -/
theorem not_embedded {found : Option Construct} {rest : Text}
    (looks : found ∈ [plainRun? rest, newline? rest, escape? rest, codeSpan? rest, autolink? rest,
      entity? rest]) (length : Nat) (code : Text) :
    found ≠ some ⟨length, .leaf (.embedded code)⟩ := by
  simp only [List.mem_cons, List.not_mem_nil, or_false] at looks
  intro same
  rcases looks with rfl | rfl | rfl | rfl | rfl | rfl
  · unfold plainRun? at same
    dsimp only at same
    split at same <;> cases same
  · unfold newline? at same
    split at same <;> cases same
  · unfold escape? at same
    split at same
    · split at same
      · cases same
      · split at same <;> cases same
    · cases same
    · cases same
  · unfold codeSpan? at same
    dsimp only at same
    split at same
    · cases same
    · split at same <;> cases same
  · unfold autolink? at same
    split at same
    · split at same
      · cases same
      · split at same <;> cases same
    · cases same
  · unfold entity? at same
    split at same
    · split at same <;> cases same
    · cases same

theorem extends_plain (rest : Text) {found : Option Construct}
    (looks : found ∈ [plainRun? rest, newline? rest, escape? rest, codeSpan? rest, autolink? rest,
      entity? rest]) (run : InlineRun) : Extends embeds silent run (run.take silent found).2 :=
  extends_take run fun length code same => absurd same (not_embedded looks length code)

theorem extends_runRule {md : Markdown} (accepted : md.Accepts → embeds)
    (keeps : KeepsTokens skip) (parses : silent = false → ParsesBalanced embeds parse)
    (parseLabel : Text → List Token) (rule : InlineRule) (run : InlineRun) :
    Extends embeds silent run (runRule md skip parse parseLabel rule silent run).2 := by
  cases rule with
  | text => exact extends_plain run.cursor.rest (by simp) run
  | newline => exact extends_plain run.cursor.rest (by simp) run
  | escape => exact extends_plain run.cursor.rest (by simp) run
  | backticks => exact extends_plain run.cursor.rest (by simp) run
  | autolink => exact extends_plain run.cursor.rest (by simp) run
  | entity => exact extends_plain run.cursor.rest (by simp) run
  | emphasis => exact extends_emphasis keeps parses run
  | link => exact extends_link keeps parses run
  | image => exact extends_image keeps parseLabel run
  | embedded => exact extends_embedded accepted keeps parses run

end

/-! ## Texts -/

variable {md : Markdown}

theorem keepsTokens_skipBy {step : InlineRule → Step} (keeps : ∀ rule, KeepsTokens (step rule))
    (start : Nat) (rules : List InlineRule) : KeepsTokens (skipBy step start rules) := by
  induction rules with
  | nil => exact fun _ => rfl
  | cons rule rules ih =>
    intro run
    have tried := keeps rule { run with level := run.level + 1 }
    unfold skipBy
    dsimp only
    split
    · exact tried
    · exact (ih _).trans tried

theorem keepsTokens_recallStep {step : Step} (keeps : KeepsTokens step) :
    KeepsTokens (recallStep step) := by
  intro run
  unfold recallStep
  split
  · split
    · rfl
    · exact keeps run
  · exact keeps run

theorem keepsTokens_skipUpTo (md : Markdown) (fuel : Nat) : KeepsTokens (skipUpTo md fuel) := by
  induction fuel with
  | zero => exact keepsTokens_recallStep fun _ => rfl
  | succ fuel ih =>
    refine keepsTokens_recallStep fun run => ?_
    have keeps : ∀ rule, KeepsTokens (runRule md (skipUpTo md fuel) id (fun _ => []) rule true) :=
      fun rule run => (@extends_runRule True true (skipUpTo md fuel) id md (fun _ => trivial) ih
        (by rintro ⟨⟩) (fun _ => []) rule run).tokens_eq
    have skipped := keepsTokens_skipBy keeps run.pos md.inlineChain run
    dsimp only
    split
    · split <;> exact skipped
    · rfl

theorem extends_firstStep {step : InlineRule → Step}
    (extend : ∀ rule run, Extends embeds false run (step rule run).2) (start : Nat)
    (rules : List InlineRule) (run : InlineRun) :
    Extends embeds false run (firstStep step start rules run).2 := by
  induction rules generalizing run with
  | nil => exact .of_tokens rfl
  | cons rule rules ih =>
    unfold firstStep
    dsimp only
    split
    · exact extend rule run
    · exact (extend rule run).trans (ih _)

theorem extends_parseChars {step : Step} (extend : ∀ run, Extends embeds false run (step run).2)
    (stop fuel : Nat) (run : InlineRun) :
    Extends embeds false run (parseChars step stop fuel run) := by
  induction fuel generalizing run with
  | zero => exact .of_tokens rfl
  | succ fuel ih =>
    unfold parseChars
    dsimp only
    split
    · exact .of_tokens rfl
    · split
      · exact (extend run).trans (ih _)
      · split
        · exact (extend run).trans (.of_tokens rfl)
        · exact (extend run).trans (.trans (.of_tokens rfl) (ih _))

theorem extends_parseBy {step : Step} (extend : ∀ run, Extends embeds false run (step run).2) :
    ParsesBalanced embeds (parseBy step) :=
  fun run => (extends_parseChars extend run.posMax (run.posMax - run.pos) run).trans
    (extends_settle _)

theorem extends_parseUpTo (accepted : md.Accepts → embeds) (parseLabel : Text → List Token)
    (fuel : Nat) : ParsesBalanced embeds (parseUpTo md parseLabel fuel) := by
  induction fuel with
  | zero => exact extends_parseBy fun _ => .of_tokens rfl
  | succ fuel ih =>
    refine extends_parseBy fun run => ?_
    split
    · refine extends_firstStep (fun rule run => ?_) _ _ _
      exact extends_runRule accepted (fun run => keepsTokens_skipUpTo md _ run) (fun _ => ih) _ _ _
    · exact .of_tokens rfl

/-- The tokens of a text are balanced, for any grammar of tags and any chain of rules. -/
theorem balanced_parse (accepted : md.Accepts → embeds) (source : Text) :
    Balanced (Token.Writable embeds) (parse md source) := by
  obtain ⟨added, tokens, balanced, -⟩ :=
    extends_parseUpTo accepted (parseLabels md source.length) md.maxNesting (ofSource source)
  rw [parse, parseLabels, tokens]
  exact balanced

end ComponentMarkdown.InlineRun
