import ComponentMarkdown.Proofs.Inline.Silent

/-!
# Invariants of inline parsing

Parsing changes the tokens of a run only by adding some behind the text that is pending, and that
text only by putting more behind it. What these two keep is kept by every rule and by parsing, for
any grammar. The file has:

* `Invariant`, the properties that adding text and tokens keeps;
* `Invariant.runRule` and `Invariant.parseChars`: so do rules and parsing;
* `invariant_front`: the tokens that are there stay in front;
* `BeginsWithText`: once text stands in front of everything else, the first token is text.
-/

namespace ComponentMarkdown.InlineRun

/-- What adding text and tokens keeps; the place of the run does not matter to it. -/
structure Invariant (holds : InlineRun → Prop) : Prop where
  place : ∀ {run : InlineRun} (pos posMax : Nat) (memo : Memo), holds run →
    holds { run with pos, posMax, memo }
  literal : ∀ {run : InlineRun} (text : Text), holds run →
    holds { run with pending := run.pending ++ text }
  breakLine : ∀ {run : InlineRun}, holds run → holds run.breakLine
  settle : ∀ {run : InlineRun}, holds run → holds run.settle
  add : ∀ {run : InlineRun} (token : Token), holds run → holds (run.add token)

/-- What each rule keeps is kept by trying them one after the other. -/
theorem firstStep_keeps {holds : InlineRun → Prop} {run : InlineRun} {step : InlineRule → Step}
    (steps : ∀ rule {run : InlineRun}, holds run → holds (step rule run).2) (start : Nat)
    (rules : List InlineRule) (kept : holds run) : holds (firstStep step start rules run).2 := by
  induction rules generalizing run with
  | nil => exact kept
  | cons rule rules ih =>
    rw [firstStep]
    dsimp only
    split
    · exact steps rule kept
    · exact ih (steps rule kept)

namespace Invariant

variable {holds : InlineRun → Prop} (invariant : Invariant holds) {run : InlineRun}
  {skip : Step} {parse : InlineRun → InlineRun}
include invariant

theorem moves {moved : InlineRun} (same : Moves run moved) (kept : holds run) : holds moved := by
  obtain ⟨pos, memo, rfl⟩ := same
  exact invariant.place pos run.posMax memo kept

/-- A search keeps the invariant, wherever the run goes on behind it. -/
theorem searched {pos next : Nat} {last : InlineRun} (moved : Moves { run with pos } last)
    (kept : holds run) : holds { last with pos := next } :=
  invariant.moves (moved.back next) kept

theorem atPos (pos : Nat) (kept : holds run) : holds { run with pos } :=
  invariant.place pos run.posMax run.memo kept

theorem write (piece : Inline) (kept : holds run) : holds (run.write piece) := by
  cases piece with
  | literal text => exact invariant.literal text kept
  | lineBreak => exact invariant.breakLine kept
  | hardBreak | code | embedded => exact invariant.add _ kept
  | autolink => exact invariant.add _ (invariant.add _ (invariant.add _ kept))
  | emphasis | link | image | element => exact kept

theorem take (found : Option Construct) (kept : holds run) : holds (run.take false found).2 := by
  unfold InlineRun.take
  split
  · exact invariant.atPos _ (invariant.write _ kept)
  · exact kept

/-! ## Rules -/

theorem labelled (quiet : MovesOnly skip) (opening : Nat)
    {write : Target → Nat → Nat → InlineRun → InlineRun}
    (writes : ∀ target start stop {run : InlineRun}, holds run →
      holds (write target start stop run)) (kept : holds run) :
    holds (labelled skip opening write false run).2 := by
  unfold InlineRun.labelled
  dsimp only
  split
  · exact invariant.searched (seekLabelEnd_moves quiet _ _ _) kept
  · split
    · exact invariant.searched (seekLabelEnd_moves quiet _ _ _) kept
    · refine invariant.atPos _ (writes _ _ _ ?_)
      exact invariant.searched (seekLabelEnd_moves quiet _ _ _) kept

section

variable (parses : ∀ {run : InlineRun}, holds run → holds (parse run))
include parses

theorem wrap (opening closing : Token) (start stop : Nat) (kept : holds run) :
    holds (run.wrap parse opening closing start stop) := by
  have opened := invariant.place start stop (run.add opening).memo (invariant.add opening kept)
  have parsed := parses opened
  exact invariant.add closing (invariant.place _ run.posMax _ parsed)

theorem emphasis (quiet : MovesOnly skip) (kept : holds run) :
    holds (emphasis skip parse false run).2 := by
  unfold InlineRun.emphasis
  split
  · exact kept
  · next marker _ _ =>
    dsimp only
    split
    · exact kept
    · have moved := fun count bodyStart fuel =>
        seekCloser_moves quiet marker count bodyStart fuel { run with pos := bodyStart }
      split
      · exact invariant.searched (moved _ _ _) kept
      · refine invariant.atPos _ (invariant.wrap parses _ _ _ _ ?_)
        exact invariant.searched (moved _ _ _) kept

theorem writeElement (code : Text) (start stop : Nat) (kept : holds run) :
    holds (writeElement parse code start stop run) := by
  unfold InlineRun.writeElement
  split
  · exact invariant.write _ kept
  · exact invariant.wrap parses _ _ _ _ kept

theorem embedded {md : Markdown} (quiet : MovesOnly skip) (kept : holds run) :
    holds (embedded md skip parse false run).2 := by
  unfold InlineRun.embedded
  dsimp only
  split
  · exact kept
  · split
    · exact kept
    · split
      · exact kept
      · next code _ => exact invariant.atPos _ (invariant.write (.embedded code) kept)
    · split
      · exact invariant.searched (seekCloseTag_moves quiet _ _ _ _) kept
      · split
        · exact invariant.searched (seekCloseTag_moves quiet _ _ _ _) kept
        · refine invariant.atPos _ (invariant.writeElement parses _ _ _ ?_)
          exact invariant.searched (seekCloseTag_moves quiet _ _ _ _) kept

/-- Every rule keeps the invariant, if parsing of bodies does. -/
theorem runRule {md : Markdown} (quiet : MovesOnly skip) (parseLabel : Text → List Token)
    (rule : InlineRule) (kept : holds run) :
    holds (runRule md skip parse parseLabel rule false run).2 := by
  cases rule with
  | text | newline | escape | backticks | autolink | entity => exact invariant.take _ kept
  | emphasis => exact invariant.emphasis parses quiet kept
  | link =>
    rw [InlineRun.runRule, link]
    split
    · exact invariant.labelled quiet 1
        (fun target start stop _ kept => invariant.wrap parses _ _ start stop kept) kept
    · exact kept
  | image =>
    rw [InlineRun.runRule, image]
    split
    · exact invariant.labelled quiet 2
        (fun target start stop _ kept => invariant.add _ kept) kept
    · exact kept
  | embedded => exact invariant.embedded parses quiet kept

end

/-! ## Parsing -/

theorem parseChars {step : Step} (steps : ∀ {run : InlineRun}, holds run → holds (step run).2)
    (stop fuel : Nat) (kept : holds run) : holds (parseChars step stop fuel run) := by
  induction fuel generalizing run with
  | zero => exact kept
  | succ fuel ih =>
    rw [InlineRun.parseChars]
    split
    · exact kept
    · have stepped := steps kept
      dsimp only
      split
      · exact ih stepped
      · split
        · exact invariant.atPos run.pos stepped
        · exact ih (invariant.atPos _ (invariant.literal _ stepped))

theorem parseUpTo (md : Markdown) (parseLabel : Text → List Token) (fuel : Nat)
    (kept : holds run) : holds (parseUpTo md parseLabel fuel run) := by
  induction fuel generalizing run with
  | zero => exact invariant.settle (invariant.parseChars (fun kept => kept) _ _ kept)
  | succ fuel ih =>
    refine invariant.settle (invariant.parseChars (fun kept => ?_) _ _ kept)
    split
    · exact firstStep_keeps (fun rule _ kept =>
        invariant.runRule ih (skipNext_moves md) parseLabel rule kept) _ _ kept
    · exact kept

/-- The step that parsing takes keeps the invariant. -/
theorem step (md : Markdown) (parseLabel : Text → List Token) (fuel : Nat) (kept : holds run) :
    holds (InlineRun.firstStep (fun rule =>
      InlineRun.runRule md (skipNext md) (InlineRun.parseUpTo md parseLabel fuel) parseLabel rule
        false) run.pos md.inlineChain run).2 :=
  firstStep_keeps (fun rule _ kept => invariant.runRule
    (fun kept => invariant.parseUpTo md parseLabel fuel kept) (skipNext_moves md) parseLabel rule
    kept) _ _ kept

end Invariant

/-! ## Tokens in front -/

theorem prefix_settle (run : InlineRun) : run.tokens <+: run.settle.tokens := by
  unfold settle
  split
  · exact List.prefix_rfl
  · exact List.prefix_append _ _

theorem prefix_add (run : InlineRun) (token : Token) : run.tokens <+: (run.add token).tokens :=
  (prefix_settle run).trans (List.prefix_append _ _)

/-- The first tokens stay the first ones. -/
theorem invariant_front (front : List Token) : Invariant fun run => front <+: run.tokens where
  place _ _ _ isFront := isFront
  literal _ isFront := isFront
  breakLine := by
    intro run isFront
    let trimmed := { run with pending := run.pending.dropEndWhile (· == ' ') }
    exact isFront.trans (prefix_add trimmed _)
  settle isFront := isFront.trans (prefix_settle _)
  add token isFront := isFront.trans (prefix_add _ token)

/-! ## Text in front -/

/-- The first token is text, or there is none yet and the text that is pending does not begin with
a space. -/
inductive BeginsWithText (run : InlineRun) : Prop
  | token {first : Token} {others : List Token} (tokens : run.tokens = first :: others)
      (isText : first.kind = .text)
  | pending {c : Char} {rest : Text} (tokens : run.tokens = []) (pending : run.pending = c :: rest)
      (shown : c ≠ ' ')

theorem BeginsWithText.of_tokens {run later : InlineRun} {first : Token} {others : List Token}
    (more : List Token) (tokens : run.tokens = first :: others) (isText : first.kind = .text)
    (extended : later.tokens = run.tokens ++ more) : BeginsWithText later := by
  rw [tokens, List.cons_append] at extended
  exact .token extended isText

/-- What is pending becomes the first token. -/
theorem BeginsWithText.settle {run : InlineRun} (begins : BeginsWithText run) :
    ∃ first others, run.settle.tokens = first :: others ∧ first.kind = .text := by
  unfold InlineRun.settle
  cases begins with
  | @token first others tokens isText =>
    split
    · exact ⟨first, others, tokens, isText⟩
    · exact ⟨first, _, by rw [flush, tokens, List.cons_append], isText⟩
  | pending tokens pending shown =>
    rw [pending, List.isEmpty_cons, if_neg Bool.false_ne_true]
    exact ⟨_, [], by rw [flush, tokens, List.nil_append], rfl⟩

theorem invariant_beginsWithText : Invariant BeginsWithText where
  place pos posMax memo begins := by
    cases begins with
    | token tokens isText => exact .token tokens isText
    | pending tokens pending shown => exact .pending tokens pending shown
  literal text begins := by
    cases begins with
    | token tokens isText => exact .token tokens isText
    | pending tokens pending shown =>
      exact .pending tokens (by dsimp only; rw [pending, List.cons_append]) shown
  breakLine := by
    intro run begins
    let trimmed := { run with pending := run.pending.dropEndWhile (· == ' ') }
    have begins : BeginsWithText trimmed := by
      cases begins with
      | token tokens isText => exact .token tokens isText
      | @pending c rest tokens pending shown =>
        -- The spaces at the end of the text are dropped, but not its first character.
        have kept : Text.dropEndWhile (· == ' ') (c :: rest) =
            c :: Text.dropEndWhile (· == ' ') rest := by
          rw [Text.dropEndWhile, List.reverse_cons, List.dropWhile_append]
          split
          · next dropped =>
            rw [List.dropWhile_cons_of_neg (by simpa using shown), Text.dropEndWhile,
              List.isEmpty_iff.mp dropped]
            rfl
          · rw [List.reverse_append]
            rfl
        exact .pending tokens ((congrArg _ pending).trans kept) shown
    obtain ⟨first, others, tokens, isText⟩ := begins.settle
    exact .of_tokens [_] tokens isText rfl
  settle begins := by
    obtain ⟨first, others, tokens, isText⟩ := begins.settle
    exact .token tokens isText
  add token begins := by
    obtain ⟨first, others, tokens, isText⟩ := begins.settle
    exact .of_tokens [_] tokens isText rfl

end ComponentMarkdown.InlineRun
