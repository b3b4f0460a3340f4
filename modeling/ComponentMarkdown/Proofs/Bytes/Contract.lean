import ComponentMarkdown.Proofs.Bytes.Inline

/-!
# The contract of inline rules by bytes

On every run that parsing can come to, a rule keeps its contract. By bytes it comes to the same, and
it moves to where a character begins. The file has:

* `Text.IsBoundary`, and `InlineByteRun.Lands`, what is compared after a step;
* rules and parsing on any run of bytes;
* `InlineRun.contract_of_reachable` for rules, skipping and parsing.
-/

namespace ComponentMarkdown

open Text Checked

/-- A character begins with the byte, or the text ends in front of it. -/
def Text.IsBoundary (source : Text) (index : Nat) : Prop :=
  ∃ before behind : Text, source = before ++ behind ∧ index = size before

theorem Text.isBoundary_offset {source : Text} {pos : Nat} (inText : pos ≤ source.length) :
    IsBoundary source (offset source pos) :=
  ⟨source.take pos, source.drop pos, (List.take_append_drop pos source).symm, offset_eq inText⟩

namespace InlineByteRun

/-- A step by bytes has no wrong access, comes to what the step by characters comes to, and stands
where a character begins. -/
structure Lands (checked : Checked (Bool × InlineByteRun)) (tried : Bool × InlineRun) : Prop where
  agrees : checked = .ok (ofStep tried)
  boundary : IsBoundary tried.2.source (offset tried.2.source tried.2.pos)

variable {md : Markdown} {run : InlineRun}

theorem Matches.lands {checked : Checked (Bool × InlineByteRun)} {tried : Bool × InlineRun}
    (alike : Matches checked run tried) : Lands checked tried where
  agrees := alike.agrees
  boundary :=
    isBoundary_offset (Nat.le_trans alike.follows.ready.ordered alike.follows.ready.inText)

/-! ## Rules and parsing on any run -/

/-- Parses the window. -/
def parseRest (md : Markdown) (run : InlineByteRun) : Checked InlineByteRun :=
  parseUpTo md (parse md) (md.maxNesting - run.level) run

/-- Runs a rule: did it match? A silent run only moves on. -/
def tryRule (md : Markdown) (rule : InlineRule) (silent : Bool) : Step :=
  runRule md (skipNext md) (parseRest md) (parse md) rule silent

theorem parseRest_alike (isJsx : md.grammar = TagGrammar.jsx) (source : Text) (level : Nat) :
    ParsesAlike source level (parseRest md) (InlineRun.parseRest md) := by
  have lawful : md.grammar.Lawful := isJsx ▸ TagGrammar.jsx_lawful
  have alike : ParsesAlike source level (parseUpTo md (parse md) (md.maxNesting - level))
      (InlineRun.parseUpTo md (InlineRun.parse md) (md.maxNesting - level)) :=
    parseUpTo_alike isJsx (fun label _ => parse_eq isJsx label) (InlineRun.parse_eq lawful)
      (allWithin_parse lawful) (Nat.le_refl _)
  constructor
  · rintro run ready rfl isSource
    exact alike.agrees run ready rfl isSource
  · rintro run ready rfl isSource
    exact alike.keeps run ready rfl isSource

theorem tryRule_matches (isJsx : md.grammar = TagGrammar.jsx) (rule : InlineRule) (silent : Bool)
    (ready : run.Ready) :
    Matches (tryRule md rule silent (ofRun run)) run (InlineRun.tryRule md rule silent run) := by
  have lawful : md.grammar.Lawful := isJsx ▸ TagGrammar.jsx_lawful
  exact runRule_matches isJsx (InlineRun.skipNext_skips lawful) (forward_skip lawful _)
    (skipNext_alike isJsx run.level) (fun _ => InlineRun.performs_parseRest lawful run.level)
    (fun _ => parseRest_alike isJsx run.source (run.level + 1))
    (fun _ label _ => parse_eq isJsx label) rule ready rfl

theorem skipNext_lands (isJsx : md.grammar = TagGrammar.jsx) (ready : run.Ready)
    (inWindow : run.pos < run.posMax) :
    Lands (skipNext md (ofRun run)) (InlineRun.skipNext md run) where
  agrees := (skipNext_alike isJsx run.level).agrees run ready rfl inWindow
  boundary := by
    have follows := (skipNext_alike isJsx run.level).follows run ready rfl inWindow
    exact isBoundary_offset (Nat.le_trans follows.ready.ordered follows.ready.inText)

end InlineByteRun

/-! ## The contract -/

namespace InlineRun

open InlineByteRun (Lands ofRun)

variable {md : Markdown}

/-- On every run that parsing comes to, each rule keeps its contract, and runs that are silent and
runs that are not agree on the answer and on the position. Skipping therefore moves on inside the
window and changes nothing else; parsing ends at the end of the window, with no text pending. By
bytes all three come to the same, and move to where characters begin. -/
theorem contract_of_reachable (jsx : md.grammar = TagGrammar.jsx) {run : InlineRun}
    (reached : Reachable md run) (ordered : run.pos ≤ run.posMax)
    (inText : run.posMax ≤ run.source.length) :
    (run.pos < run.posMax →
      (∀ rule silent, Contract run silent (tryRule md rule silent run) ∧
        Lands (InlineByteRun.tryRule md rule silent (ofRun run)) (tryRule md rule silent run)) ∧
      (∀ rule, (tryRule md rule true run).1 = (tryRule md rule false run).1 ∧
        (tryRule md rule true run).2.pos = (tryRule md rule false run).2.pos) ∧
      Lands (InlineByteRun.skipNext md (ofRun run)) (skipNext md run) ∧
      ∃ pos memo, run.pos < pos ∧ pos ≤ run.posMax ∧
        (skipNext md run).2 = { run with pos, memo }) ∧
    InlineByteRun.parseRest md (ofRun run) = .ok (ofRun (parseRest md run)) ∧
    ∃ tokens memo, run.tokens <+: tokens ∧
      parseRest md run = { run with pos := run.posMax, pending := [], tokens, memo } := by
  have lawful : md.grammar.Lawful := jsx ▸ TagGrammar.jsx_lawful
  have ready : run.Ready := ⟨ordered, inText, reached.forward lawful⟩
  refine ⟨fun inWindow => ⟨?rules, ?silent, ?skippingBytes, ?skipping⟩, ?parsingBytes, ?parsing⟩
  case rules =>
    exact fun rule silent => ⟨contract_tryRule lawful rule silent ready,
      (InlineByteRun.tryRule_matches jsx rule silent ready).lands⟩
  case silent => exact fun rule => tryRule_silent lawful rule ready
  case skippingBytes => exact InlineByteRun.skipNext_lands jsx ready inWindow
  case skipping =>
    obtain ⟨⟨behind, inside⟩, -⟩ := forward_skip lawful (md.maxNesting - run.level) run.cursor
      (cursor_rest_ne_nil ready inWindow) run.memo ready.forward
    rw [cursor_stop ready] at inside
    rw [skipNext_skips lawful run ready rfl inWindow]
    exact ⟨_, _, behind, inside, rfl⟩
  case parsingBytes =>
    exact (InlineByteRun.parseRest_alike jsx run.source run.level).agrees run ready rfl rfl
  case parsing =>
    rw [parseRest_parses lawful run ready rfl]
    exact ⟨_, _, List.prefix_append _ _, rfl⟩

theorem contract_of_reachable_emphasis :
    let md : Markdown := { transform := .ok }
    let run := ofSource ['*', 'ä', '*']
    Contract run false (tryRule md .emphasis false run) ∧
      (tryRule md .emphasis false run).1 = true ∧
      Lands (InlineByteRun.tryRule md .emphasis false (ofRun run))
        (tryRule md .emphasis false run) ∧
      (ofRun (tryRule md .emphasis false run).2).pos = 4 := by
  intro md run
  have reached : Reachable md run := .start _
  obtain ⟨inWindow, -⟩ := contract_of_reachable rfl reached (by decide) (by decide)
  obtain ⟨contract, lands⟩ := (inWindow (by decide)).1 .emphasis false
  exact ⟨contract, by decide +kernel, lands, by decide +kernel⟩

end InlineRun

end ComponentMarkdown
