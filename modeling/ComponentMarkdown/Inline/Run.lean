import ComponentMarkdown.Inline.Parse
import ComponentMarkdown.Inline.Rules

/-!
# Parsing inline content in place

The rules of the chain run one after the other on the state of a parse. The file has:

* `skipNext`, which moves over what stands at the position;
* `parseRest`, which parses the window, and `InlineRun.parse` for a whole text;
* `tryRule`, which runs a single rule.
-/

namespace ComponentMarkdown.InlineRun

/-! ## Skipping -/

/-- Runs the rules silently, each one level deeper, until one of them moves on from `start`. -/
def skipBy (step : InlineRule → Step) (start : Nat) : List InlineRule → Step
  | [] => fun run => (false, run)
  | rule :: rules => fun run =>
    let tried := step rule { run with level := run.level + 1 }
    let run := { tried.2 with level := tried.2.level - 1 }
    if tried.1 && start < run.pos then (true, run)
    else skipBy step start rules { run with pos := start }

/-- Takes a step and remembers where it led. -/
def recordStep (step : Step) : Step := fun run =>
  let stepped := step run
  (stepped.1,
    { stepped.2 with memo := stepped.2.memo.insert run.pos ⟨stepped.2.pos, stepped.1⟩ })

/-- Looks up where a step leads. An outcome that lies outside the window is found anew. -/
def recallStep (step : Step) : Step := fun run =>
  match run.memo[run.pos]? with
  | some known =>
    if known.stop ≤ run.posMax then (known.consumed, { run with pos := known.stop })
    else recordStep step run
  | none => recordStep step run

/-- Moves over the whole window. -/
def skipWindow : Step := fun run => (true, { run with pos := run.posMax })

/-- Moves over what stands at the position: what a rule takes, or one character. At the greatest
depth of nesting the whole window is skipped; `fuel` levels may be entered. -/
def skipUpTo (md : Markdown) : Nat → Step
  | 0 => recallStep skipWindow
  | fuel + 1 => recallStep fun run =>
    if run.level < md.maxNesting then
      let step := fun rule => runRule md (skipUpTo md fuel) id (fun _ => []) rule true
      let skipped := skipBy step run.pos md.inlineChain run
      if skipped.1 then skipped
      else (false, { skipped.2 with pos := skipped.2.pos + 1 })
    else skipWindow run

/-- Moves over what stands at the position: was it taken by a rule? -/
def skipNext (md : Markdown) : Step := fun run =>
  skipUpTo md (md.maxNesting - run.level) run

/-! ## Parsing -/

/-- Runs the rules until one of them moves on from `start`. -/
def firstStep (step : InlineRule → Step) (start : Nat) : List InlineRule → Step
  | [] => fun run => (false, run)
  | rule :: rules => fun run =>
    let tried := step rule run
    if tried.1 && start < tried.2.pos then tried else firstStep step start rules tried.2

/-- Takes steps up to `stop`, and at most `fuel` of them. Where none matches, one character is
literal. -/
def parseChars (step : Step) (stop : Nat) : Nat → InlineRun → InlineRun
  | 0, run => run
  | fuel + 1, run =>
    if stop ≤ run.pos then run
    else
      let start := run.pos
      let stepped := step run
      if stepped.1 then parseChars step stop fuel stepped.2
      else
        let run := { stepped.2 with pos := start }
        match run.peek? with
        | none => run
        | some c =>
          parseChars step stop fuel { run with pos := start + 1, pending := run.pending ++ [c] }

/-- Parses the window with `step`. -/
def parseBy (step : Step) (run : InlineRun) : InlineRun :=
  (parseChars step run.posMax (run.posMax - run.pos) run).settle

/-- Parses the window. Beyond the greatest depth of nesting all text is literal; `fuel` levels may
be entered. -/
def parseUpTo (md : Markdown) (parseLabel : Text → List Token) : Nat → InlineRun → InlineRun
  | 0 => parseBy fun run => (false, run)
  | fuel + 1 => parseBy fun run =>
    if run.level < md.maxNesting then
      let step := fun rule =>
        runRule md (skipNext md) (parseUpTo md parseLabel fuel) parseLabel rule false
      firstStep step run.pos md.inlineChain run
    else (false, run)

/-- The tokens of a text in which images are nested less than `depth` deep. -/
def parseLabels (md : Markdown) : Nat → Text → List Token
  | 0, _ => []
  | depth + 1, source =>
    (parseUpTo md (parseLabels md depth) md.maxNesting (ofSource source)).tokens

/-- The tokens of a text. -/
def parse (md : Markdown) (source : Text) : List Token :=
  parseLabels md (source.length + 1) source

/-- Parses the rest of the window. -/
def parseRest (md : Markdown) (run : InlineRun) : InlineRun :=
  parseUpTo md (parse md) (md.maxNesting - run.level) run

/-- Runs a rule: did it match? A silent run only moves on. -/
def tryRule (md : Markdown) (rule : InlineRule) (silent : Bool) : Step :=
  runRule md (skipNext md) (parseRest md) (parse md) rule silent

end ComponentMarkdown.InlineRun
