import ComponentMarkdown.Block.Parse
import ComponentMarkdown.Block.Rules

/-!
# Parsing blocks in place

The rules of the chain run line by line on the state of a parse. The file has:

* `parseLines`, which parses the blocks on some lines, and `BlockRun.parse` for a whole text;
* `tryRule`, which runs a single rule.
-/

namespace ComponentMarkdown.BlockRun

/-- Parses blocks one after the other with `step`, from `next` up to `stop`. `sawEmpty` says that an
empty line was met; at most `fuel` blocks are parsed. -/
def parseBy (md : Markdown) (step : Step) (stop : Nat) : Nat → Nat → Bool → BlockRun → BlockRun
  | 0, _, _, run => run
  | fuel + 1, next, sawEmpty, run =>
    if stop ≤ next then run
    else
      let first := run.scope.skipEmpty next
      let run := run.moveTo first
      if stop ≤ first || run.scope.isDedented first then run
      else if md.maxNesting ≤ run.scope.level then run.moveTo stop
      else
        let tried := step first stop run
        let run := tried.2
        if !tried.1 || run.progress.line ≤ first then run
        else
          let after := run.progress.line
          let run := run.setTight (!sawEmpty)
          let sawEmpty := sawEmpty || run.scope.isEmpty (after - 1)
          if after < stop && run.scope.isEmpty after then
            parseBy md step stop fuel (after + 1) true (run.moveTo (after + 1))
          else parseBy md step stop fuel after sawEmpty run

/-- Parses the blocks from line `first` up to `stop`, with containers nested up to `depth` deep. -/
def parseUpTo (md : Markdown) : Nat → Nat → Nat → BlockRun → BlockRun
  | 0 => fun first stop run =>
    parseBy md (fun _ _ run => (false, run)) stop (stop - first + 1) first false run
  | depth + 1 => fun first stop run =>
    let step := fun first stop run =>
      firstMatch (fun rule => runRule md (parseUpTo md depth) (stop - first + 1) rule false)
        (md.blockChain RuleTable.mainChain) first stop run
    parseBy md step stop (stop - first + 1) first false run

/-- Parses the blocks from line `first` up to `stop`. Each container is a level deeper at least, so
no more containers are nested than levels are left. -/
def parseLines (md : Markdown) (first stop : Nat) (run : BlockRun) : BlockRun :=
  parseUpTo md (md.maxNesting + 1 - run.scope.level) first stop run

/-- The tokens of a text. -/
def parse (md : Markdown) (source : Text) : List Token :=
  let run := ofSource source
  (run.parseLines md 0 run.lineCount).tokens

/-- Runs a rule on the lines from `first` up to `stop`: did it match? -/
def tryRule (md : Markdown) (rule : BlockRule) (first stop : Nat) (silent : Bool)
    (run : BlockRun) : Bool × BlockRun :=
  runRule md (parseLines md) (stop - first + 1) rule silent first stop run

end ComponentMarkdown.BlockRun
