import ComponentMarkdown.Block.Container
import ComponentMarkdown.Block.Paragraph

/-!
# Parsing blocks

Line by line, the first rule that makes a block takes its lines. A container ends where a line is
not indented enough, and beyond the greatest depth of nesting all lines are dropped. The file has:

* `runRule`, which runs one rule;
* `parseBlocks`, which parses the blocks of a scope;
* `Block.parse` for a whole text.
-/

namespace ComponentMarkdown

/-- A block that only moves the next line behind itself. -/
def Block.made (progress : Progress) (block : Block) : Made :=
  (block, { progress with line := block.span.2 })

/-- Runs a rule on the lines from `first` up to `stop`. -/
def runRule (md : Markdown) (parse : ParseBlocks) (rule : BlockRule) (scope : Scope)
    (progress : Progress) (first stop : Nat) : Option Made :=
  match rule with
  | .code => (indentedCode? scope first stop).map (·.made progress)
  | .fence => (fence? scope first stop).map (·.made progress)
  | .blockquote => blockquote? md parse scope progress first stop
  | .hr => (hr? scope first).map (·.made progress)
  | .list => list? md parse scope progress first stop
  | .embedded => (embeddedBlock? md scope first stop).map (·.made progress)
  | .heading => (heading? scope first).map (·.made progress)
  | .paragraph => some ((paragraph md scope first stop).made progress)

/-- Parses blocks one after the other with `run`, from `next` up to `stop`. `sawEmpty` says that an
empty line was met; at most `fuel` blocks are parsed. -/
def blocksFrom (md : Markdown) (run : Progress → Nat → Option Made) (scope : Scope) (stop : Nat) :
    Nat → Progress → Nat → Bool → List Block × Progress
  | 0, progress, _, _ => ([], progress)
  | fuel + 1, progress, next, sawEmpty =>
    if stop ≤ next then ([], progress)
    else
      let first := scope.skipEmpty next
      let progress := { progress with line := first }
      if stop ≤ first || scope.isDedented first then ([], progress)
      else if md.maxNesting ≤ scope.level then ([], { progress with line := stop })
      else
        match run progress first with
        | none => ([], progress)
        | some (block, progress) =>
          if progress.line ≤ first then ([block], progress)
          else
            let after := progress.line
            let emptyBehind := after < stop && scope.isEmpty after
            let next := if emptyBehind then after + 1 else after
            let (blocks, progress) := blocksFrom md run scope stop fuel ⟨next, !sawEmpty⟩ next
              (sawEmpty || scope.isEmpty (after - 1) || emptyBehind)
            (block :: blocks, progress)

/-- Parses the blocks of a scope, with containers nested up to `depth` deep. -/
def parseBlocks (md : Markdown) : Nat → ParseBlocks
  | 0 => fun scope progress first stop =>
    blocksFrom md (fun _ _ => none) scope stop (stop - first + 1) progress first false
  | depth + 1 => fun scope progress first stop =>
    let run := fun progress first =>
      (md.blockChain RuleTable.mainChain).findSome? fun rule =>
        runRule md (parseBlocks md depth) rule scope progress first stop
    blocksFrom md run scope stop (stop - first + 1) progress first false

/-- Parses the blocks of a scope. Each container is a level deeper at least, so no more containers
are nested than levels are left. -/
def parseScope (md : Markdown) : ParseBlocks := fun scope =>
  parseBlocks md (md.maxNesting + 1 - scope.level) scope

/-- The blocks of a text. -/
def Block.parse (md : Markdown) (source : Text) : List Block :=
  let scope := Scope.ofSource source
  (parseScope md scope {} 0 scope.lines.size).1

end ComponentMarkdown
