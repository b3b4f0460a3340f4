import ComponentMarkdown.Block.Line
import ComponentMarkdown.Block.Tree
import ComponentMarkdown.Markdown

/-!
# Scopes

A scope is what a container lets its blocks see: the lines without the marks of the containers
around them, the indentation they need, the kind of container and the depth of nesting.
-/

namespace ComponentMarkdown

/-- What a rule is running inside. -/
inductive Parent where
  | root | paragraph | blockquote | list
deriving DecidableEq, Repr

/-- The surroundings of blocks. -/
structure Scope where
  lines : Array Line
  indent : Nat := 0
  parent : Parent := .root
  level : Nat := 0

/-- Puts other lines in the place of those from `first` on. -/
def replaceLines (lines : Array Line) (first : Nat) : List Line → Array Line
  | [] => lines
  | line :: more => replaceLines (lines.setIfInBounds first line) (first + 1) more

namespace Scope

/-- The surroundings of the blocks of a document. -/
def ofSource (source : Text) : Scope :=
  { lines := (linesOf source).toArray }

variable (scope : Scope)

/-- The position behind the last line. -/
def length : Nat :=
  match scope.lines.back? with
  | some line => line.stop + line.lineFeed.length
  | none => 0

/-- The line of a number; behind the last one all lines are empty. -/
def line (number : Nat) : Line :=
  scope.lines[number]?.getD (Line.beyond scope.length)

def content (number : Nat) : Text :=
  (scope.line number).content

def isEmpty (number : Nat) : Bool :=
  (scope.line number).isEmpty

/-- The first line from `number` on that is not empty. -/
def skipEmptyUpTo : Nat → Nat → Nat
  | 0, number => number
  | fuel + 1, number =>
    if number < scope.lines.size && scope.isEmpty number then skipEmptyUpTo fuel (number + 1)
    else number

/-- The first line from `number` on that is not empty. -/
def skipEmpty (number : Nat) : Nat :=
  scope.skipEmptyUpTo scope.lines.size number

/-- Is the line indented less than the block requires? -/
def isDedented (number : Nat) : Bool :=
  (scope.line number).columns < scope.indent

/-- Is the line indented so far that it is code? -/
def isDeeplyIndented (number : Nat) : Bool :=
  4 ≤ (scope.line number).columns - scope.indent

/-- The text of the lines from `first` up to `stop`, without the first `indent` columns of each. -/
def source (first stop indent : Nat) (keepEnd : Bool) : Text :=
  sourceOf indent keepEnd ((List.range' first (stop - first)).map scope.line)

end Scope

/-- How far parsing has come: the next line, and whether no empty line has separated two blocks of
the container. -/
structure Progress where
  line : Nat := 0
  tight : Bool := false
deriving DecidableEq, Repr

/-- A block that a rule has made, and how far parsing has come then. -/
abbrev Made := Block × Progress

end ComponentMarkdown
