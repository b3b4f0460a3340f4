import ComponentMarkdown.Block.Scope
import ComponentMarkdown.Block.Tokens

/-!
# The state of block parsing

A run holds the scope of the blocks, how far parsing has come, and the tokens that were made so
far. Rules change all of it in place; a container changes the scope for the blocks in it and puts
the old one back. The file has:

* the lines of a run, and the changes that a container makes to the scope;
* `add` and `push` for tokens.
-/

namespace ComponentMarkdown

/-- Where parsing of blocks stands. -/
structure BlockRun where
  scope : Scope
  progress : Progress := {}
  tokens : List Token := []

namespace BlockRun

/-- Runs a rule on the lines from the first number up to the second one: did it match? -/
abbrev Step := Nat → Nat → BlockRun → Bool × BlockRun

/-- The run before anything was read. -/
def ofSource (source : Text) : BlockRun :=
  { scope := Scope.ofSource source }

/-- How many lines there are. -/
def lineCount (run : BlockRun) : Nat :=
  run.scope.lines.size

/-- All lines, and the end of the text as one more empty line. -/
def allLines (run : BlockRun) : List Line :=
  run.scope.lines.toList ++ [Line.beyond run.scope.length]

/-! ## Changes -/

/-- Makes `line` the next line. -/
def moveTo (run : BlockRun) (line : Nat) : BlockRun :=
  { run with progress := { run.progress with line } }

def setTight (run : BlockRun) (tight : Bool) : BlockRun :=
  { run with progress := { run.progress with tight } }

def setIndent (run : BlockRun) (indent : Nat) : BlockRun :=
  { run with scope := { run.scope with indent } }

def setParent (run : BlockRun) (parent : Parent) : BlockRun :=
  { run with scope := { run.scope with parent } }

/-- Puts another line in the place of the one of that number. -/
def setLine (run : BlockRun) (number : Nat) (line : Line) : BlockRun :=
  { run with scope := { run.scope with lines := run.scope.lines.setIfInBounds number line } }

/-- Puts other lines in the place of those from `first` on. -/
def setLines (run : BlockRun) (first : Nat) (lines : List Line) : BlockRun :=
  { run with scope := { run.scope with lines := replaceLines run.scope.lines first lines } }

/-! ## Tokens -/

/-- Adds a token on the level that its nesting asks for. -/
def add (run : BlockRun) (token : Token) : BlockRun :=
  let level := if token.nesting = .closing then run.scope.level - 1 else run.scope.level
  { run with
    scope := { run.scope with level := if token.nesting = .opening then level + 1 else level }
    tokens := run.tokens ++ [{ token with level, block := true }] }

def push (run : BlockRun) (kind : TokenKind) (tag : Text) (nesting : Nesting) : BlockRun :=
  run.add { kind, tag, nesting }

/-- Gives the token at an index its lines. -/
def setMap (run : BlockRun) (index : Nat) (span : LineSpan) : BlockRun :=
  { run with tokens := run.tokens.modify index ({ · with map := some span }) }

end BlockRun

end ComponentMarkdown
