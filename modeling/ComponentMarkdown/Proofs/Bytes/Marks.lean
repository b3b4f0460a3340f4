import ComponentMarkdown.Block.State
import ComponentMarkdown.Proofs.Bytes.Scan

/-!
# Lines by bytes

The lines of a text are held as marks: where each begins and ends, how many bytes of indentation it
has, and how many columns these take. One more line stands for the end of the text. The file has:

* `LineMarks`, and `ByteRun` for a state of block parsing that holds them;
* the marks of a text, read by bytes;
* questions about a line, and `getLines` for the text of several lines;
* changes of marks and tokens.
-/

namespace ComponentMarkdown

/-- The marks of lines. -/
structure LineMarks where
  /-- The byte at which a line begins. -/
  begins : Array Nat := #[]
  /-- The byte at which a line ends. -/
  ends : Array Nat := #[]
  /-- The bytes of indentation. -/
  shifts : Array Nat := #[]
  /-- The columns of indentation. -/
  columns : Array Int := #[]

/-- Where parsing of blocks stands, with the lines as marks. -/
structure ByteRun where
  source : Text
  marks : LineMarks
  /-- The number of lines. -/
  lineMax : Nat
  indent : Nat := 0
  parent : Parent := .root
  level : Nat := 0
  progress : Progress := {}
  tokens : List Token := []

open Checked

/-! ## Columns -/

namespace Checked

/-- The column behind a blank; a tab goes on to the next stop. -/
def columnAfter (column : Nat) (c : Char) : Checked Nat := do
  if c == '\t' then return column + (← minus 4 (column % 4)) else return column + 1

/-- Passes blanks from a byte on, and counts their columns. -/
def skipColumns {α : Type} (after : α → Char → Checked α) (b : Text) (max i : Nat) (column : α) :
    Checked (Nat × α) :=
  if i < max then do
    let c ← byteAt b i
    if isSpaceOrTab c then skipColumns after b max (i + 1) (← after column c)
    else return (i, column)
  else return (i, column)
termination_by max - i

/-- Passes indentation until `wanted` columns are gone. The bytes that count as indentation are
those up to `shift` behind the beginning of the line. -/
def stripIndent (b : Text) (lineStart shift wanted last first column : Nat) :
    Checked (Nat × Nat) :=
  if first < last ∧ column < wanted then do
    let c ← byteAt b first
    if isSpaceOrTab c then
      stripIndent b lineStart shift wanted last (first + 1) (← columnAfter column c)
    else if (← minus first lineStart) < shift then
      stripIndent b lineStart shift wanted last (first + 1) (column + 1)
    else return (first, column)
  else return (first, column)
termination_by last - first

end Checked

/-! ## The marks of a text -/

namespace LineMarks

/-- Adds a line. -/
def push (marks : LineMarks) (first stop shift : Nat) (columns : Int) : LineMarks where
  begins := marks.begins.push first
  ends := marks.ends.push stop
  shifts := marks.shifts.push shift
  columns := marks.columns.push columns

/-- Adds the lines from a byte on. -/
def addLines (source : Text) (start : Nat) (marks : LineMarks) : Checked LineMarks :=
  if start < source.size then do
    let rest ← slice source start source.size
    let stop := start + Text.size (rest.takeWhile (· != '\n'))
    let line ← bytesIn source.bytes start stop
    let (shift, columns) ← skipColumns columnAfter line line.length 0 0
    addLines source (stop + 1) (marks.push start stop shift columns)
  else return marks
termination_by source.size - start

/-- The marks of the lines of a text, and of the end of the text as one more line. -/
def ofSource (source : Text) : Checked LineMarks := do
  let marks ← addLines source 0 {}
  return marks.push source.size source.size 0 0

/-- Puts other marks in the place of those of a line, which ends where it did. -/
def set (marks : LineMarks) (number first shift : Nat) (columns : Int) : Checked LineMarks := do
  return { marks with
    begins := ← setMember marks.begins number first
    shifts := ← setMember marks.shifts number shift
    columns := ← setMember marks.columns number columns }

end LineMarks

namespace ByteRun

/-- The run before anything was read. -/
def ofSource (source : Text) : Checked ByteRun := do
  let marks ← LineMarks.ofSource source
  return { source, marks, lineMax := ← minus marks.begins.size 1 }

variable (run : ByteRun)

/-! ## Questions about a line -/

/-- The byte behind the indentation. -/
def contentStart (number : Nat) : Checked Nat := do
  return (← member run.marks.begins number) + (← member run.marks.shifts number)

def lineEnd (number : Nat) : Checked Nat :=
  member run.marks.ends number

def isEmpty (number : Nat) : Checked Bool := do
  return (← run.lineEnd number) ≤ (← run.contentStart number)

/-- The first line from `number` on that is not empty. -/
def skipEmpty (number : Nat) : Checked Nat :=
  if number < run.lineMax then do
    if ← run.isEmpty number then skipEmpty (number + 1) else return number
  else return number
termination_by run.lineMax - number

/-- The text of a line behind its indentation. -/
def lineText (number : Nat) : Checked Text := do
  let stop ← run.lineEnd number
  slice run.source (min (← run.contentStart number) stop) stop

def isDedented (number : Nat) : Checked Bool := do
  return (← member run.marks.columns number) < run.indent

def isDeeplyIndented (number : Nat) : Checked Bool := do
  return 4 ≤ (← member run.marks.columns number) - run.indent

/-! ## The text of lines -/

/-- The text of a line without `indent` columns, with the line feed that ends it or not. -/
def getLine (number indent : Nat) (keepEnd : Bool) : Checked Text := do
  let lineStart ← member run.marks.begins number
  let shift ← member run.marks.shifts number
  let stop ← run.lineEnd number
  let last := if keepEnd then min (stop + 1) run.source.size else stop
  let (first, column) ← stripIndent run.source.bytes lineStart shift indent last lineStart 0
  let text ← slice run.source first last
  if indent < column then return Text.spaces (← minus column indent) ++ text
  else return text

/-- The text of `count` lines from `first` on, without `indent` columns of each. -/
def getLinesFrom (indent : Nat) (keepEnd : Bool) : Nat → Nat → Checked Text
  | 0, _ => return []
  | count + 1, first => do
    let line ← run.getLine first indent (count != 0 || keepEnd)
    return line ++ (← getLinesFrom indent keepEnd count (first + 1))

/-- The text of the lines from `first` up to `stop`. -/
def getLines (first stop indent : Nat) (keepEnd : Bool) : Checked Text :=
  run.getLinesFrom indent keepEnd (stop - first) first

/-! ## Changes -/

def moveTo (line : Nat) : ByteRun :=
  { run with progress := { run.progress with line } }

def setTight (tight : Bool) : ByteRun :=
  { run with progress := { run.progress with tight } }

def setIndent (indent : Nat) : ByteRun :=
  { run with indent }

def setParent (parent : Parent) : ByteRun :=
  { run with parent }

/-- Puts other marks in the place of those of a line. -/
def setMarks (number first shift : Nat) (columns : Int) : Checked ByteRun := do
  return { run with marks := ← run.marks.set number first shift columns }

/-- The marks of a line that a quote changes. -/
def lineMarks (number : Nat) : Checked (Nat × Nat × Int) := do
  return (← member run.marks.begins number, ← member run.marks.shifts number,
    ← member run.marks.columns number)

/-- Puts the marks of lines back, from line `first` on. -/
def restoreMarks (run : ByteRun) (first : Nat) : List (Nat × Nat × Int) → Checked ByteRun
  | [] => return run
  | (start, shift, columns) :: saved => do
    restoreMarks (← run.setMarks first start shift columns) (first + 1) saved

/-- Adds a token on the level that its nesting asks for. -/
def add (token : Token) : ByteRun :=
  let level := if token.nesting = .closing then run.level - 1 else run.level
  { run with
    level := if token.nesting = .opening then level + 1 else level
    tokens := run.tokens ++ [{ token with level, block := true }] }

/-- Gives the token of an index its lines. -/
def setMap (index : Nat) (span : LineSpan) : Checked ByteRun :=
  if index < run.tokens.length then
    return { run with tokens := run.tokens.modify index ({ · with map := some span }) }
  else throw .index

end ByteRun

end ComponentMarkdown
