import ComponentMarkdown.Text.Basic

/-!
# Lines

A line is split into indentation and content. Its indentation is measured in columns, with a tab
stop every four columns. The file has:

* the lines of a text;
* `Line.strip`, which takes columns of indentation away;
* `sourceOf`, the text of several lines without the indentation of the block they stand in.
-/

namespace ComponentMarkdown

/-- A line of a document, as the block that is being parsed sees it. -/
structure Line where
  /-- The position of the indentation in the document. -/
  start : Nat
  /-- What stands before the content: spaces and tabs, and the marker of a list item. -/
  indentation : Text
  content : Text
  /-- The columns of the indentation; below zero for a line that goes on with a paragraph of a
  quote without the mark of the quote. -/
  columns : Int
  /-- Does a line feed end the line? -/
  ended : Bool
deriving DecidableEq, Repr

/-- The column behind a character of the indentation. -/
def nextColumn (column : Nat) (c : Char) : Nat :=
  if c == '\t' then column + (4 - column % 4) else column + 1

/-- The column behind a text that begins at a column. -/
def columnBehind (column : Nat) (s : Text) : Nat :=
  s.foldl nextColumn column

namespace Line

/-- A line of the document. -/
def ofText (start : Nat) (text : Text) (ended : Bool) : Line :=
  let indentation := text.takeWhile isSpaceOrTab
  { start, indentation, content := text.dropWhile isSpaceOrTab,
    columns := columnBehind 0 indentation, ended }

/-- Stands for the lines behind the last one. -/
def beyond (start : Nat) : Line :=
  { start, indentation := [], content := [], columns := 0, ended := false }

def isEmpty (line : Line) : Bool :=
  line.content.isEmpty

/-- The position behind the last character. -/
def stop (line : Line) : Nat :=
  line.start + line.indentation.length + line.content.length

/-- Takes characters of the indentation away until `wanted` columns are gone: the column that was
reached, and what is left. -/
def stripColumns (wanted column : Nat) : Text → Nat × Text
  | [] => (column, [])
  | c :: rest =>
    if column < wanted then stripColumns wanted (nextColumn column c) rest
    else (column, c :: rest)

/-- The line without the first `wanted` columns of its indentation. Spaces make up for a tab that
reaches further. -/
def strip (wanted : Nat) (line : Line) : Text :=
  let (column, rest) := stripColumns wanted 0 line.indentation
  Text.spaces (column - wanted) ++ rest ++ line.content

/-- The line feed that ends the line, if there is one. -/
def lineFeed (line : Line) : Text :=
  if line.ended then ['\n'] else []

end Line

/-- Lines for texts one after the other, the first one at `start`. All but the last end. -/
def linesFrom (start : Nat) : List Text → List Line
  | [] => []
  | [text] => if text.isEmpty then [] else [Line.ofText start text false]
  | text :: texts => Line.ofText start text true :: linesFrom (start + text.length + 1) texts

/-- The lines of a text. A line feed at its end begins no further line. -/
def linesOf (source : Text) : List Line :=
  linesFrom 0 source.splitLines

/-- The text of lines without the first `indent` columns of each, the last line feed included or
not. -/
def sourceOf (indent : Nat) (keepEnd : Bool) : List Line → Text
  | [] => []
  | [line] => line.strip indent ++ (if keepEnd then line.lineFeed else [])
  | line :: lines => line.strip indent ++ line.lineFeed ++ sourceOf indent keepEnd lines

end ComponentMarkdown
