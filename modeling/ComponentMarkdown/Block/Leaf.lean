import ComponentMarkdown.Block.Scope

/-!
# Blocks without blocks in them

Thematic breaks, headings, and code that is indented or fenced. The rules look at the lines from
`first` up to `stop`.
-/

namespace ComponentMarkdown

/-! ## Thematic breaks -/

/-- The marks of a thematic break: at least three of one kind, with blanks between them. -/
def breakMarks? (content : Text) : Option Text :=
  match content with
  | [] => none
  | mark :: _ =>
    let marks := content.filter (· == mark)
    if (mark == '*' || mark == '-' || mark == '_') && 3 ≤ marks.length &&
        content.all (fun c => c == mark || isSpaceOrTab c) then some marks
    else none

/-- A thematic break. -/
def hr? (scope : Scope) (first : Nat) : Option Block := do
  guard !(scope.isDeeplyIndented first)
  let marks ← breakMarks? (scope.content first)
  return .hr marks (first, first + 1)

/-! ## Headings -/

/-- The depth of a heading: one to six hashes, with a blank or nothing behind them. -/
def headingDepth? (content : Text) : Option Nat :=
  let depth := Text.runLength '#' content
  if 1 ≤ depth && depth ≤ 6 && (content.drop depth).head?.all isSpaceOrTab then some depth
  else none

/-- The text of a heading behind its hashes. A run of hashes at the end goes if a blank stands
before it. -/
def headingContent (rest : Text) : Text :=
  let text := rest.dropEndWhile isSpaceOrTab
  let opened := text.dropEndWhile (· == '#')
  let closes := opened.length < text.length && (opened.getLast?.all isSpaceOrTab)
  (if closes then opened else text).trim

/-- A heading. -/
def heading? (scope : Scope) (first : Nat) : Option Block := do
  guard !(scope.isDeeplyIndented first)
  let depth ← headingDepth? (scope.content first)
  return .heading depth (headingContent ((scope.content first).drop depth)) (first, first + 1)

/-! ## Indented code -/

/-- The line behind the last indented one; empty lines between indented ones belong to the code.
`last` is the line behind the last indented line so far. -/
def codeEnd (scope : Scope) (stop : Nat) : Nat → Nat → Nat → Nat
  | 0, _, last => last
  | fuel + 1, next, last =>
    if stop ≤ next then last
    else if scope.isEmpty next then codeEnd scope stop fuel (next + 1) last
    else if scope.isDeeplyIndented next then codeEnd scope stop fuel (next + 1) (next + 1)
    else last

/-- Indented code. -/
def indentedCode? (scope : Scope) (first stop : Nat) : Option Block := do
  guard (scope.isDeeplyIndented first)
  let last := codeEnd scope stop (stop - first) (first + 1) (first + 1)
  return .code (scope.source first last (4 + scope.indent) false) (first, last)

/-! ## Fenced code -/

/-- The line that opens a fence: its marks, and what follows them. -/
def fenceOpening? (content : Text) : Option (Char × Nat × Text) :=
  match content with
  | [] => none
  | mark :: _ =>
    let length := Text.runLength mark content
    let info := content.drop length
    if (mark == '\x60' || mark == '~') && 3 ≤ length && !(mark == '\x60' && info.contains '\x60')
    then some (mark, length, info)
    else none

/-- Does the line close a fence of `length` marks? -/
def closesFence (mark : Char) (length : Nat) (content : Text) : Bool :=
  let run := Text.runLength mark content
  length ≤ run && (content.drop run).all isSpaceOrTab

/-- The line behind the content of a fence, and whether a closing line follows there. -/
def fenceEnd (scope : Scope) (mark : Char) (length stop : Nat) : Nat → Nat → Nat × Bool
  | 0, next => (next, false)
  | fuel + 1, next =>
    if stop ≤ next then (next, false)
    else if !scope.isEmpty next && scope.isDedented next then (next, false)
    else if !scope.isDeeplyIndented next && closesFence mark length (scope.content next) then
      (next, true)
    else fenceEnd scope mark length stop fuel (next + 1)

/-- Fenced code. -/
def fence? (scope : Scope) (first stop : Nat) : Option Block := do
  guard !(scope.isDeeplyIndented first)
  let (mark, length, info) ← fenceOpening? (scope.content first)
  let (next, closed) := fenceEnd scope mark length stop (stop - first) (first + 1)
  let content := scope.source (first + 1) next (scope.line first).columns.toNat true
  return .fence (List.replicate length mark) info.trim content
    (first, if closed then next + 1 else next)

end ComponentMarkdown
