import ComponentMarkdown.Block.Opens

/-!
# Quotes and lists

Containers parse the blocks in them with the rules of the document, in a scope of their own. Here
the function that does so is a parameter.
-/

namespace ComponentMarkdown

/-- Parses the blocks of a scope from a line on, up to a line. -/
abbrev ParseBlocks := Scope → Progress → Nat → Nat → List Block × Progress

/-! ## Quotes -/

/-- A line of a quote as the blocks in it see it, given what follows the mark. -/
def unquote (line : Line) (behind : Text) : Line :=
  let (gap, rest) := match behind with
    | c :: rest => if isSpaceOrTab c then ([c], rest) else ([], behind)
    | [] => ([], [])
  let indentation := rest.takeWhile isSpaceOrTab
  { start := line.start + line.indentation.length + 1 + gap.length
    indentation
    content := rest.dropWhile isSpaceOrTab
    columns := columnBehind 0 indentation
    ended := line.ended }

/-- The lines of a quote from `next` on, without their marks. A line without a mark belongs to the
quote if it can go on with a paragraph. -/
def quoteLines (md : Markdown) (scope : Scope) (stop : Nat) : Nat → Bool → Nat → List Line
  | 0, _, _ => []
  | fuel + 1, lastEmpty, next =>
    if stop ≤ next then []
    else
      let line := scope.line next
      match line.content with
      | [] => []
      | mark :: behind =>
        if mark == '>' && !scope.isDedented next then
          let inner := unquote line behind
          inner :: quoteLines md scope stop fuel inner.isEmpty (next + 1)
        else if lastEmpty ||
            endsAt md "blockquote" { scope with indent := 0, parent := .blockquote } next then []
        else { line with columns := -1 } :: quoteLines md scope stop fuel false (next + 1)

/-- A quote. -/
def blockquote? (md : Markdown) (parse : ParseBlocks) (scope : Scope) (progress : Progress)
    (first stop : Nat) : Option Made := do
  guard (opensBlockquote scope first)
  let lines := quoteLines md scope stop (stop - first) false first
  let inner : Scope :=
    { lines := replaceLines scope.lines first lines, indent := 0, parent := .blockquote,
      level := scope.level + 1 }
  let (body, progress) := parse inner progress first (first + lines.length)
  return (.blockquote body (first, progress.line), progress)

/-! ## Lists -/

/-- The line of an item as the blocks in it see it: the marker counts as indentation. -/
def itemLine (line : Line) (marker : Marker) : Line :=
  let gap := marker.rest.takeWhile isSpaceOrTab
  { line with
    indentation := line.indentation ++ marker.text ++ gap
    content := marker.rest.dropWhile isSpaceOrTab
    columns :=
      let start := line.columns + marker.width
      gap.foldl (fun column c => if c == '\t' then column + (4 - column.tmod 4) else column + 1)
        start }

/-- The indentation that the blocks of an item need: that of its content, unless this is code or
there is none. -/
def itemIndent (line : Line) (marker : Marker) : Nat :=
  let start := line.columns + marker.width
  let inner := itemLine line marker
  let gap := if inner.isEmpty then 1 else inner.columns - start
  (start + if gap > 4 then 1 else gap).toNat

/-- The blocks of the item at line `next`, and how far parsing has come then. An item without
content has no blocks if the line behind it is empty. -/
def itemBlocks (parse : ParseBlocks) (scope : Scope) (stop next : Nat) (marker : Marker) :
    List Block × Progress :=
  let line := itemLine (scope.line next) marker
  let inner : Scope :=
    { lines := scope.lines.setIfInBounds next line, indent := itemIndent (scope.line next) marker,
      parent := .list, level := scope.level + 2 }
  if line.isEmpty && scope.isEmpty (next + 1) then ([], ⟨min (next + 2) stop, true⟩)
  else parse inner ⟨next, true⟩ next stop

/-- The marker that follows the items of a list at line `next`, if another item does. -/
def nextMarker? (scope : Scope) (marker : Marker) (next : Nat) : Option Marker :=
  (if marker.number.isSome then Marker.ordered? (scope.content next)
    else Marker.bullet? (scope.content next)).filter marker.continues

/-- The items of a list that is still being read. -/
structure Items where
  items : List ListItem
  /-- The line behind the items. -/
  next : Nat
  tight : Bool

/-- The items from `next` on, where `marker` was found. `gapBefore` says that an empty line ended
the item before. -/
def listItems (md : Markdown) (parse : ParseBlocks) (scope : Scope) (stop : Nat) :
    Nat → Nat → Marker → Bool → Items
  | 0, next, _, _ => ⟨[], next, true⟩
  | fuel + 1, next, marker, gapBefore =>
    if stop ≤ next then ⟨[], next, true⟩ else
    let (body, progress) := itemBlocks parse scope stop next marker
    let tight := progress.tight && !gapBefore
    let gapBehind := 1 < progress.line - next && scope.isEmpty (progress.line - 1)
    let after := max progress.line (next + 1)
    let item := ListItem.mk (marker.number.getD []) body (next, after)
    let following :=
      if stop ≤ after || scope.isDedented after || scope.isDeeplyIndented after ||
          endsAt md "list" { scope with parent := .list } after then none
      else nextMarker? scope marker after
    match following with
    | none => ⟨[item], after, tight⟩
    | some marker =>
      let others := listItems md parse scope stop fuel after marker gapBehind
      ⟨item :: others.items, others.next, tight && others.tight⟩

/-- A list. If it is tight, the paragraphs of its items are hidden. -/
def list? (md : Markdown) (parse : ParseBlocks) (scope : Scope) (progress : Progress)
    (first stop : Nat) : Option Made := do
  guard !(scope.isDeeplyIndented first)
  let marker ← Marker.of? (scope.content first)
  let found := listItems md parse scope stop (stop - first + 1) first marker false
  let items := if found.tight then found.items.map (·.tighten) else found.items
  return (.list marker.value marker.mark items (first, found.next),
    { progress with line := found.next })

end ComponentMarkdown
