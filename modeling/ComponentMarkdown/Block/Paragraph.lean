import ComponentMarkdown.Block.Opens

/-!
# Paragraphs and embedded blocks
-/

namespace ComponentMarkdown

/-! ## Paragraphs -/

/-- The line behind a paragraph that has come as far as `next`. A line that is indented like code,
or that goes on lazily, always belongs to it. -/
def paragraphEnd (md : Markdown) (scope : Scope) (stop : Nat) : Nat → Nat → Nat
  | 0, next => next
  | fuel + 1, next =>
    if stop ≤ next || scope.isEmpty next then next
    else if scope.isDeeplyIndented next || (scope.line next).columns < 0 then
      paragraphEnd md scope stop fuel (next + 1)
    else if endsAt md "paragraph" { scope with parent := .paragraph } next then next
    else paragraphEnd md scope stop fuel (next + 1)

/-- A paragraph. -/
def paragraph (md : Markdown) (scope : Scope) (first stop : Nat) : Block :=
  let next := paragraphEnd md scope stop (stop - first) (first + 1)
  .paragraph (scope.source first next scope.indent false).trim (first, next) false

/-! ## Embedded blocks -/

/-- The code for the lines of the scope up to `stop`, without the indentation of the scope. -/
def embedLines? (md : Markdown) (scope : Scope) (first stop : Nat) : Option Text :=
  md.transform.embed? (scope.source first stop scope.indent true)

/-- The first line from `next` on with a close tag up to which the lines are embedded markup: the
line behind it and the code, or else the line at which the search ended. -/
def findBlockClose (md : Markdown) (scope : Scope) (name : Text) (first stop : Nat) :
    Nat → Nat → Nat × Option Text
  | 0, next => (next, none)
  | fuel + 1, next =>
    if stop ≤ next || scope.isDedented next then (next, none)
    else if (md.grammar.closeTag .block (scope.content next)).any (·.name == name) then
      match embedLines? md scope first (next + 1) with
      | some code => (next + 1, some code)
      | none => findBlockClose md scope name first stop fuel (next + 1)
    else findBlockClose md scope name first stop fuel (next + 1)

/-- Embedded markup that begins a line: a self-closing tag on one line, an element up to the first
close tag that makes it whole, or else all lines up to the end of the container. -/
def embeddedBlock? (md : Markdown) (scope : Scope) (first stop : Nat) : Option Block := do
  let tag ← openTagAt? md scope first
  let isSelfClosing := (md.grammar.selfClosing .block (scope.content first).trim).isSome
  let (next, found) :=
    if isSelfClosing then (first + 1, none)
    else findBlockClose md scope tag.name first stop (stop - first) (first + 1)
  let code ← found <|> embedLines? md scope first next
  return .embedded code (first, next)

end ComponentMarkdown
