import ComponentMarkdown.Inline.Autolink
import ComponentMarkdown.Inline.CodeSpan
import ComponentMarkdown.Inline.Embedded
import ComponentMarkdown.Inline.Emphasis
import ComponentMarkdown.Inline.Link
import ComponentMarkdown.Inline.Plain

/-!
# Parsing inline content

The rules are tried in order; the first one that matches takes its construct, and a character that
no rule takes is literal. Beyond the greatest depth of nesting all text is literal. The file has:

* `scan`, which runs one rule;
* `skip`, which finds the end of what stands at a cursor;
* `parseWindow`, which parses a window, and `Inline.parse` for a whole text.
-/

namespace ComponentMarkdown

/-- What a rule matches at a cursor. -/
def scan (md : Markdown) (skip : Skip) (rule : InlineRule) (c : Cursor) :
    Memoized (Option Construct) :=
  match rule with
  | .text => return plainRun? c.rest
  | .newline => return newline? c.rest
  | .escape => return escape? c.rest
  | .backticks => return codeSpan? c.rest
  | .emphasis => emphasis? skip c
  | .link => link? skip c
  | .image => image? skip c
  | .autolink => return autolink? c.rest
  | .embedded => embedded? md skip c
  | .entity => return entity? c.rest

/-! ## Skipping -/

/-- The length of the first match among the rules that takes any characters. -/
def firstLength (scanRule : InlineRule → Cursor → Memoized (Option Construct)) (c : Cursor) :
    List InlineRule → Memoized (Option Nat)
  | [] => return none
  | rule :: rules => do
    match ← scanRule rule c with
    | some construct =>
      if 0 < construct.length then return some construct.length
      else firstLength scanRule c rules
    | none => firstLength scanRule c rules

/-- Finds what is skipped at a cursor and remembers it. -/
def remember (find : Skip) : Skip := fun c => do
  let skipped ← find c
  modify fun memo => memo.insert c.pos skipped
  return skipped

/-- Looks up what is skipped at a cursor. An outcome that lies outside the window is found anew. -/
def lookUp (find : Skip) : Skip := fun c => do
  match (← get)[c.pos]? with
  | some known => if known.stop ≤ c.stop then return known else remember find c
  | none => remember find c

/-- Skips what stands at a cursor, with `budget` levels of nesting left: what a rule takes, or one
character. Without a level left the whole window is skipped. -/
def skip (md : Markdown) : Nat → Skip
  | 0 => lookUp fun c => return ⟨c.stop, true⟩
  | budget + 1 => lookUp fun c => do
    match ← firstLength (scan md (skip md budget)) c md.inlineChain with
    | some length => return ⟨c.pos + length, true⟩
    | none => return ⟨c.pos + 1, false⟩

/-! ## Parsing -/

/-- The piece for a construct; its body is parsed by `parseBody`, the label of an image, as a text
of its own, by `parseLabel`. -/
def resolve (parseLabel : Text → List Inline) (parseBody : Cursor → Memoized (List Inline))
    (c : Cursor) (construct : Construct) : Memoized Inline :=
  match construct.form with
  | .leaf piece => return piece
  | .enclosing enclosure skip length =>
    let body := c.window skip length
    match enclosure with
    | .emphasis marker strong => return .emphasis marker strong (← parseBody body)
    | .link target => return .link target (← parseBody body)
    | .image target => return .image target body.rest (parseLabel body.rest)
    | .element code => return .element code (← parseBody body)

/-- The pieces that the rules make at a cursor, and how many characters they take. A match that
takes none leaves the turn to the next rule. -/
def firstPieces (scanRule : InlineRule → Cursor → Memoized (Option Construct))
    (resolve : Cursor → Construct → Memoized Inline) (c : Cursor) :
    List InlineRule → Memoized (List Inline × Nat)
  | [] => return ([], 0)
  | rule :: rules => do
    match ← scanRule rule c with
    | none => firstPieces scanRule resolve c rules
    | some construct =>
      let piece ← resolve c construct
      if 0 < construct.length then return ([piece], construct.length)
      let (pieces, length) ← firstPieces scanRule resolve c rules
      return (piece :: pieces, length)

/-- The pieces from a cursor to the end of its window, which has at most `fuel` characters. -/
def parsePieces (next : Cursor → Memoized (List Inline × Nat)) :
    Nat → Cursor → Memoized (List Inline)
  | 0, _ => return []
  | fuel + 1, c => do
    match c.rest with
    | [] => return []
    | char :: _ =>
      let (pieces, length) ← next c
      if 0 < length then return pieces ++ (← parsePieces next fuel (c.advance length))
      else return pieces ++ .literal [char] :: (← parsePieces next fuel (c.advance 1))

/-- The pieces of a window, with `budget` levels of nesting left. -/
def parseWindow (md : Markdown) (parseLabel : Text → List Inline) :
    Nat → Cursor → Memoized (List Inline)
  | 0, c => return [.literal c.rest]
  | budget + 1, c =>
    let next := fun c =>
      firstPieces (scan md (skip md (budget + 1)))
        (resolve parseLabel (parseWindow md parseLabel budget)) c md.inlineChain
    parsePieces next c.rest.length c

/-- Parses a text in which images are nested less than `depth` deep. -/
def parseNested (md : Markdown) : Nat → Text → List Inline
  | 0, _ => []
  | depth + 1, source =>
    (parseWindow md (parseNested md depth) md.maxNesting (Cursor.start source) |>.run ∅).1

/-- The inline content of a text. -/
def Inline.parse (md : Markdown) (source : Text) : List Inline :=
  parseNested md (source.length + 1) source

end ComponentMarkdown
