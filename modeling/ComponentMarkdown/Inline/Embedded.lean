import ComponentMarkdown.Inline.Cursor
import ComponentMarkdown.Markdown

/-!
# Embedded markup in text

An expression in braces, a self-closing element, or an element around inline content. The close tag
of an element is looked for past whole constructs.
-/

namespace ComponentMarkdown

/-- The beginning and the end of the close tag of that name. It counts only where skipping takes a
single plain character. -/
def closeAhead (grammar : TagGrammar) (skip : Skip) (name : Text) :
    Nat → Cursor → Memoized (Option (Nat × Nat))
  | 0, _ => return none
  | fuel + 1, c => do
    if c.rest.isEmpty then return none
    let skipped ← skip c
    match grammar.closeTag .inline c.rest with
    | some tag =>
      if tag.name = name ∧ skipped.consumed = false then
        return some (c.pos, c.pos + tag.length)
      closeAhead grammar skip name fuel (c.moveTo skipped.stop)
    | none => closeAhead grammar skip name fuel (c.moveTo skipped.stop)

/-- Can embedded markup begin like this? It takes three bytes at least. -/
def mayEmbed : Text → Bool
  | '{' :: c :: behind => !behind.isEmpty || 0x80 ≤ c.toNat
  | '<' :: c :: _ :: _ => c.isAlpha || c == '!' || c == '?' || c == '/'
  | _ => false

/-- An open tag as a self-closing element. -/
def selfClosed (openTag : Text) : Text :=
  (match openTag.reverse with
    | '>' :: rest => rest.reverse
    | _ => openTag) ++ ['/', '>']

/-- Embedded markup. -/
def embedded? (md : Markdown) (skip : Skip) (c : Cursor) : Memoized (Option Construct) := do
  if !mayEmbed c.rest then return none
  match md.grammar.openTag .inline c.rest, md.grammar.selfClosing .inline c.rest with
  | none, _ => return none
  | some _, some length =>
    return (md.transform.embed? (c.rest.take length)).map fun code =>
      .leaf length (.embedded code)
  | some tag, none =>
    let inner := c.advance tag.length
    match ← closeAhead md.grammar skip tag.name (inner.rest.length + 1) inner with
    | none => return none
    | some (bodyEnd, stop) =>
      let body := inner.rest.take (bodyEnd - inner.pos)
      return (md.transform.embed? (selfClosed (c.rest.take tag.length))).map fun code =>
        ⟨stop - c.pos,
          if body.all isBlank then .leaf (.embedded code)
          else .enclosing (.element code) tag.length body.length⟩

end ComponentMarkdown
