import ComponentMarkdown.Compiler
import ComponentMarkdown.Proofs.Block.TokenLines
import ComponentMarkdown.Proofs.Bytes.Blocks
import ComponentMarkdown.Proofs.Bytes.Inline

/-!
# Documents by bytes

Parsing a document, with every slice, every index and every subtraction checked: first its blocks,
then the text of each paragraph and heading. The file has:

* `parseChecked` and `parseInlineChecked`, which stop at the first fault;
* `faultless_parse`: there is none, and the tokens are those of the parse on characters.
-/

namespace ComponentMarkdown

open Checked

namespace Markdown

/-- Gives an inline token its children. -/
def fillChecked (md : Markdown) (token : Token) : Checked Token :=
  if token.kind = .inline then do
    return { token with children := ← InlineByteRun.parse md token.content }
  else return token

/-- The tokens of a document. -/
def parseChecked (md : Markdown) (source : Text) : Checked (List Token) := do
  (← ByteRun.parse md (normalize source)).mapM md.fillChecked

/-- The tokens of a run of text, without blocks. -/
def parseInlineChecked (md : Markdown) (source : Text) : Checked (List Token) :=
  InlineByteRun.parse md (normalize source)

variable {md : Markdown}

theorem fillChecked_eq (isJsx : md.grammar = TagGrammar.jsx) (token : Token) :
    md.fillChecked token = .ok (md.fillInline token) := by
  unfold fillChecked fillInline
  split
  · rw [InlineByteRun.parse_eq isJsx]
    rfl
  · rfl

theorem mapM_fillChecked (isJsx : md.grammar = TagGrammar.jsx) (tokens : List Token) :
    tokens.mapM md.fillChecked = .ok (tokens.map md.fillInline) := by
  induction tokens with
  | nil => rfl
  | cons token tokens ih =>
    rw [List.mapM_cons, fillChecked_eq isJsx, ok_bind, ih]
    rfl

/-- Whatever the rules are, as long as they make paragraphs, no access is wrong. -/
theorem parseChecked_eq (keeps : md.KeepsChains) (isJsx : md.grammar = TagGrammar.jsx)
    (paragraphs : .paragraph ∈ md.blockChain RuleTable.mainChain) (source : Text) :
    md.parseChecked source = .ok (md.parse source) := by
  unfold parseChecked
  rw [ByteRun.parse_eq keeps isJsx paragraphs, ok_bind, mapM_fillChecked isJsx]
  rfl

end Markdown

/-- Parsing never faults: for any text, any greatest depth of nesting and any transformer, each
slice lies in its text and on boundaries of characters, each byte, line and mark that is read
exists, and no number is subtracted from a smaller one. -/
theorem faultless_parse (maxNesting : Nat) (transform : Transformer) (source : Text) :
    let md : Markdown := { maxNesting, transform }
    md.parseChecked source = .ok (md.parse source) ∧
      md.parseInlineChecked source = .ok (md.parseInline source) := by
  intro md
  have keeps : md.KeepsChains := keepsChains_entries md BlockRule.all
  have paragraphs : .paragraph ∈ md.blockChain RuleTable.mainChain :=
    @mem_mainChain md BlockRule.all .paragraph (by decide)
  exact ⟨Markdown.parseChecked_eq keeps rfl paragraphs source, InlineByteRun.parse_eq rfl _⟩

end ComponentMarkdown
