import ComponentMarkdown.Options
import ComponentMarkdown.RuleTable
import ComponentMarkdown.TagGrammar.Jsx
import ComponentMarkdown.Transformer

/-!
# Rules and dialects

A dialect of Markdown is a grammar of tags and a transformer for embedded markup, with the rules of
blocks and of inline text in the order in which they are tried.
-/

namespace ComponentMarkdown

/-- The rules for blocks. -/
inductive BlockRule where
  | code | fence | blockquote | hr | list | embedded | heading | paragraph
deriving DecidableEq, Repr

namespace BlockRule

/-- Every rule for blocks, in the usual order. -/
def all : List BlockRule :=
  [code, fence, blockquote, hr, list, embedded, heading, paragraph]

def name : BlockRule → String
  | code => "code"
  | fence => "fence"
  | blockquote => "blockquote"
  | hr => "hr"
  | list => "list"
  | embedded => "embedded_block"
  | heading => "heading"
  | paragraph => "paragraph"

/-- The chains in which a rule can end a block of another sort. -/
def chains : BlockRule → List String
  | fence | blockquote | hr => ["paragraph", "blockquote", "list"]
  | list | embedded | heading => ["paragraph", "blockquote"]
  | code | paragraph => []

def entry (rule : BlockRule) : RuleEntry BlockRule :=
  ⟨rule.name, rule, rule.chains⟩

end BlockRule

/-- The rules for inline text. -/
inductive InlineRule where
  | text | newline | escape | backticks | emphasis | link | image | autolink | embedded | entity
deriving DecidableEq, Repr

namespace InlineRule

/-- Every rule for inline text, in the usual order. -/
def all : List InlineRule :=
  [text, newline, escape, backticks, emphasis, link, image, autolink, embedded, entity]

def name : InlineRule → String
  | text => "text"
  | newline => "newline"
  | escape => "escape"
  | backticks => "backticks"
  | emphasis => "emphasis"
  | link => "link"
  | image => "image"
  | autolink => "autolink"
  | embedded => "embedded_inline"
  | entity => "entity"

def entry (rule : InlineRule) : RuleEntry InlineRule :=
  ⟨rule.name, rule, []⟩

end InlineRule

/-- A dialect of Markdown. -/
structure Markdown where
  maxNesting : Nat := 100
  grammar : TagGrammar := TagGrammar.jsx
  transform : Transformer
  blockRules : RuleTable BlockRule := ⟨BlockRule.all.map (·.entry)⟩
  inlineRules : RuleTable InlineRule := ⟨InlineRule.all.map (·.entry)⟩

namespace Markdown

/-- The rules for blocks in a chain. -/
def blockChain (md : Markdown) (chain : String) : List BlockRule :=
  md.blockRules.rules chain

/-- The rules for inline text. -/
def inlineChain (md : Markdown) : List InlineRule :=
  md.inlineRules.rules RuleTable.mainChain

end Markdown

end ComponentMarkdown
