import ComponentMarkdown.Block.Run
import ComponentMarkdown.Component
import ComponentMarkdown.Factory
import ComponentMarkdown.Inline.Run
import ComponentMarkdown.Text.LineEnding

/-!
# From a document to code

The blocks of a document are parsed first, and the text of each paragraph and heading after that.
Rendering then writes the tokens as code.
-/

namespace ComponentMarkdown

namespace Markdown

/-- The tokens of the inline content of a text. -/
def inlineTokens (md : Markdown) (source : Text) : List Token :=
  InlineRun.parse md source

/-- Gives an inline token its children. -/
def fillInline (md : Markdown) (token : Token) : Token :=
  if token.kind = .inline then { token with children := md.inlineTokens token.content }
  else token

/-- The tokens of a document. -/
def parse (md : Markdown) (source : Text) : List Token :=
  (BlockRun.parse md (normalize source)).map md.fillInline

/-- The tokens of a run of text, without blocks. -/
def parseInline (md : Markdown) (source : Text) : List Token :=
  md.inlineTokens (normalize source)

end Markdown

/-- A dialect of Markdown together with the options for rendering it. -/
structure Compiler where
  markdown : Markdown
  options : Options

namespace Compiler

/-- The usual dialect with given options. -/
def standard (options : Options) : Compiler where
  markdown := { maxNesting := options.maxNesting, transform := Transformer.createElement }
  options := options

def parse (compiler : Compiler) (source : Text) : List Token :=
  compiler.markdown.parse source

def render (compiler : Compiler) (tokens : List Token) : Rendered :=
  ComponentMarkdown.render compiler.options tokens

/-- The code for a document. -/
def compile (compiler : Compiler) (source : Text) : Rendered :=
  compiler.render (compiler.parse source)

end Compiler

/-- The code for a document in the usual dialect. -/
def compileDocument (source : Text) (options : Options := {}) : Rendered :=
  (Compiler.standard options).compile source

end ComponentMarkdown
