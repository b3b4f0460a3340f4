import ComponentMarkdown.Block.Run
import ComponentMarkdown.Inline.Run
import ComponentMarkdown.Main
import ComponentMarkdown.Options.Description
import ComponentMarkdown.Proofs.TagGrammar.Extent
import ComponentMarkdown.Proofs.Inline.Window
import ComponentMarkdown.Proofs.Inline.Progress
import ComponentMarkdown.Proofs.Inline.Depth
import ComponentMarkdown.Proofs.Inline.Rules
import ComponentMarkdown.Proofs.Inline.Nesting
import ComponentMarkdown.Proofs.Block.Frame
import ComponentMarkdown.Proofs.Block.Nesting
import ComponentMarkdown.Proofs.Block.Quote
import ComponentMarkdown.Proofs.Block.Append
import ComponentMarkdown.Proofs.Block.EmbeddedItem
import ComponentMarkdown.Proofs.Block.TokenLines
import ComponentMarkdown.Proofs.Block.Balance
import ComponentMarkdown.Proofs.Render.Column
import ComponentMarkdown.Proofs.Render.Reading
import ComponentMarkdown.Proofs.Render.Forest
import ComponentMarkdown.Proofs.Inline.Pairs
import ComponentMarkdown.Proofs.Inline.Transparency
import ComponentMarkdown.Proofs.Inline.FastPath
import ComponentMarkdown.Proofs.Inline.Label
import ComponentMarkdown.Proofs.Factory.Arguments
import ComponentMarkdown.Proofs.CommandLine.Directory
import ComponentMarkdown.Proofs.Bytes.Contract
import ComponentMarkdown.Proofs.Bytes.Documents
import ComponentMarkdown.Proofs.TagGrammar.Templates
import ComponentMarkdown.Proofs.Block.Lazy
import ComponentMarkdown.Proofs.Block.Paragraphs
import ComponentMarkdown.Proofs.Block.MarkupEnd
import ComponentMarkdown.Proofs.Inline.Words
import ComponentMarkdown.Proofs.Inline.EmptyPair
import ComponentMarkdown.Proofs.Block.Tight
import ComponentMarkdown.Proofs.Text.Escape
import ComponentMarkdown.Proofs.Inline.CodeSpan
import ComponentMarkdown.Proofs.Block.Escape
import ComponentMarkdown.Proofs.Block.Verbatim
import ComponentMarkdown.Proofs.Inline.Destination
import ComponentMarkdown.Proofs.Factory.Properties
import ComponentMarkdown.Proofs.Factory.Children
import ComponentMarkdown.Proofs.CommandLine.Exports
import ComponentMarkdown.Proofs.Bytes.LineTable
