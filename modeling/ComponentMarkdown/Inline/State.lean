import ComponentMarkdown.Inline.Cursor
import ComponentMarkdown.Token

/-!
# The state of inline parsing

A run holds a window of a text, the tokens and the text that have been read so far, and what
skipping has found. The file has:

* the window and what stands at its beginning;
* `add` and `push` for tokens, before which pending text becomes a token of its own;
* `write` for a complete piece and `wrap` for tokens around a part of the window.
-/

namespace ComponentMarkdown

/-- Where parsing of a run of text stands. -/
structure InlineRun where
  source : Text
  pos : Nat := 0
  posMax : Nat
  /-- Text that is not part of a token yet. -/
  pending : Text := []
  level : Nat := 0
  tokens : List Token := []
  memo : Memo := ∅

namespace InlineRun

/-- A step that may match. -/
abbrev Step := InlineRun → Bool × InlineRun

/-- The run before anything was read. -/
def ofSource (source : Text) : InlineRun :=
  { source, posMax := source.length }

/-- The window that is left. -/
def cursor (run : InlineRun) : Cursor :=
  Cursor.inside run.source run.pos run.posMax

/-- The next character of the window. -/
def peek? (run : InlineRun) : Option Char :=
  run.cursor.rest.head?

/-! ## Tokens -/

/-- Makes a token of the pending text, even if there is none. -/
def flush (run : InlineRun) : InlineRun :=
  { run with
    pending := []
    tokens := run.tokens ++
      [{ kind := .text, tag := [], nesting := .selfClosing, level := run.level,
         content := run.pending }] }

/-- Makes a token of the pending text, if there is any. -/
def settle (run : InlineRun) : InlineRun :=
  if run.pending.isEmpty then run else run.flush

/-- Adds a token behind the pending text, on the level that its nesting asks for. -/
def add (run : InlineRun) (token : Token) : InlineRun :=
  let run := run.settle
  let level := if token.nesting = .closing then run.level - 1 else run.level
  { run with
    level := if token.nesting = .opening then level + 1 else level
    tokens := run.tokens ++ [{ token with level }] }

def push (run : InlineRun) (kind : TokenKind) (tag : Text) (nesting : Nesting) : InlineRun :=
  run.add { kind, tag, nesting }

/-! ## Pieces -/

/-- Adds a line end. Two spaces before it make it a hard break; the spaces go. -/
def breakLine (run : InlineRun) : InlineRun :=
  let isHard := Text.startsWith [' ', ' '] run.pending.reverse
  let run := { run with pending := run.pending.dropEndWhile (· == ' ') }
  run.push (if isHard then .hardbreak else .softbreak) ['b', 'r'] .selfClosing

/-- Adds a link that shows its address. -/
def addAutolink (run : InlineRun) (address href : Text) : InlineRun :=
  let mark : Token :=
    { kind := .linkOpen, tag := ['a'], nesting := .opening, markup := "autolink".toList,
      info := "auto".toList }
  let run := run.add { mark with attrs := [("href".toList, .text href)] }
  let run := run.add { kind := .text, tag := [], nesting := .selfClosing, content := address }
  run.add { mark with kind := .linkClose, nesting := .closing }

/-- Adds a complete piece: literal text waits, all else becomes tokens. A piece with a body is not
complete. -/
def write (run : InlineRun) : Inline → InlineRun
  | .literal text => { run with pending := run.pending ++ text }
  | .lineBreak => run.breakLine
  | .hardBreak => run.push .hardbreak ['b', 'r'] .selfClosing
  | .code ticks content =>
    run.add { kind := .codeInline, tag := "code".toList, nesting := .selfClosing, markup := ticks,
              content }
  | .autolink address href => run.addAutolink address href
  | .embedded code =>
    run.add { kind := .embeddedInline, tag := [], nesting := .selfClosing, content := code }
  | .emphasis .. | .link .. | .image .. | .element .. => run

/-- Puts an opening and a closing token around what `parse` makes of the part of the window from
`start` up to `stop`. The window is the old one again at the end. -/
def wrap (parse : InlineRun → InlineRun) (opening closing : Token) (start stop : Nat)
    (run : InlineRun) : InlineRun :=
  let posMax := run.posMax
  let run := run.add opening
  let run := parse { run with pos := start, posMax := stop }
  { run with posMax }.add closing

end InlineRun

end ComponentMarkdown
