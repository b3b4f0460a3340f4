import ComponentMarkdown.Inline.Autolink
import ComponentMarkdown.Inline.CodeSpan
import ComponentMarkdown.Inline.Embedded
import ComponentMarkdown.Inline.Emphasis
import ComponentMarkdown.Inline.Link
import ComponentMarkdown.Inline.Plain
import ComponentMarkdown.Inline.State
import ComponentMarkdown.Inline.Tokens

/-!
# Inline rules in place

A rule runs on the state of a parse. When it matches it moves on, and unless it runs silently it
also adds what it found. Rules that look for the end of a construct move the position while they
look, and put it back. The file has:

* `take` for constructs that are complete;
* one rule each for emphasis, links, images and embedded markup;
* `runRule`, which runs one of the rules.
-/

namespace ComponentMarkdown.InlineRun

/-- Moves behind a complete construct, if one was found. -/
def take (run : InlineRun) (silent : Bool) : Option Construct → Bool × InlineRun
  | some ⟨length, .leaf piece⟩ =>
    (true, { (if silent then run else run.write piece) with pos := run.pos + length })
  | _ => (false, run)

/-! ## Emphasis -/

/-- The position of the run of markers that closes emphasis whose body begins at `bodyStart`. -/
def seekCloser (skip : Step) (marker : Char) (count bodyStart : Nat) :
    Nat → InlineRun → Option Nat × InlineRun
  | 0, run => (none, run)
  | fuel + 1, run =>
    if run.posMax ≤ run.pos then (none, run)
    else
      let length := Text.runLength marker run.cursor.rest
      if run.pos > bodyStart && 0 < length && count ≤ length &&
          closesEmphasis run.cursor length marker then (some run.pos, run)
      else seekCloser skip marker count bodyStart fuel (skip run).2

/-- Emphasis of `count` markers. -/
def wrapEmphasis (parse : InlineRun → InlineRun) (marker : Char) (count start stop : Nat)
    (run : InlineRun) : InlineRun :=
  let markup := List.replicate count marker
  let tag := (if count == 2 then "strong" else "em").toList
  run.wrap parse
    { kind := if count == 2 then .strongOpen else .emOpen, tag, nesting := .opening, markup }
    { kind := if count == 2 then .strongClose else .emClose, tag, nesting := .closing, markup }
    start stop

def emphasis (skip : Step) (parse : InlineRun → InlineRun) (silent : Bool) : Step := fun run =>
  match run.cursor.rest with
  | [] => (false, run)
  | marker :: rest =>
    let length := Text.runLength marker (marker :: rest)
    if !(marker == '*' || marker == '_') || !canOpen run.cursor length marker then (false, run)
    else
      let start := run.pos
      let count := min length 2
      let found := seekCloser skip marker count (start + count) (run.posMax - (start + count) + 1)
        { run with pos := start + count }
      let run := { found.2 with pos := start }
      match found.1 with
      | none => (false, run)
      | some closer =>
        let run :=
          if silent then run else wrapEmphasis parse marker count (start + count) closer run
        (true, { run with pos := closer + count })

/-! ## Links and images -/

/-- The position of the bracket that closes a label of which `depth` brackets are open. -/
def seekLabelEnd (skip : Step) : Nat → Nat → InlineRun → Option Nat × InlineRun
  | 0, _, run => (none, run)
  | fuel + 1, depth, run =>
    match run.cursor.rest with
    | [] => (none, run)
    | mark :: _ =>
      let depth := if mark == ']' then depth - 1 else depth
      if depth == 0 then (some run.pos, run)
      else
        let start := run.pos
        let skipped := skip run
        let opened := mark == '[' && !skipped.1 && skipped.2.pos == start + 1
        seekLabelEnd skip fuel (if opened then depth + 1 else depth) skipped.2

/-- A link around a label. -/
def wrapLink (parse : InlineRun → InlineRun) (target : Target) (start stop : Nat)
    (run : InlineRun) : InlineRun :=
  run.wrap parse
    { kind := .linkOpen, tag := ['a'], nesting := .opening,
      attrs := target.attrs "href" ++ target.titleAttributes }
    { kind := .linkClose, tag := ['a'], nesting := .closing }
    start stop

/-- An image, the label of which is a text of its own. -/
def addImage (parseLabel : Text → List Token) (target : Target) (label : Text) (run : InlineRun) :
    InlineRun :=
  run.add
    { kind := .image, tag := "img".toList, nesting := .selfClosing,
      attrs := target.attrs "src" ++ ("alt".toList, .text []) :: target.titleAttributes,
      children := parseLabel label, content := label }

/-- A label whose opening bracket is the last of the first `opening` characters, and its target.
`write` gets the target and the place of the label. -/
def labelled (skip : Step) (opening : Nat) (write : Target → Nat → Nat → InlineRun → InlineRun)
    (silent : Bool) : Step := fun run =>
  let start := run.pos
  let rest := run.cursor.rest
  let found := seekLabelEnd skip (run.posMax - (start + opening) + 1) 1
    { run with pos := start + opening }
  let run := { found.2 with pos := start }
  match found.1 with
  | none => (false, run)
  | some labelEnd =>
    match Target.read? (rest.drop (labelEnd + 1 - start)) with
    | none => (false, run)
    | some (target, behind) =>
      let run := if silent then run else write target (start + opening) labelEnd run
      (true, { run with pos := start + (rest.length - behind.length) })

def link (skip : Step) (parse : InlineRun → InlineRun) (silent : Bool) : Step := fun run =>
  match run.cursor.rest with
  | '[' :: _ => labelled skip 1 (wrapLink parse) silent run
  | _ => (false, run)

def image (skip : Step) (parseLabel : Text → List Token) (silent : Bool) : Step := fun run =>
  match run.cursor.rest with
  | '!' :: '[' :: _ =>
    labelled skip 2 (fun target start stop run =>
      addImage parseLabel target ((run.source.take stop).drop start) run) silent run
  | _ => (false, run)

/-! ## Embedded markup -/

/-- The beginning and the end of the close tag of that name. -/
def seekCloseTag (grammar : TagGrammar) (skip : Step) (name : Text) :
    Nat → InlineRun → Option (Nat × Nat) × InlineRun
  | 0, run => (none, run)
  | fuel + 1, run =>
    if run.posMax ≤ run.pos then (none, run)
    else
      let start := run.pos
      let tag := grammar.closeTag .inline run.cursor.rest
      let skipped := skip run
      match tag with
      | some tag =>
        if tag.name = name ∧ skipped.1 = false then (some (start, start + tag.length), skipped.2)
        else seekCloseTag grammar skip name fuel skipped.2
      | none => seekCloseTag grammar skip name fuel skipped.2

/-- An element: a single token without a body, or else two around it, which share the code. -/
def writeElement (parse : InlineRun → InlineRun) (code : Text) (start stop : Nat)
    (run : InlineRun) : InlineRun :=
  if ((run.source.take stop).drop start).all isBlank then run.write (.embedded code)
  else
    run.wrap parse
      { kind := .embeddedInline, tag := [], nesting := .opening, content := code.dropLast }
      { kind := .embeddedInline, tag := [], nesting := .closing, content := code.getLast?.toList }
      start stop

def embedded (md : Markdown) (skip : Step) (parse : InlineRun → InlineRun) (silent : Bool) :
    Step := fun run =>
  let rest := run.cursor.rest
  if !mayEmbed rest then (false, run)
  else
    match md.grammar.openTag .inline rest, md.grammar.selfClosing .inline rest with
    | none, _ => (false, run)
    | some _, some length =>
      match md.transform.embed? (rest.take length) with
      | none => (false, run)
      | some code =>
        let start := run.pos
        let run := if silent then run else run.write (.embedded code)
        (true, { run with pos := start + length })
    | some tag, none =>
      let start := run.pos
      let inner := start + tag.length
      let found := seekCloseTag md.grammar skip tag.name (run.posMax - inner + 1)
        { run with pos := inner }
      let run := { found.2 with pos := start }
      match found.1 with
      | none => (false, run)
      | some (bodyEnd, stop) =>
        match md.transform.embed? (selfClosed (rest.take tag.length)) with
        | none => (false, run)
        | some code =>
          let run := if silent then run else writeElement parse code inner bodyEnd run
          (true, { run with pos := stop })

/-! ## Any rule -/

/-- Runs a rule. `skip` moves over constructs, `parse` parses a body and `parseLabel` the label of
an image. -/
def runRule (md : Markdown) (skip : Step) (parse : InlineRun → InlineRun)
    (parseLabel : Text → List Token) (rule : InlineRule) (silent : Bool) : Step := fun run =>
  match rule with
  | .text => run.take silent (plainRun? run.cursor.rest)
  | .newline => run.take silent (newline? run.cursor.rest)
  | .escape => run.take silent (escape? run.cursor.rest)
  | .backticks => run.take silent (codeSpan? run.cursor.rest)
  | .emphasis => emphasis skip parse silent run
  | .link => link skip parse silent run
  | .image => image skip parseLabel silent run
  | .autolink => run.take silent (autolink? run.cursor.rest)
  | .embedded => embedded md skip parse silent run
  | .entity => run.take silent (entity? run.cursor.rest)

end ComponentMarkdown.InlineRun
