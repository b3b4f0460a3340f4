import ComponentMarkdown.Block.Container
import ComponentMarkdown.Block.Paragraph
import ComponentMarkdown.Block.State

/-!
# Block rules in place

A rule runs on the state of a parse. A silent run only answers whether a block begins at a line,
with two exceptions: indented code and paragraphs are made either way. The file has:

* the rules for blocks without blocks in them;
* quotes, whose lines lose their marks while the blocks in them are parsed;
* lists, where the marker of an item counts as indentation while the item is parsed;
* `runRule`, which runs one of the rules.
-/

namespace ComponentMarkdown.BlockRun

/-! ## Blocks without blocks in them -/

def code : Step := fun first stop run =>
  if !run.scope.isDeeplyIndented first then (false, run)
  else
    let last := codeEnd run.scope stop (stop - first) (first + 1) (first + 1)
    let content := run.scope.source first last (4 + run.scope.indent) false
    (true, (run.moveTo last).add
      { kind := .codeBlock, tag := "code".toList, nesting := .selfClosing, content,
        map := some (first, last) })

def fence (silent : Bool) : Step := fun first stop run =>
  if run.scope.isDeeplyIndented first then (false, run)
  else
    match fenceOpening? (run.scope.content first) with
    | none => (false, run)
    | some (mark, length, info) =>
      if silent then (true, run)
      else
        let found := fenceEnd run.scope mark length stop (stop - first) (first + 1)
        let line := if found.2 then found.1 + 1 else found.1
        let indent := (run.scope.line first).columns.toNat
        let content := run.scope.source (first + 1) found.1 indent true
        (true, (run.moveTo line).add
          { kind := .fence, tag := "code".toList, nesting := .selfClosing, info := info.trim,
            content, markup := List.replicate length mark, map := some (first, line) })

def hr (silent : Bool) : Step := fun first _ run =>
  if run.scope.isDeeplyIndented first then (false, run)
  else
    match breakMarks? (run.scope.content first) with
    | none => (false, run)
    | some markup =>
      if silent then (true, run)
      else
        (true, (run.moveTo (first + 1)).add
          { kind := .hr, tag := "hr".toList, nesting := .selfClosing, markup,
            map := some (first, first + 1) })

/-- Adds an inline token between an opening and a closing one. -/
def addText (run : BlockRun) (kinds : TokenKind × TokenKind) (tag markup content : Text)
    (span : LineSpan) : BlockRun :=
  let run := run.add { kind := kinds.1, tag, nesting := .opening, markup, map := some span }
  let run := run.add
    { kind := .inline, tag := [], nesting := .selfClosing, content, map := some span }
  run.add { kind := kinds.2, tag, nesting := .closing, markup }

def heading (silent : Bool) : Step := fun first _ run =>
  if run.scope.isDeeplyIndented first then (false, run)
  else
    match headingDepth? (run.scope.content first) with
    | none => (false, run)
    | some depth =>
      if silent then (true, run)
      else
        let content := headingContent ((run.scope.content first).drop depth)
        (true, (run.moveTo (first + 1)).addText (.headingOpen, .headingClose)
          ('h' :: Text.ofNat depth) (List.replicate depth '#') content (first, first + 1))

def embedded (md : Markdown) (silent : Bool) : Step := fun first stop run =>
  match openTagAt? md run.scope first with
  | none => (false, run)
  | some tag =>
    if silent then (true, run)
    else
      let isSelfClosing := (md.grammar.selfClosing .block (run.scope.content first).trim).isSome
      let found :=
        if isSelfClosing then (first + 1, none)
        else findBlockClose md run.scope tag.name first stop (stop - first) (first + 1)
      match found.2 <|> embedLines? md run.scope first found.1 with
      | none => (false, run)
      | some content =>
        (true, (run.moveTo found.1).add
          { kind := .embeddedBlock, tag := [], nesting := .selfClosing, content,
            map := some (first, found.1) })

/-- The line behind a paragraph that has come as far as `next`. -/
def seekParagraphEnd (ends : Step) (stop : Nat) : Nat → Nat → BlockRun → Nat × BlockRun
  | 0, next, run => (next, run)
  | fuel + 1, next, run =>
    if stop ≤ next || run.scope.isEmpty next then (next, run)
    else if run.scope.isDeeplyIndented next || (run.scope.line next).columns < 0 then
      seekParagraphEnd ends stop fuel (next + 1) run
    else
      let asked := ends next stop run
      if asked.1 then (next, asked.2) else seekParagraphEnd ends stop fuel (next + 1) asked.2

/-- A paragraph goes on until `ends` says that something else begins. -/
def paragraph (ends : Step) : Step := fun first stop run =>
  let parent := run.scope.parent
  let found := seekParagraphEnd ends stop (stop - first) (first + 1) (run.setParent .paragraph)
  let run := found.2
  let content := (run.scope.source first found.1 run.scope.indent false).trim
  let run := (run.moveTo found.1).addText (.paragraphOpen, .paragraphClose) ['p'] [] content
    (first, found.1)
  (true, run.setParent parent)

/-! ## Quotes -/

/-- Takes the marks of a quote away from the lines from `next` on, as far as the quote goes: the
lines as they were, and the run. -/
def enterQuote (ends : Step) (stop : Nat) : Nat → Bool → Nat → BlockRun → List Line × BlockRun
  | 0, _, _, run => ([], run)
  | fuel + 1, lastEmpty, next, run =>
    if stop ≤ next then ([], run)
    else
      let line := run.scope.line next
      match line.content with
      | [] => ([], run)
      | mark :: behind =>
        if mark == '>' && !run.scope.isDedented next then
          let inner := unquote line behind
          let others := enterQuote ends stop fuel inner.isEmpty (next + 1) (run.setLine next inner)
          (line :: others.1, others.2)
        else if lastEmpty then ([], run)
        else
          let indent := run.scope.indent
          let asked := ends next stop (run.setIndent 0)
          let run := asked.2.setIndent indent
          if asked.1 then ([], run)
          else
            let others := enterQuote ends stop fuel false (next + 1)
              (run.setLine next { line with columns := -1 })
            (line :: others.1, others.2)

/-- A quote. The blocks in it are parsed on its lines without their marks. -/
def blockquote (parse : Nat → Nat → BlockRun → BlockRun) (ends : Step) (silent : Bool) : Step :=
  fun first stop run =>
    if run.scope.isDeeplyIndented first then (false, run)
    else if (run.scope.content first).head? != some '>' then (false, run)
    else if silent then (true, run)
    else
      let indent := run.scope.indent
      let parent := run.scope.parent
      let entered := enterQuote ends stop (stop - first) false first (run.setParent .blockquote)
      let run := entered.2.setIndent 0
      let index := run.tokens.length
      let run := run.add
        { kind := .blockquoteOpen, tag := "blockquote".toList, nesting := .opening,
          markup := ['>'] }
      let run := parse first (first + entered.1.length) run
      let run := run.add
        { kind := .blockquoteClose, tag := "blockquote".toList, nesting := .closing,
          markup := ['>'] }
      let run := run.setMap index (first, run.progress.line)
      (true, ((run.setLines first entered.1).setIndent indent).setParent parent)

/-! ## Lists -/

/-- Parses the blocks of an item that begins with a line. An item without content has no blocks if
the line behind it is empty. -/
def itemBody (parse : Nat → Nat → BlockRun → BlockRun) (stop next : Nat) (line : Line)
    (run : BlockRun) : BlockRun :=
  if line.isEmpty && run.scope.isEmpty (next + 1) then run.moveTo (min (next + 2) stop)
  else parse next stop run

/-- Enters the item at line `next`: its marker counts as indentation. -/
def enterItem (next : Nat) (marker : Marker) (run : BlockRun) : BlockRun :=
  let line := run.scope.line next
  let run := run.add
    { kind := .listItemOpen, tag := "li".toList, nesting := .opening, markup := [marker.mark],
      info := marker.number.getD [] }
  ((run.setIndent (itemIndent line marker)).setTight true).setLine next (itemLine line marker)

/-- The item of a list at line `next`: was it tight, did an empty line end it, and the run. -/
def listItem (parse : Nat → Nat → BlockRun → BlockRun) (stop next : Nat) (marker : Marker)
    (run : BlockRun) : Bool × Bool × BlockRun :=
  let index := run.tokens.length
  let tight := run.progress.tight
  let indent := run.scope.indent
  let line := run.scope.line next
  let run := itemBody parse stop next (itemLine line marker) (run.enterItem next marker)
  let wasTight := run.progress.tight
  let gapBehind := 1 < run.progress.line - next && run.scope.isEmpty (run.progress.line - 1)
  let after := max run.progress.line (next + 1)
  let run := ((run.setIndent indent).setLine next line).setTight tight
  let run := run.add
    { kind := .listItemClose, tag := "li".toList, nesting := .closing, markup := [marker.mark] }
  (wasTight, gapBehind, (run.setMap index (next, after)).moveTo after)

/-- The items of a list from `next` on, where `marker` was found: are all of them tight? -/
def listItems (parse : Nat → Nat → BlockRun → BlockRun) (ends : Step) (stop : Nat) :
    Nat → Nat → Marker → Bool → BlockRun → Bool × Nat × BlockRun
  | 0, next, _, _, run => (true, next, run)
  | fuel + 1, next, marker, gapBefore, run =>
    if stop ≤ next then (true, next, run)
    else
      let made := listItem parse stop next marker run
      let tight := made.1 && !gapBefore
      let run := made.2.2
      let after := run.progress.line
      if stop ≤ after || run.scope.isDedented after || run.scope.isDeeplyIndented after then
        (tight, after, run)
      else
        let asked := ends after stop run
        if asked.1 then (tight, after, asked.2)
        else
          match nextMarker? asked.2.scope marker after with
          | none => (tight, after, asked.2)
          | some marker =>
            let others := listItems parse ends stop fuel after marker made.2.1 asked.2
            (tight && others.1, others.2)

/-- Hides the paragraphs of a level among the tokens. -/
def hideParagraphs (level : Nat) : List Token → List Token
  | opening :: text :: closing :: tokens =>
    if opening.level == level && opening.kind == .paragraphOpen then
      { opening with hidden := true } :: text :: { closing with hidden := true } ::
        hideParagraphs level tokens
    else opening :: hideParagraphs level (text :: closing :: tokens)
  | tokens => tokens

/-- Hides the paragraphs that belong to the items of the list whose first token has the index. -/
def hideItemParagraphs (run : BlockRun) (index : Nat) : BlockRun :=
  { run with
    tokens := run.tokens.take (index + 2) ++
      hideParagraphs (run.scope.level + 2) (run.tokens.drop (index + 2)) }

/-- A list. If it is tight, the paragraphs of its items are hidden. -/
def list (parse : Nat → Nat → BlockRun → BlockRun) (ends : Step) (silent : Bool) : Step :=
  fun first stop run =>
    if run.scope.isDeeplyIndented first then (false, run)
    else
      let endsParagraph := silent && run.scope.parent = .paragraph && !run.scope.isDedented first
      match Marker.of? (run.scope.content first) with
      | none => (false, run)
      | some marker =>
        if endsParagraph && !marker.interrupts then (false, run)
        else if silent then (true, run)
        else
          let kinds := listKinds marker.number.isSome
          let tag := (if marker.number.isSome then "ol" else "ul").toList
          let index := run.tokens.length
          let parent := run.scope.parent
          let run := run.add
            { kind := kinds.1, tag, nesting := .opening, markup := [marker.mark],
              attrs := startAttributes marker.value }
          let found := listItems parse ends stop (stop - first + 1) first marker false
            (run.setParent .list)
          let run := found.2.2.add
            { kind := kinds.2, tag, nesting := .closing, markup := [marker.mark] }
          let run := ((run.setMap index (first, found.2.1)).moveTo found.2.1).setParent parent
          (true, if found.1 then run.hideItemParagraphs index else run)

/-! ## Any rule -/

/-- Runs rules one after the other until one matches. -/
def firstMatch (step : BlockRule → Step) : List BlockRule → Step
  | [] => fun _ _ run => (false, run)
  | rule :: rules => fun first stop run =>
    let tried := step rule first stop run
    if tried.1 then tried else firstMatch step rules first stop tried.2

/-- Runs a rule. `parse` parses the blocks of a container. What is under way ends where a rule of
its chain matches silently; `fuel` such questions may arise from each other. -/
def runRule (md : Markdown) (parse : Nat → Nat → BlockRun → BlockRun) :
    Nat → BlockRule → Bool → Step
  | 0, _, _ => fun _ _ run => (false, run)
  | fuel + 1, rule, silent =>
    let ends := fun chain =>
      firstMatch (fun rule => runRule md parse fuel rule true) (md.blockChain chain)
    match rule with
    | .code => code
    | .fence => fence silent
    | .blockquote => blockquote parse (ends "blockquote") silent
    | .hr => hr silent
    | .list => list parse (ends "list") silent
    | .embedded => embedded md silent
    | .heading => heading silent
    | .paragraph => paragraph (ends "paragraph")

end ComponentMarkdown.BlockRun
