import ComponentMarkdown.Compiler
import ComponentMarkdown.Proofs.Block.Documents
import ComponentMarkdown.Proofs.Text.LineEnding

/-!
# Markup at the beginning of a line

A line that begins with `<` is embedded markup, as far as the transformer accepts it, or else a
paragraph. The lines of an element are found by its close tag, which is looked for on the lines
behind the first one only. The file has:

* `Scope.IsOrdinary`: nothing begins at a line but embedded markup or a paragraph;
* `markupBlock`, the block that such a line begins, and `findSome?_markup`: no other rule takes it;
* the end of the search for a close tag;
* `head?_parse_element`: an element on one line is a block of its own only where nothing follows it.
-/

namespace ComponentMarkdown

variable {md : Markdown} {scope : Scope} {first stop : Nat}

/-! ## Which rule takes the line -/

/-- The block that a line with markup begins. -/
def markupBlock (md : Markdown) (scope : Scope) (first stop : Nat) : Block :=
  (embeddedBlock? md scope first stop).getD (paragraph md scope first stop)

/-- No block begins at the line but embedded markup or a paragraph. -/
structure Scope.IsOrdinary (scope : Scope) (number : Nat) : Prop where
  filled : scope.isEmpty number = false
  shallow : scope.isDeeplyIndented number = false
  fence : fenceOpening? (scope.content number) = none
  quote : (scope.content number).head? ≠ some '>'
  hr : breakMarks? (scope.content number) = none
  list : Marker.of? (scope.content number) = none
  heading : headingDepth? (scope.content number) = none

/-- Of the usual rules only those of embedded markup and of paragraphs take an ordinary line. -/
theorem findSome?_ordinary (tree : ParseBlocks) (progress : Progress)
    (ordinary : scope.IsOrdinary first) :
    (BlockRule.all.findSome? fun rule => runRule md tree rule scope progress first stop) =
      some ((markupBlock md scope first stop).made progress) := by
  have code : runRule md tree .code scope progress first stop = none := by
    rw [runRule, indentedCode?, ordinary.shallow]
    rfl
  have fence : runRule md tree .fence scope progress first stop = none := by
    rw [runRule, fence?, ordinary.shallow, ordinary.fence]
    rfl
  have blockquote : runRule md tree .blockquote scope progress first stop = none := by
    rw [runRule, blockquote?, opensBlockquote, ordinary.shallow, beq_false_of_ne ordinary.quote]
    rfl
  have hr : runRule md tree .hr scope progress first stop = none := by
    rw [runRule, hr?, ordinary.shallow, ordinary.hr]
    rfl
  have list : runRule md tree .list scope progress first stop = none := by
    rw [runRule, list?, ordinary.shallow, ordinary.list]
    rfl
  have heading : runRule md tree .heading scope progress first stop = none := by
    rw [runRule, heading?, ordinary.shallow, ordinary.heading]
    rfl
  rw [BlockRule.all, List.findSome?_cons, code, List.findSome?_cons, fence, List.findSome?_cons,
    blockquote, List.findSome?_cons, hr, List.findSome?_cons, list, List.findSome?_cons, runRule,
    markupBlock]
  cases embeddedBlock? md scope first stop with
  | some block => rfl
  | none => rw [Option.map_none, List.findSome?_cons, heading]; rfl

theorem isOrdinary_of_markup (shallow : scope.isDeeplyIndented first = false)
    (begins : (scope.content first).head? = some '<') : scope.IsOrdinary first := by
  obtain ⟨behind, content⟩ := List.head?_eq_some_iff.mp begins
  refine ⟨congrArg List.isEmpty content, shallow, ?_, ?_, ?_, ?_, ?_⟩ <;> rw [content]
  · rfl
  · simp
  · rfl
  · rfl
  · rfl

/-- Of the usual rules only those of embedded markup and of paragraphs take a line that begins
with `<`. -/
theorem findSome?_markup (tree : ParseBlocks) (progress : Progress)
    (shallow : scope.isDeeplyIndented first = false)
    (begins : (scope.content first).head? = some '<') :
    (BlockRule.all.findSome? fun rule => runRule md tree rule scope progress first stop) =
      some ((markupBlock md scope first stop).made progress) :=
  findSome?_ordinary tree progress (isOrdinary_of_markup shallow begins)

/-! ## The end of the search -/

/-- Behind the last line there is nothing to be searched. -/
theorem findBlockClose_of_le {name : Text} (fuel : Nat) {next : Nat} (atEnd : stop ≤ next) :
    findBlockClose md scope name first stop fuel next = (next, none) := by
  cases fuel with
  | zero => rfl
  | succ fuel => rw [findBlockClose, decide_eq_true atEnd, Bool.true_or, if_pos rfl]

/-- The search goes on behind a line of the container. -/
theorem lt_findBlockClose {name : Text} {fuel next : Nat} (enough : 0 < fuel)
    (inWindow : next < stop) (inside : scope.isDedented next = false) :
    next < (findBlockClose md scope name first stop fuel next).1 := by
  obtain ⟨fuel, rfl⟩ := Nat.exists_eq_add_one_of_ne_zero (Nat.ne_of_gt enough)
  have behind := (findBlockClose_bounds md scope name first fuel
    (show next + 1 ≤ stop from inWindow)).1
  rw [findBlockClose, inside, Bool.or_false, if_neg (by simpa using inWindow)]
  split
  · split
    · exact Nat.lt_succ_self next
    · exact behind
  · exact behind

/-- The block of markup takes lines from the first one on. -/
theorem takes_markupBlock (progress : Progress) (inWindow : first < stop)
    (inText : stop ≤ scope.lines.size) :
    Takes scope first ((markupBlock md scope first stop).made progress) := by
  unfold markupBlock
  cases found : embeddedBlock? md scope first stop with
  | none =>
    have made : runRule md (parseBlocks md 0) .paragraph scope progress first stop =
        some ((paragraph md scope first stop).made progress) := rfl
    exact takes_plain ⟨by decide, by decide⟩ inWindow inText made
  | some block =>
    have made : runRule md (parseBlocks md 0) .embedded scope progress first stop =
        some (block.made progress) := by
      rw [runRule, found]
      rfl
    exact takes_plain ⟨by decide, by decide⟩ inWindow inText made

/-- The line behind markup that begins with a tag of this name, and the code for it if a close tag
ends it. -/
def markupEnd (md : Markdown) (scope : Scope) (name : Text) (first stop : Nat) :
    Nat × Option Text :=
  if (md.grammar.selfClosing .block (scope.content first).trim).isSome then (first + 1, none)
  else findBlockClose md scope name first stop (stop - first) (first + 1)

theorem embeddedBlock?_eq {tag : FoundTag} (opens : openTagAt? md scope first = some tag) :
    let found := markupEnd md scope tag.name first stop
    embeddedBlock? md scope first stop =
      (found.2 <|> embedLines? md scope first found.1).map (.embedded · (first, found.1)) := by
  intro found
  unfold embeddedBlock?
  rw [opens]
  show (found.2 <|> embedLines? md scope first found.1).bind _ = _
  cases found.2 <|> embedLines? md scope first found.1 <;> rfl

theorem markupEnd_bounds {name : Text} (inWindow : first < stop) :
    first < (markupEnd md scope name first stop).1 ∧
      (markupEnd md scope name first stop).1 ≤ stop := by
  unfold markupEnd
  split
  · exact ⟨Nat.lt_succ_self first, inWindow⟩
  · exact findBlockClose_bounds md scope name first (stop - first) inWindow

theorem markupBlock_eq_embedded {code : Text} {span : LineSpan} :
    markupBlock md scope first stop = .embedded code span ↔
      embeddedBlock? md scope first stop = some (.embedded code span) := by
  unfold markupBlock
  cases embeddedBlock? md scope first stop with
  | some block => exact (Option.some_inj (a := block)).symm
  | none => exact ⟨nofun, nofun⟩

/-! ## The first block -/

/-- Parsing begins with the block that the rules make at the first line. -/
theorem exists_parseBlocks (chain : md.blockChain RuleTable.mainChain = BlockRule.all)
    (depth : Nat) (room : scope.level < md.maxNesting) (inWindow : first < stop)
    (notEmpty : scope.isEmpty first = false) (inside : scope.isDedented first = false)
    {tight : Bool} {block : Block} {behind : Progress}
    (made : (BlockRule.all.findSome? fun rule =>
      runRule md (parseBlocks md depth) rule scope ⟨first, tight⟩ first stop) =
        some (block, behind))
    (moved : first < behind.line) :
    ∃ others, (parseBlocks md (depth + 1) scope ⟨first, tight⟩ first stop).1 =
      block :: others := by
  have here := scope.skipEmpty_eq notEmpty
  have loop := @blocksFrom_made md scope stop
    (fun progress first => BlockRule.all.findSome? fun rule =>
      runRule md (parseBlocks md depth) rule scope progress first stop) first room
    (here.symm ▸ inWindow) (here.symm ▸ inside) ⟨first, tight⟩ block behind (here.symm ▸ made)
    (here.symm ▸ moved) (stop - first) false
  rw [parseBlocks]
  dsimp only
  rw [chain, loop]
  exact ⟨_, rfl⟩

/-- The first line of a text, which begins with `<`. -/
theorem line_zero_ofSource {source line : Text} {lines : List Text}
    (split : source.splitLines = line :: lines) (begins : line.head? = some '<') :
    (Scope.ofSource source).line 0 = ⟨0, [], line, 0, !lines.isEmpty⟩ := by
  obtain ⟨behind, rfl⟩ := List.head?_eq_some_iff.mp begins
  have first := linesFrom_filled_cons 0 (List.cons_ne_nil '<' behind) lines
  rw [Scope.line, getElem?_ofSource, linesOf, split, first]
  rfl

/-- A text that begins with `<` begins with a block of markup. -/
theorem exists_parse (chain : md.blockChain RuleTable.mainChain = BlockRule.all)
    (room : 1 ≤ md.maxNesting) {source line : Text} {lines : List Text}
    (split : source.splitLines = line :: lines) (begins : line.head? = some '<') :
    ∃ others, Block.parse md source =
      markupBlock md (Scope.ofSource source) 0 (Scope.ofSource source).lines.size :: others := by
  have here := line_zero_ofSource split begins
  have content : (Scope.ofSource source).content 0 = line := congrArg Line.content here
  have shallow : (Scope.ofSource source).isDeeplyIndented 0 = false := by
    rw [Scope.isDeeplyIndented, here]
    rfl
  have notEmpty : (Scope.ofSource source).isEmpty 0 = false := by
    obtain ⟨behind, rfl⟩ := List.head?_eq_some_iff.mp begins
    exact congrArg List.isEmpty content
  have hasLines : 0 < (Scope.ofSource source).lines.size := by
    rcases Nat.eq_zero_or_pos (Scope.ofSource source).lines.size with none | some
    · rw [Scope.isEmpty_of_le (Nat.le_of_eq none)] at notEmpty
      cases notEmpty
    · exact some
  have made := @findSome?_markup md _ 0 (Scope.ofSource source).lines.size
    (parseBlocks md md.maxNesting) {} shallow (content ▸ begins)
  have takes := @takes_markupBlock md (Scope.ofSource source) 0 _ {} hasLines (Nat.le_refl _)
  exact exists_parseBlocks chain md.maxNesting
    (show (Scope.ofSource source).level < md.maxNesting from room) hasLines notEmpty
    (isDedented_ofSource source 0) made takes.behind

/-! ## Elements on one line -/

theorem length_linesFrom_eq_zero {start : Nat} {texts : List Text} :
    (linesFrom start texts).length = 0 ↔ texts = [] ∨ texts = [[]] := by
  match texts with
  | [] | [[]] => simp [linesFrom]
  | [c :: text] => simp [linesFrom]
  | text :: other :: texts => simp [linesFrom]

/-- An element whose open tag stands on the first line takes this line alone if there is no other
one, and if the transformer accepts the text. -/
theorem embeddedBlock?_one {source line : Text} {lines : List Text}
    (split : source.splitLines = line :: lines) (begins : line.head? = some '<') {tag : FoundTag}
    (opens : md.grammar.openTag .block line.trim = some tag)
    (notSelfClosing : md.grammar.selfClosing .block line.trim = none) {code : Text} :
    embeddedBlock? md (Scope.ofSource source) 0 (Scope.ofSource source).lines.size =
        some (.embedded code (0, 1)) ↔
      (lines = [] ∨ lines = [[]]) ∧ md.transform.embed? source = some code := by
  let scope := Scope.ofSource source
  show embeddedBlock? md scope 0 scope.lines.size = _ ↔ _
  have here : scope.line 0 = ⟨0, [], line, 0, !lines.isEmpty⟩ := line_zero_ofSource split begins
  have content : scope.content 0 = line := congrArg Line.content here
  have size : scope.lines.size = (linesFrom (line.length + 1) lines).length + 1 := by
    have filled : line ≠ [] := by
      rintro rfl
      cases begins
    have first := linesFrom_filled_cons 0 filled lines
    rw [Nat.zero_add] at first
    show (linesOf source).length = _
    rw [linesOf, split, first, List.length_cons]
  have isTag : openTagAt? md scope 0 = some tag := by
    rw [openTagAt?, content, begins]
    exact opens
  rw [embeddedBlock?_eq isTag, markupEnd, content, notSelfClosing, if_neg (by decide)]
  rcases Nat.eq_zero_or_pos (linesFrom (line.length + 1) lines).length with noMore | more
  · -- The search ends at once, and the line is the whole text.
    have single := length_linesFrom_eq_zero.mp noMore
    rw [noMore] at size
    have isSource : scope.source 0 1 0 true = source := by
      have joined := Text.join_splitLines source
      rw [split] at joined
      have listed : (List.range' 0 (1 - 0)).map scope.line = [scope.line 0] := rfl
      rw [Scope.source, listed, sourceOf, strip_zero, here, ← joined]
      rcases single with rfl | rfl
      · exact List.append_nil line
      · exact (List.append_nil _).symm
    have embeds : embedLines? md scope 0 1 = md.transform.embed? source :=
      congrArg md.transform.embed? isSource
    rw [size, and_iff_right single, ← embeds]
    have found : findBlockClose md scope tag.name 0 1 (1 - 0) 1 = (1, none) :=
      findBlockClose_of_le _ (Nat.le_refl 1)
    rw [Nat.zero_add, found]
    simp
  · -- The second line is searched as well, so that the block takes it.
    have searched : 1 < (findBlockClose md scope tag.name 0 scope.lines.size
        (scope.lines.size - 0) (0 + 1)).1 :=
      lt_findBlockClose (by omega) (by omega) (isDedented_ofSource source 1)
    rw [← @length_linesFrom_eq_zero (line.length + 1)]
    refine ⟨fun found => ?_, fun single => absurd single.1 (Nat.ne_of_gt more)⟩
    obtain ⟨code', -, made⟩ := Option.map_eq_some_iff.mp found
    exact absurd (congrArg (·.span.2) made) (Nat.ne_of_gt searched)

/-! ## Tokens -/

/-- The token of embedded markup on lines of its own. -/
def embeddedToken (level : Nat) (code : Text) (span : LineSpan) : Token :=
  { blockToken .embeddedBlock [] level span with content := code }

/-- Only a block of embedded markup begins with its token. -/
theorem head?_tokens_eq_embedded {level : Nat} {block : Block} {more : List Token} {code : Text}
    {span : LineSpan} :
    (block.tokens level ++ more).head? = some (embeddedToken level code span) ↔
      block = .embedded code span := by
  cases block with
  | embedded call other => simp [Block.tokens, embeddedToken, blockToken, and_comm]
  | list number marker items other =>
    have apart : (listKinds number.isSome).1 ≠ .embeddedBlock := by
      cases number.isSome <;> decide
    simp [Block.tokens, embeddedToken, blockToken, encloseBlock, adjustFirst, apart]
  | _ => simp [Block.tokens, embeddedToken, blockToken, encloseBlock]

/-- Only the tokens of text change when their children are filled in. -/
theorem fillInline_eq_iff (md : Markdown) {token other : Token} (notText : other.kind ≠ .inline) :
    md.fillInline token = other ↔ token = other := by
  have kind : (md.fillInline token).kind = token.kind := by
    unfold Markdown.fillInline
    split <;> rfl
  by_cases isText : token.kind = .inline
  · exact ⟨fun same => absurd (same ▸ kind.trans isText) notText,
      fun same => absurd (same ▸ isText) notText⟩
  · rw [Markdown.fillInline, if_neg isText]

/-! ## Documents -/

/-- The first token of a document is that of embedded markup on its first line. -/
theorem head?_parse_eq_embedded {md : Markdown}
    (chain : md.blockChain RuleTable.mainChain = BlockRule.all) (keeps : md.KeepsChains)
    (room : 1 ≤ md.maxNesting) {source line : Text} {lines : List Text}
    (split : (normalize source).splitLines = line :: lines) (begins : line.head? = some '<')
    {code : Text} {span : LineSpan} :
    (md.parse source).head? = some (embeddedToken 0 code span) ↔
      markupBlock md (Scope.ofSource (normalize source)) 0
        (Scope.ofSource (normalize source)).lines.size = .embedded code span := by
  obtain ⟨others, parsed⟩ := exists_parse chain room split begins
  rw [Markdown.parse, BlockRun.parse_eq keeps, parsed, Block.allTokens, List.head?_map,
    ← @head?_tokens_eq_embedded 0 _ (Block.allTokens 0 others)]
  cases (Block.tokens 0 _ ++ Block.allTokens 0 others).head? with
  | none => simp
  | some token =>
    rw [Option.map_some, Option.some_inj, Option.some_inj]
    exact fillInline_eq_iff md (show TokenKind.embeddedBlock ≠ .inline by decide)

/-- An element with its open tag on the first line, for any grammar of tags and any transformer. As
the whole document it is a block of its own if it is accepted; in front of other lines it never is.
A line feed that ends the document begins no other line. -/
theorem head?_parse_element (md : Markdown) (room : 1 ≤ md.maxNesting) {line : Text}
    (oneLine : '\n' ∉ line ∧ '\r' ∉ line) (begins : line.head? = some '<') {tag : FoundTag}
    (opens : md.grammar.openTag .block (normalize line).trim = some tag)
    (notSelfClosing : md.grammar.selfClosing .block (normalize line).trim = none) :
    let usual : Markdown := { md with blockRules := ⟨BlockRule.all.map BlockRule.entry⟩ }
    (∀ code, (usual.parse line).head? = some (embeddedToken 0 code (0, 1)) ↔
        md.transform.embed? (normalize line) = some code) ∧
      ∀ more code,
        (usual.parse (line ++ '\n' :: more)).head? = some (embeddedToken 0 code (0, 1)) ↔
          more = [] ∧ md.transform.embed? (normalize line ++ ['\n']) = some code := by
  intro usual
  have chain : usual.blockChain RuleTable.mainChain = BlockRule.all := rfl
  have keeps : usual.KeepsChains := keepsChains_entries md _
  have apart := not_mem_normalize oneLine.2 oneLine.1
  have marked := head?_normalize begins
  have takes := fun source lines split =>
    @embeddedBlock?_one usual source (normalize line) lines split marked tag opens notSelfClosing
  constructor
  · intro code
    have split := Text.splitLines_singleton apart
    rw [head?_parse_eq_embedded chain keeps room split marked, markupBlock_eq_embedded,
      takes _ _ split]
    exact and_iff_right (.inl rfl)
  · intro more code
    have whole : normalize (line ++ '\n' :: more) = normalize line ++ '\n' :: normalize more :=
      normalize_append oneLine.2 _
    have split := Text.splitLines_append apart (normalize more)
    rw [← whole] at split
    have ends : (normalize more).splitLines = [[]] ↔ more = [] := by
      rw [← normalize_eq_nil]
      constructor
      · intro single
        rw [← Text.join_splitLines (normalize more), single]
        rfl
      · intro nothing
        rw [nothing]
        rfl
    rw [head?_parse_eq_embedded chain keeps room split marked, markupBlock_eq_embedded,
      takes _ _ split, ends,
      or_iff_right (Text.splitLines_ne_nil _), whole]
    refine and_congr_right fun nothing => ?_
    rw [nothing]
    exact Iff.rfl

/-- An element alone, and with the line feed that ends its line. -/
theorem head?_parse_element_alone :
    let usual : Markdown :=
      { transform := .createElement, blockRules := ⟨BlockRule.all.map BlockRule.entry⟩ }
    let line := "<A>x</A>".toList
    let code := "createElement(\n  A,\n  null,\n  \"x\"\n)".toList
    (1 ≤ usual.maxNesting ∧ ('\n' ∉ line ∧ '\r' ∉ line) ∧ line.head? = some '<' ∧
      usual.grammar.openTag .block (normalize line).trim = some ⟨['A'], 3⟩ ∧
      usual.grammar.selfClosing .block (normalize line).trim = none) ∧
      (usual.parse line).head? = some (embeddedToken 0 code (0, 1)) ∧
      (usual.parse (line ++ ['\n'])).head? = some (embeddedToken 0 code (0, 1)) := by
  intro usual line code
  have given : 1 ≤ usual.maxNesting ∧ ('\n' ∉ line ∧ '\r' ∉ line) ∧ line.head? = some '<' ∧
      usual.grammar.openTag .block (normalize line).trim = some ⟨['A'], 3⟩ ∧
      usual.grammar.selfClosing .block (normalize line).trim = none := by decide +kernel
  obtain ⟨room, oneLine, begins, opens, notSelfClosing⟩ := given
  have ⟨alone, behind⟩ := head?_parse_element usual room oneLine begins opens notSelfClosing
  exact ⟨⟨room, oneLine, begins, opens, notSelfClosing⟩, (alone code).mpr (by decide +kernel),
    (behind [] code).mpr ⟨rfl, by decide +kernel⟩⟩

/-- An element that is accepted on its own, but is a paragraph in front of other lines. -/
theorem parse_element_paragraph :
    let md : Markdown := { transform := .createElement }
    md.transform.embed? "<A>x</A>".toList =
        some "createElement(\n  A,\n  null,\n  \"x\"\n)".toList ∧
      (md.parse "<A>x</A>\n\ny\n".toList).map (fun token => (token.kind, token.map)) =
        [(.paragraphOpen, some (0, 1)), (.inline, some (0, 1)), (.paragraphClose, none),
          (.paragraphOpen, some (2, 3)), (.inline, some (2, 3)), (.paragraphClose, none)] := by
  decide +kernel

end ComponentMarkdown
