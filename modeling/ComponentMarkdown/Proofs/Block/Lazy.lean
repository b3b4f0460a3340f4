import ComponentMarkdown.Proofs.Block.Embedded
import ComponentMarkdown.Proofs.Block.Quote

/-!
# Lazy lines

A line without the mark of a quote goes on with the paragraph of the quote if no block begins at
it. Outside of quotes the rule of paragraphs decides this, with other questions. The file has:

* `isOrdinary_of_paragraph`: a paragraph is made where no other rule makes a block;
* the first paragraph of two lines, outside of a quote (`firstParagraph?_two`) and in one
  (`firstParagraph?_quoted`), and the lines that are markup instead (`parse_markup_two`);
* `endsAt_deep` and `endsAt_shallow`, which say what ends at a line;
* `lazy_iff`: when both decisions agree.
-/

namespace ComponentMarkdown

variable {md : Markdown} {scope other : Scope} {first number stop : Nat}

/-! ## Lines that are taken by paragraphs -/

theorem Scope.IsOrdinary.congr (ordinary : scope.IsOrdinary number)
    (content : other.content number = scope.content number)
    (shallow : other.isDeeplyIndented number = scope.isDeeplyIndented number) :
    other.IsOrdinary number := by
  refine ⟨?_, shallow.trans ordinary.shallow, ?_, ?_, ?_, ?_, ?_⟩
  · rw [← ordinary.filled]
    exact congrArg List.isEmpty content
  · exact content ▸ ordinary.fence
  · exact content ▸ ordinary.quote
  · exact content ▸ ordinary.hr
  · exact content ▸ ordinary.list
  · exact content ▸ ordinary.heading

/-- Only the place of a line may differ, and whether it ends. -/
theorem Scope.IsOrdinary.of_unplaced (ordinary : scope.IsOrdinary number)
    (same : (other.line number).unplaced = (scope.line number).unplaced)
    (indent : other.indent = scope.indent) : other.IsOrdinary number := by
  have columns : (other.line number).columns = (scope.line number).columns :=
    (congrArg Line.columns same :)
  refine ordinary.congr (congrArg Line.content same :) ?_
  rw [isDeeplyIndented, columns, indent, isDeeplyIndented]

/-- The rules before that of paragraphs. -/
def BlockRule.special : List BlockRule :=
  [code, fence, blockquote, hr, list, embedded, heading]

section

variable {tree : ParseBlocks} {progress behind : Progress} {text : Text} {span : LineSpan}
  {hidden : Bool}

/-- Only the rule of paragraphs makes paragraphs. -/
theorem runRule_special {rule : BlockRule} (isSpecial : rule ∈ BlockRule.special) :
    runRule md tree rule scope progress first stop ≠
      some (.paragraph text span hidden, behind) := by
  simp only [BlockRule.special, List.mem_cons, List.not_mem_nil, or_false] at isSpecial
  rcases isSpecial with rfl | rfl | rfl | rfl | rfl | rfl | rfl
  all_goals
    simp [runRule, indentedCode?, fence?, blockquote?, hr?, list?, embeddedBlock?, heading?,
      Block.made, Option.bind_eq_some_iff]

/-- Where a paragraph is made, no other rule makes a block. -/
theorem runRule_of_paragraph
    (found : (BlockRule.all.findSome? fun rule =>
      runRule md tree rule scope progress first stop) =
        some (.paragraph text span hidden, behind))
    {rule : BlockRule} (isSpecial : rule ∈ BlockRule.special) :
    runRule md tree rule scope progress first stop = none := by
  rw [show BlockRule.all = BlockRule.special ++ [.paragraph] from rfl,
    List.findSome?_append] at found
  cases special : BlockRule.special.findSome? fun rule =>
      runRule md tree rule scope progress first stop with
  | none => exact List.findSome?_eq_none_iff.mp special rule isSpecial
  | some made =>
    rw [special, Option.some_or] at found
    obtain ⟨other, member, isMade⟩ := List.exists_of_findSome?_eq_some special
    exact absurd (isMade.trans found) (runRule_special member)

/-- A paragraph is made at ordinary lines only, and where no markup is accepted. -/
theorem isOrdinary_of_paragraph (filled : scope.isEmpty first = false)
    (found : (BlockRule.all.findSome? fun rule =>
      runRule md tree rule scope progress first stop) =
        some (.paragraph text span hidden, behind)) :
    scope.IsOrdinary first ∧ embeddedBlock? md scope first stop = none := by
  have code := runRule_of_paragraph found (show .code ∈ BlockRule.special by decide)
  have fence := runRule_of_paragraph found (show .fence ∈ BlockRule.special by decide)
  have quote := runRule_of_paragraph found (show .blockquote ∈ BlockRule.special by decide)
  have hr := runRule_of_paragraph found (show .hr ∈ BlockRule.special by decide)
  have list := runRule_of_paragraph found (show .list ∈ BlockRule.special by decide)
  have embedded := runRule_of_paragraph found (show .embedded ∈ BlockRule.special by decide)
  have heading := runRule_of_paragraph found (show .heading ∈ BlockRule.special by decide)
  cases deep : scope.isDeeplyIndented first with
  | true => simp [runRule, indentedCode?, deep] at code
  | false =>
    simp only [runRule, Option.map_eq_none_iff] at fence hr embedded heading
    refine ⟨⟨filled, deep, ?_, ?_, ?_, ?_, ?_⟩, embedded⟩
    · exact Option.eq_none_iff_forall_ne_some.mpr (by simpa [fence?, deep] using fence)
    · simpa [runRule, blockquote?, opensBlockquote, deep] using quote
    · exact Option.eq_none_iff_forall_ne_some.mpr (by simpa [hr?, deep] using hr)
    · exact Option.eq_none_iff_forall_ne_some.mpr (by simpa [runRule, list?, deep] using list)
    · exact Option.eq_none_iff_forall_ne_some.mpr (by simpa [heading?, deep] using heading)

end

/-! ## The first block -/

/-- Where there is a line with content, parsing begins with the block that the rules make there. -/
theorem exists_first (chain : md.blockChain RuleTable.mainChain = BlockRule.all) (depth : Nat)
    (levels : md.maxNesting ≤ scope.level + (depth + 1)) (room : scope.level < md.maxNesting)
    (hasLines : 0 < stop) (inText : stop ≤ scope.lines.size) (filled : scope.isEmpty 0 = false)
    (inside : scope.isDedented 0 = false) :
    ∃ made others, (BlockRule.all.findSome? fun rule =>
        runRule md (parseBlocks md depth) rule scope {} 0 stop) = some made ∧
      (parseBlocks md (depth + 1) scope {} 0 stop).1 = made.1 :: others := by
  have paragraphs : .paragraph ∈ md.blockChain RuleTable.mainChain := chain ▸ by decide
  have makes := makesBlocks_rules (takesLines_parseBlocks paragraphs depth) paragraphs levels inText
  obtain ⟨⟨block, behind⟩, made, takes⟩ := makes room {} 0 hasLines inside
  rw [chain] at made
  obtain ⟨others, parsed⟩ := exists_parseBlocks chain depth room hasLines filled inside made
    takes.behind
  exact ⟨(block, behind), others, made, parsed⟩

theorem exists_paragraph {level : Nat} {block : Block} {others : List Block}
    (begins : (Block.allTokens level (block :: others)).head?.map (·.kind) = some .paragraphOpen) :
    ∃ text span hidden, block = .paragraph text span hidden := by
  cases block with
  | paragraph text span hidden => exact ⟨text, span, hidden, rfl⟩
  | list number marker items span => cases number <;> cases begins
  | _ => cases begins

/-- A document whose first token begins a paragraph. -/
def BeginsParagraph (md : Markdown) (lines : List Text) : Prop :=
  (BlockRun.parse md (document lines)).head?.map (·.kind) = some .paragraphOpen

instance (md : Markdown) (lines : List Text) : Decidable (BeginsParagraph md lines) :=
  inferInstanceAs (Decidable (_ = _))

/-- The lines of the first paragraph. -/
def firstParagraph? (tokens : List Token) : Option LineSpan :=
  (tokens.find? (·.kind == .paragraphOpen)).bind (·.map)

section

variable (chain : md.blockChain RuleTable.mainChain = BlockRule.all) (keeps : md.KeepsChains)
  {lines : List Text} (oneLine : ∀ line ∈ lines, '\n' ∉ line)
include chain keeps oneLine

/-- The first line of a document that begins with a paragraph is an ordinary one. -/
theorem exists_parse_paragraph (room : 0 < md.maxNesting) (hasLines : 0 < lines.length)
    (filled : (Scope.ofSource (document lines)).isEmpty 0 = false)
    (begins : BeginsParagraph md lines) :
    let scope := Scope.ofSource (document lines)
    scope.IsOrdinary 0 ∧ embeddedBlock? md scope 0 lines.length = none ∧
      ∃ others, Block.parse md (document lines) = paragraph md scope 0 lines.length :: others := by
  intro scope
  have size : scope.lines.size = lines.length := size_ofSource_document oneLine
  obtain ⟨made, others, isMade, parsed⟩ := @exists_first md scope _ chain md.maxNesting
    (show md.maxNesting ≤ 0 + (md.maxNesting + 1) by omega) room (size.symm ▸ hasLines)
    (Nat.le_refl _) filled (isDedented_ofSource _ 0)
  have whole : Block.parse md (document lines) = made.1 :: others := parsed
  rw [BeginsParagraph, BlockRun.parse_eq keeps, whole] at begins
  obtain ⟨text, span, hidden, isParagraph⟩ := exists_paragraph begins
  obtain ⟨block, behind⟩ := made
  cases isParagraph
  obtain ⟨ordinary, notMarkup⟩ := isOrdinary_of_paragraph filled isMade
  rw [findSome?_ordinary _ _ ordinary, markupBlock, notMarkup, Option.getD_none] at isMade
  rw [size] at notMarkup isMade
  cases isMade
  exact ⟨ordinary, notMarkup, others, whole⟩

/-- A document begins with a paragraph if its first line is an ordinary one and no markup is
accepted there. -/
theorem beginsParagraph_iff (room : 0 < md.maxNesting) (hasLines : 0 < lines.length)
    (filled : (Scope.ofSource (document lines)).isEmpty 0 = false) :
    let scope := Scope.ofSource (document lines)
    BeginsParagraph md lines ↔
      scope.IsOrdinary 0 ∧ embeddedBlock? md scope 0 lines.length = none := by
  intro scope
  refine ⟨fun begins => ?_, fun ⟨ordinary, notMarkup⟩ => ?_⟩
  · obtain ⟨ordinary, notMarkup, -⟩ :=
      exists_parse_paragraph chain keeps oneLine room hasLines filled begins
    exact ⟨ordinary, notMarkup⟩
  · have size : scope.lines.size = lines.length := size_ofSource_document oneLine
    obtain ⟨made, others, isMade, parsed⟩ := @exists_first md scope _ chain md.maxNesting
      (show md.maxNesting ≤ 0 + (md.maxNesting + 1) by omega) room (size.symm ▸ hasLines)
      (Nat.le_refl _) filled (isDedented_ofSource _ 0)
    have whole : Block.parse md (document lines) = made.1 :: others := parsed
    rw [findSome?_ordinary _ _ ordinary, size, markupBlock, notMarkup, Option.getD_none] at isMade
    cases isMade
    rw [BeginsParagraph, BlockRun.parse_eq keeps, whole]
    rfl

end

/-! ## Two lines outside of a quote -/

/-- The rules that can end a paragraph, and those that can end a quote. -/
def BlockRule.enders : List BlockRule :=
  [fence, blockquote, hr, list, embedded, heading]

/-- The second of two lines belongs to a paragraph if it is indented like code or nothing begins
there. -/
theorem paragraphEnd_two (filled : scope.isEmpty 1 = false) (notLazy : 0 ≤ (scope.line 1).columns) :
    paragraphEnd md scope 2 2 1 =
      if scope.isDeeplyIndented 1 || !endsAt md "paragraph" { scope with parent := .paragraph } 1
      then 2 else 1 := by
  have goesOn : paragraphEnd md scope 2 1 2 = 2 := rfl
  have columns : decide ((scope.line 1).columns < 0) = false :=
    decide_eq_false (Int.not_lt.mpr notLazy)
  rw [paragraphEnd, filled, columns, Bool.or_false, Bool.or_false, if_neg (by decide), goesOn]
  cases scope.isDeeplyIndented 1 with
  | true => rfl
  | false =>
    rw [if_neg Bool.false_ne_true, Bool.false_or]
    cases endsAt md "paragraph" { scope with parent := .paragraph } 1 <;> rfl

/-! ## Two lines in a quote -/

/-- A line without columns always belongs to the paragraph. -/
theorem paragraph_lazy (md : Markdown) (filled : scope.isEmpty 1 = false)
    (isLazy : (scope.line 1).columns < 0) :
    ∃ text, paragraph md scope 0 2 = .paragraph text (0, 2) false := by
  have ends : paragraphEnd md scope 2 2 1 = 2 := by
    rw [paragraphEnd, filled, decide_eq_true isLazy, Bool.or_true, if_neg (by decide), if_pos rfl]
    rfl
  refine ⟨(scope.source 0 2 scope.indent false).trim, ?_⟩
  rw [paragraph, show paragraphEnd md scope 2 (2 - 0) (0 + 1) = 2 from ends]

/-- A quote sees its first line without the mark; the second one belongs to it, without columns, if
nothing begins there. -/
theorem quoteLines_two {text : Text} (indent : scope.indent = 0)
    (columns : (scope.line 0).columns = 0) (marked : scope.content 0 = quoteLine text)
    (notEmpty : (unquote (scope.line 0) (' ' :: text)).isEmpty = false)
    (filled : scope.isEmpty 1 = false) (unmarked : (scope.content 1).head? ≠ some '>') :
    quoteLines md scope 2 2 false 0 = unquote (scope.line 0) (' ' :: text) ::
      if endsAt md "blockquote" { scope with indent := 0, parent := .blockquote } 1 then []
      else [{ scope.line 1 with columns := -1 }] := by
  have inside : scope.isDedented 0 = false := by
    rw [Scope.isDedented, columns, indent]
    rfl
  have first : (scope.line 0).content = '>' :: ' ' :: text := marked
  rw [quoteLines, if_neg (by decide)]
  dsimp only
  rw [first]
  dsimp only
  rw [inside, if_pos (by decide), notEmpty, quoteLines, if_neg (by decide)]
  dsimp only
  cases second : (scope.line 1).content with
  | nil =>
    rw [Scope.isEmpty, Line.isEmpty, second] at filled
    cases filled
  | cons c behind =>
    have notMark : (c == '>') = false := by
      rw [Scope.content, second] at unmarked
      simpa using unmarked
    dsimp only
    rw [notMark, Bool.false_and, if_neg Bool.false_ne_true, Bool.false_or]
    split <;> rfl

theorem markupEnd_alone (name : Text) (alone : stop ≤ 1 ∨ scope.isDedented 1 = true) :
    markupEnd md scope name 0 stop = (1, none) := by
  unfold markupEnd
  split
  · rfl
  · rcases alone with atEnd | dedented
    · exact findBlockClose_of_le _ atEnd
    · cases stop with
      | zero => rfl
      | succ stop => rw [Nat.sub_zero, findBlockClose, dedented, Bool.or_true, if_pos rfl]

/-- Markup on the first line that finds no other line is what it is alone. -/
theorem embeddedBlock?_alone (same : (other.line 0).unplaced = (scope.line 0).unplaced)
    (indent : other.indent = scope.indent) (alone : stop ≤ 1 ∨ other.isDedented 1 = true) :
    embeddedBlock? md other 0 stop = embeddedBlock? md scope 0 1 := by
  have content : other.content 0 = scope.content 0 := (congrArg Line.content same :)
  have tag : openTagAt? md other 0 = openTagAt? md scope 0 := by
    rw [openTagAt?, openTagAt?, content]
  cases opens : openTagAt? md scope 0 with
  | none => rw [embeddedBlock?, embeddedBlock?, tag, opens]; rfl
  | some tag' =>
    have ends : markupEnd md other tag'.name 0 stop = (1, none) := markupEnd_alone _ alone
    have ends' : markupEnd md scope tag'.name 0 1 = (1, none) :=
      markupEnd_alone _ (.inl (Nat.le_refl 1))
    have embeds : embedLines? md other 0 1 = embedLines? md scope 0 1 := by
      have source := sourceOf_unplaced scope.indent true [other.line 0]
      rw [List.map_singleton, same, ← List.map_singleton, sourceOf_unplaced] at source
      rw [embedLines?, embedLines?, indent]
      exact congrArg md.transform.embed? source.symm
    rw [embeddedBlock?_eq (tag.trans opens), embeddedBlock?_eq opens, ends, ends', embeds]

/-- Markup that is not accepted on the first line alone takes both. -/
theorem embeddedBlock?_two (inside : scope.isDedented 1 = false)
    (notAlone : embeddedBlock? md scope 0 1 = none) {block : Block}
    (found : embeddedBlock? md scope 0 2 = some block) :
    ∃ code, block = .embedded code (0, 2) := by
  cases opens : openTagAt? md scope 0 with
  | none =>
    rw [embeddedBlock?, opens] at found
    cases found
  | some tag =>
    have ends : markupEnd md scope tag.name 0 1 = (1, none) :=
      markupEnd_alone _ (.inl (Nat.le_refl 1))
    rw [embeddedBlock?_eq opens, ends] at notAlone
    rw [embeddedBlock?_eq opens] at found
    obtain ⟨code, isCode, rfl⟩ := Option.map_eq_some_iff.mp found
    refine ⟨code, ?_⟩
    unfold markupEnd at isCode ⊢
    split at isCode
    · rw [Option.map_eq_none_iff.mp notAlone] at isCode
      cases isCode
    · next isOpen =>
      have behind : 1 < (findBlockClose md scope tag.name 0 2 (2 - 0) (0 + 1)).1 :=
        lt_findBlockClose (by decide) (by decide) inside
      have bounds := (findBlockClose_bounds md scope tag.name 0 (2 - 0) (by decide : 0 + 1 ≤ 2)).2
      rw [if_neg isOpen, show (findBlockClose md scope tag.name 0 2 (2 - 0) (0 + 1)).1 = 2 by omega]

/-- The paragraph that a quote begins with, if its first line is an ordinary one. -/
theorem exists_quoted_paragraph (chain : md.blockChain RuleTable.mainChain = BlockRule.all)
    {depth : Nat} (levels : md.maxNesting = depth + 1) (room : other.level < md.maxNesting)
    (same : (other.line 0).unplaced = (scope.line 0).unplaced)
    (indent : other.indent = scope.indent) (inside : scope.isDedented 0 = false)
    (ordinary : scope.IsOrdinary 0)
    (notMarkup : embeddedBlock? md scope 0 1 = none) (hasLines : 0 < stop)
    (alone : stop ≤ 1 ∨ other.isDedented 1 = true) :
    ∃ others, (parseBlocks md md.maxNesting other {} 0 stop).1 =
      paragraph md other 0 stop :: others := by
  have columns : (other.line 0).columns = (scope.line 0).columns := (congrArg Line.columns same :)
  have ordinary' : other.IsOrdinary 0 := ordinary.of_unplaced same indent
  have inside' : other.isDedented 0 = false := by
    rw [Scope.isDedented, columns, indent]
    exact inside
  have made := @findSome?_ordinary md other 0 stop (parseBlocks md depth) {} ordinary'
  rw [markupBlock, embeddedBlock?_alone same indent alone, notMarkup, Option.getD_none] at made
  rw [levels]
  exact exists_parseBlocks chain depth room hasLines ordinary'.filled inside' made
    (paragraphEnd_bounds md other (stop - 0) hasLines).1

/-- The body of a quote begins with a paragraph that takes the lazy line as well, if there is
one. -/
theorem exists_quote_body (chain : md.blockChain RuleTable.mainChain = BlockRule.all) {level : Nat}
    (room : level < md.maxNesting) {lines : Array Line} (twoLines : lines.size = 2)
    {line second : Line} (filled : second.isEmpty = false)
    (same : line.unplaced = (scope.line 0).unplaced) (indent : scope.indent = 0)
    (inside : scope.isDedented 0 = false) (ordinary : scope.IsOrdinary 0)
    (notMarkup : embeddedBlock? md scope 0 1 = none) (isEnd : Bool) :
    let inner := line :: if isEnd then [] else [{ second with columns := -1 }]
    ∃ text others, (parseBlocks md md.maxNesting
        ⟨replaceLines lines 0 inner, 0, .blockquote, level⟩ {} 0 inner.length).1 =
      .paragraph text (0, if isEnd then 1 else 2) false :: others := by
  intro inner
  obtain ⟨depth, levels⟩ := Nat.exists_eq_add_one_of_ne_zero (Nat.ne_zero_of_lt room)
  have fits : 0 + inner.length ≤ lines.size := by cases isEnd <;> simp [inner, twoLines]
  have first : Scope.line ⟨replaceLines lines 0 inner, 0, .blockquote, level⟩ 0 = line :=
    @line_replaceLines _ inner 0 0 line rfl fits 0 .blockquote level
  have body := @exists_quoted_paragraph md scope
    ⟨replaceLines lines 0 inner, 0, .blockquote, level⟩ inner.length chain depth levels room
    (first.symm ▸ same) indent.symm inside ordinary notMarkup (Nat.succ_pos _)
  cases isEnd with
  | true =>
    obtain ⟨others, parsed⟩ := body (.inl (Nat.le_refl 1))
    exact ⟨_, others, parsed⟩
  | false =>
    have isLazy : Scope.line ⟨replaceLines lines 0 inner, 0, .blockquote, level⟩ 1 =
        { second with columns := -1 } :=
      @line_replaceLines _ inner 0 1 _ rfl fits 0 .blockquote level
    generalize (⟨replaceLines lines 0 inner, 0, .blockquote, level⟩ : Scope) = quoted
      at body isLazy ⊢
    have columns : (quoted.line 1).columns < 0 := by
      rw [isLazy]
      exact Int.negSucc_lt_zero 0
    have dedented : quoted.isDedented 1 = true :=
      decide_eq_true (Int.lt_of_lt_of_le columns (Int.natCast_nonneg _))
    have isFilled : quoted.isEmpty 1 = false := (congrArg Line.isEmpty isLazy :).trans filled
    obtain ⟨others, parsed⟩ := body (.inr dedented)
    obtain ⟨text, isParagraph⟩ := paragraph_lazy md isFilled columns
    exact ⟨text, others, parsed.trans (congrArg (· :: others) isParagraph)⟩

/-! ## The first paragraph -/

section

variable (chain : md.blockChain RuleTable.mainChain = BlockRule.all) (keeps : md.KeepsChains)
  {p l : Text} (oneLine : ∀ line ∈ [p, l], '\n' ∉ line)
include chain keeps oneLine

/-- The paragraph that two lines begin with. -/
theorem firstParagraph?_two (room : 0 < md.maxNesting)
    (first : (Line.ofText 0 p true).isEmpty = false)
    (second : (Line.ofText 0 l true).isEmpty = false) (begins : BeginsParagraph md [p, l]) :
    let scope := Scope.ofSource (document [p, l])
    firstParagraph? (BlockRun.parse md (document [p, l])) =
      some (0, if scope.isDeeplyIndented 1 ||
        !endsAt md "paragraph" { scope with parent := .paragraph } 1 then 2 else 1) := by
  intro scope
  have zero := @unplaced_line_document [p, l] oneLine 0 Nat.zero_lt_two
  have one := @unplaced_line_document [p, l] oneLine 1 Nat.one_lt_two
  obtain ⟨-, -, others, parsed⟩ := exists_parse_paragraph chain keeps oneLine room Nat.zero_lt_two
    ((congrArg Line.isEmpty zero :).trans first) begins
  have notLazy : 0 ≤ (scope.line 1).columns := by
    rw [show (scope.line 1).columns = _ from (congrArg Line.columns one :)]
    exact Int.natCast_nonneg _
  have ends := @paragraphEnd_two md scope ((congrArg Line.isEmpty one :).trans second) notLazy
  rw [BlockRun.parse_eq keeps, parsed, ← ends]
  rfl

/-- Two lines of which the first is a paragraph alone begin with a paragraph, or they are markup. -/
theorem parse_markup_two (room : 0 < md.maxNesting)
    (first : (Line.ofText 0 p true).isEmpty = false) (alone : BeginsParagraph md [p])
    (apart : ¬BeginsParagraph md [p, l]) :
    ∃ code, Block.parse md (document [p, l]) = [.embedded code (0, 2)] := by
  have onlyFirst : ∀ line ∈ [p], '\n' ∉ line :=
    List.forall_mem_singleton.mpr (oneLine p List.mem_cons_self)
  have zero := @unplaced_line_document [p, l] oneLine 0 Nat.zero_lt_two
  have zeroAlone := @unplaced_line_document [p] onlyFirst 0 Nat.zero_lt_one
  have size : (Scope.ofSource (document [p, l])).lines.size = 2 := size_ofSource_document oneLine
  have notEmpty : (Scope.ofSource (document [p, l])).isEmpty 0 = false :=
    (congrArg Line.isEmpty zero :).trans first
  obtain ⟨ordinary, notMarkup⟩ := (beginsParagraph_iff chain keeps onlyFirst room Nat.zero_lt_one
    ((congrArg Line.isEmpty zeroAlone :).trans first)).mp alone
  have same : ((Scope.ofSource (document [p, l])).line 0).unplaced =
      ((Scope.ofSource (document [p])).line 0).unplaced := zero.trans zeroAlone.symm
  have ordinary : (Scope.ofSource (document [p, l])).IsOrdinary 0 := ordinary.of_unplaced same rfl
  have notAlone : embeddedBlock? md (Scope.ofSource (document [p, l])) 0 1 = none :=
    (embeddedBlock?_alone same rfl (.inl (Nat.le_refl 1))).trans notMarkup
  have isMarkup : embeddedBlock? md (Scope.ofSource (document [p, l])) 0 2 ≠ none :=
    fun none => apart ((beginsParagraph_iff chain keeps oneLine room Nat.zero_lt_two notEmpty).mpr
      ⟨ordinary, none⟩)
  obtain ⟨block, isBlock⟩ := Option.ne_none_iff_exists'.mp isMarkup
  obtain ⟨code, rfl⟩ := embeddedBlock?_two (isDedented_ofSource _ 1) notAlone isBlock
  refine ⟨code, parse_single chain room notEmpty size Nat.zero_lt_two ?_ rfl⟩
  rw [findSome?_ordinary _ _ ordinary, markupBlock, isBlock, Option.getD_some]

omit oneLine in
/-- Behind a letter any line leaves the paragraph that the letter begins. -/
theorem beginsParagraph_letter (room : 0 < md.maxNesting)
    (oneLine : ∀ line ∈ [['p'], l], '\n' ∉ line) : BeginsParagraph md [['p'], l] := by
  have zero := @unplaced_line_document [['p'], l] oneLine 0 Nat.zero_lt_two
  generalize isScope : Scope.ofSource (document [['p'], l]) = scope at zero
  have content : scope.content 0 = ['p'] := (congrArg Line.content zero :)
  have columns : (scope.line 0).columns = 0 := (congrArg Line.columns zero :)
  have filled : scope.isEmpty 0 = false := congrArg List.isEmpty content
  have ordinary : scope.IsOrdinary 0 := by
    refine ⟨filled, Scope.not_isDeeplyIndented columns, ?_, ?_, ?_, ?_, ?_⟩ <;>
      (rw [content]; decide)
  have noTag : openTagAt? md scope 0 = none := by
    rw [openTagAt?, content]
    rfl
  have notMarkup : embeddedBlock? md scope 0 2 = none := by
    rw [embeddedBlock?, noTag]
    rfl
  subst isScope
  exact (beginsParagraph_iff chain keeps oneLine room Nat.zero_lt_two filled).mpr
    ⟨ordinary, notMarkup⟩

omit chain in
/-- A line that is a paragraph alone has content. -/
theorem filled_of_begins (begins : BeginsParagraph md [p]) :
    (Scope.ofSource (document [p])).isEmpty 0 = false := by
  have size : (Scope.ofSource (document [p])).lines.size = 1 :=
    size_ofSource_document (List.forall_mem_singleton.mpr (oneLine p List.mem_cons_self))
  cases empty : (Scope.ofSource (document [p])).isEmpty 0 with
  | false => rfl
  | true =>
    have skips : (Scope.ofSource (document [p])).skipEmpty 0 = 1 := by
      rw [Scope.skipEmpty, size, Scope.skipEmptyUpTo, size, empty]
      rfl
    have nothing : Block.parse md (document [p]) = [] := by
      show (blocksFrom md _ (Scope.ofSource (document [p]))
        (Scope.ofSource (document [p])).lines.size _ {} 0 false).1 = []
      rw [size, blocksFrom, if_neg (by decide)]
      dsimp only
      rw [skips, decide_eq_true (Nat.le_refl 1), Bool.true_or, if_pos rfl]
    rw [BeginsParagraph, BlockRun.parse_eq keeps, nothing] at begins
    cases begins

/-- The paragraph that a quote begins with, of one line with the mark and one without. -/
theorem firstParagraph?_quoted (room : 1 < md.maxNesting)
    (second : (Line.ofText 0 l true).isEmpty = false)
    (unmarked : (Line.ofText 0 l true).content.head? ≠ some '>') (begins : BeginsParagraph md [p]) :
    let scope := Scope.ofSource (document [quoteLine p, l])
    firstParagraph? (BlockRun.parse md (document [quoteLine p, l])) =
      some (0, if !endsAt md "blockquote" { scope with indent := 0, parent := .blockquote } 1 then 2
        else 1) := by
  intro scope
  obtain ⟨inFirst, inSecond⟩ := List.forall_mem_cons.mp oneLine
  have oneQuoted : ∀ line ∈ [quoteLine p, l], '\n' ∉ line :=
    List.forall_mem_cons.mpr ⟨by simpa [quoteLine] using inFirst, inSecond⟩
  have zero := @unplaced_line_document [quoteLine p, l] oneQuoted 0 Nat.zero_lt_two
  have one := @unplaced_line_document [quoteLine p, l] oneQuoted 1 Nat.one_lt_two
  have alone := @unplaced_line_document [p] (List.forall_mem_singleton.mpr inFirst) 0
    Nat.zero_lt_one
  have size : scope.lines.size = 2 := size_ofSource_document oneQuoted
  have marked : scope.content 0 = quoteLine p := (congrArg Line.content zero :)
  have columns : (scope.line 0).columns = 0 := (congrArg Line.columns zero :)
  have filled : scope.isEmpty 1 = false := (congrArg Line.isEmpty one :).trans second
  have opens : opensBlockquote scope 0 = true := by
    rw [opensBlockquote, Scope.isDeeplyIndented, columns, marked]
    rfl
  -- The first line of the quote is the line of the paragraph.
  have same : (unquote (scope.line 0) (' ' :: p)).unplaced =
      ((Scope.ofSource (document [p])).line 0).unplaced :=
    (unplaced_unquote_quoteLine zero).trans alone.symm
  have notEmpty := filled_of_begins keeps oneLine begins
  obtain ⟨ordinary, notMarkup, -⟩ := exists_parse_paragraph chain keeps
    (List.forall_mem_singleton.mpr inFirst) (Nat.zero_lt_of_lt room) Nat.zero_lt_one notEmpty begins
  have content : scope.content 1 = (Line.ofText 0 l true).content := (congrArg Line.content one :)
  have isInner := @quoteLines_two md scope p rfl columns marked
    ((congrArg Line.isEmpty same :).trans notEmpty) filled (content ▸ unmarked)
  generalize endsAt md "blockquote" { scope with indent := 0, parent := .blockquote } 1 = isEnd
    at isInner ⊢
  obtain ⟨text, others, body⟩ := @exists_quote_body md _ chain 1 room _ size _ (scope.line 1) filled
    same rfl (isDedented_ofSource _ 0) ordinary notMarkup isEnd
  rw [← isInner] at body
  generalize isFound : parseBlocks md md.maxNesting ⟨replaceLines scope.lines 0
    (quoteLines md scope 2 2 false 0), 0, .blockquote, 1⟩ {} 0
      (quoteLines md scope 2 2 false 0).length = found at body
  obtain ⟨blocks, behind⟩ := found
  have quote : blockquote? md (parseBlocks md md.maxNesting) scope {} 0 2 =
      some (.blockquote blocks (0, behind.line), behind) :=
    blockquote?_eq opens rfl (by rw [Nat.zero_add]; exact isFound)
  obtain ⟨made, more, isMade, parsed⟩ := @exists_first md scope 2 chain md.maxNesting
    (show md.maxNesting ≤ 0 + (md.maxNesting + 1) by omega) (Nat.zero_lt_of_lt room)
    Nat.zero_lt_two (Nat.le_of_eq size.symm) (congrArg List.isEmpty marked)
    (isDedented_ofSource _ 0)
  rw [findSome?_quote opens quote] at isMade
  cases isMade
  have whole : Block.parse md (document [quoteLine p, l]) =
      .blockquote blocks (0, behind.line) :: more := by
    rw [← parsed, ← size]
    rfl
  rw [BlockRun.parse_eq keeps, whole, show blocks = _ from body]
  cases isEnd <;> rfl

end

/-! ## What ends at a line -/

/-- Does anything but a quote or a list begin at a line with this content? -/
def beginsOther (md : Markdown) (scope : Scope) (number : Nat) : Bool :=
  (fenceOpening? (scope.content number)).isSome || (breakMarks? (scope.content number)).isSome ||
    (openTagAt? md scope number).isSome || (headingDepth? (scope.content number)).isSome

theorem isSome_hr? : (hr? scope number).isSome =
    (!scope.isDeeplyIndented number && (breakMarks? (scope.content number)).isSome) := by
  rw [hr?]
  cases scope.isDeeplyIndented number with
  | true => rfl
  | false => cases breakMarks? (scope.content number) <;> rfl

section

variable {name : String} (rules : md.blockChain name = BlockRule.enders)
include rules

/-- At a line that is indented like code only a tag ends something. -/
theorem endsAt_deep (deep : scope.isDeeplyIndented number = true) :
    endsAt md name scope number = (openTagAt? md scope number).isSome := by
  simp [endsAt, rules, BlockRule.enders, BlockRule.opens, opensBlockquote, opensList, isSome_hr?,
    deep]

/-- A list ends a paragraph only with an item that interrupts it, and anything else with each. -/
theorem endsAt_shallow (shallow : scope.isDeeplyIndented number = false)
    (inside : scope.isDedented number = false)
    (unmarked : (scope.content number).head? ≠ some '>') :
    endsAt md name scope number = (beginsOther md scope number ||
      (Marker.of? (scope.content number)).any fun marker =>
        marker.interrupts || scope.parent ≠ .paragraph) := by
  have noQuote : opensBlockquote scope number = false := by
    rw [opensBlockquote, beq_false_of_ne unmarked, Bool.and_false]
  simp only [endsAt, rules, BlockRule.enders, BlockRule.opens, noQuote, opensList, isSome_hr?,
    shallow, inside, beginsOther, List.any_cons, List.any_nil, Bool.not_false, Bool.true_and,
    Bool.or_false, Bool.false_or]
  ac_rfl

end

/-- An item that does not interrupt a paragraph begins with a digit, or it is a bullet alone. -/
theorem Marker.idle_cases {content : Text} {marker : Marker}
    (found : Marker.of? content = some marker) (idle : marker.interrupts = false) :
    ∃ mark rest, content = mark :: rest ∧
      (mark.isDigit = true ∨ (mark = '*' ∨ mark = '-' ∨ mark = '+') ∧ ∀ c ∈ rest, isBlank c) := by
  cases content with
  | nil => cases found
  | cons mark rest =>
    refine ⟨mark, rest, rfl, ?_⟩
    cases digit : mark.isDigit with
    | true => exact .inl rfl
    | false =>
      have noNumber : ordered? (mark :: rest) = none := by simp [ordered?, digit]
      rw [of?, noNumber] at found
      obtain ⟨isBullet, isMarker⟩ := Option.ite_none_right_eq_some.mp found
      cases isMarker
      refine .inr ⟨by simpa [or_assoc] using And.left (Bool.and_eq_true_iff.mp isBullet), ?_⟩
      simpa [interrupts, value, Text.isAllBlank] using idle

/-- An item that does not interrupt a paragraph looks like nothing else. -/
theorem beginsOther_of_idle {marker : Marker}
    (found : Marker.of? (scope.content number) = some marker) (idle : marker.interrupts = false) :
    beginsOther md scope number = false := by
  obtain ⟨mark, rest, content, kinds⟩ := Marker.idle_cases found idle
  have ne (c : Char) (notDigit : c.isDigit = false) (notBullet : c ≠ '*' ∧ c ≠ '-' ∧ c ≠ '+') :
      mark ≠ c := by
    rintro rfl
    rcases kinds with digit | ⟨bullet, -⟩
    · exact Bool.false_ne_true (notDigit.symm.trans digit)
    · exact bullet.elim notBullet.1 (·.elim notBullet.2.1 notBullet.2.2)
  have noFence : fenceOpening? (mark :: rest) = none := by
    simp [fenceOpening?, ne '\x60' (by decide) (by decide), ne '~' (by decide) (by decide)]
  have noTag : openTagAt? md scope number = none := by
    simp [openTagAt?, content, ne '<' (by decide) (by decide)]
  have noHeading : headingDepth? (mark :: rest) = none := by
    simp [headingDepth?, Text.runLength, ne '#' (by decide) (by decide)]
  have noBreak : breakMarks? (mark :: rest) = none := by
    rcases kinds with digit | ⟨bullet, blank⟩
    · have notMark (c : Char) (notDigit : c.isDigit = false) : mark ≠ c := by
        rintro rfl
        exact Bool.false_ne_true (notDigit.symm.trans digit)
      simp [breakMarks?, notMark '*' (by decide), notMark '-' (by decide), notMark '_' (by decide)]
    · have single : (mark :: rest).filter (· == mark) = [mark] := by
        have others : rest.filter (· == mark) = [] := by
          rw [List.filter_eq_nil_iff]
          intro c member isMark
          have isBlank := blank c member
          rw [beq_iff_eq.mp isMark] at isBlank
          rcases bullet with rfl | rfl | rfl <;> exact absurd isBlank (by decide)
        rw [List.filter_cons_of_pos (by simp), others]
      simp [breakMarks?, single]
  rw [beginsOther, content, noFence, noTag, noHeading, noBreak]
  rfl

/-! ## Both decisions -/

/-- The line begins an item that does not interrupt a paragraph: it has no content, or another
number than one. -/
def Line.BeginsIdleItem (line : Line) : Prop :=
  line.columns < 4 ∧ ∃ marker, Marker.of? line.content = some marker ∧ marker.interrupts = false

/-- The line is indented like code and begins with a tag. -/
def Line.BeginsDeepTag (grammar : TagGrammar) (line : Line) : Prop :=
  4 ≤ line.columns ∧ line.content.head? = some '<' ∧
    (grammar.openTag .block line.content.trim).isSome = true

/-- A line goes on with the paragraph of a quote if it goes on with a paragraph, begins no item and
is not indented with a tag. -/
theorem ends_iff (quotes : md.blockChain "blockquote" = BlockRule.enders)
    (paragraphs : md.blockChain "paragraph" = BlockRule.enders) {quoted plain : Scope} {line : Line}
    (inQuote : quoted.indent = 0 ∧ quoted.parent = .blockquote)
    (inParagraph : plain.indent = 0 ∧ plain.parent = .paragraph)
    (isQuoted : (quoted.line 1).unplaced = line) (isPlain : (plain.line 1).unplaced = line)
    (columns : 0 ≤ line.columns) (unmarked : line.content.head? ≠ some '>') :
    let goesOn := plain.isDeeplyIndented 1 || !endsAt md "paragraph" plain 1
    let idle := line.BeginsIdleItem ∨ line.BeginsDeepTag md.grammar
    ((!endsAt md "blockquote" quoted 1) = true ↔ goesOn = true ∧ ¬idle) ∧
      (idle → goesOn = true) := by
  intro goesOn idle
  have content : quoted.content 1 = line.content := (congrArg Line.content isQuoted :)
  have content' : plain.content 1 = line.content := (congrArg Line.content isPlain :)
  have width : (quoted.line 1).columns = line.columns := (congrArg Line.columns isQuoted :)
  have width' : (plain.line 1).columns = line.columns := (congrArg Line.columns isPlain :)
  have deep : quoted.isDeeplyIndented 1 = decide (4 ≤ line.columns) := by
    rw [Scope.isDeeplyIndented, width, inQuote.1, Int.natCast_zero, Int.sub_zero]
  have deep' : plain.isDeeplyIndented 1 = decide (4 ≤ line.columns) := by
    rw [Scope.isDeeplyIndented, width', inParagraph.1, Int.natCast_zero, Int.sub_zero]
  by_cases isDeep : 4 ≤ line.columns
  · have noItem : ¬ line.BeginsIdleItem := fun item => absurd item.1 (Int.not_lt.mpr isDeep)
    have tag : line.BeginsDeepTag md.grammar ↔ (openTagAt? md quoted 1).isSome = true := by
      rw [Line.BeginsDeepTag, openTagAt?, content]
      by_cases begins : line.content.head? = some '<' <;> simp [isDeep, begins]
    have goesOn : goesOn = true := by
      show (plain.isDeeplyIndented 1 || _) = true
      rw [deep', decide_eq_true isDeep, Bool.true_or]
    rw [endsAt_deep quotes (deep.trans (decide_eq_true isDeep))]
    simp [idle, noItem, tag, goesOn]
  · have noTag : ¬ line.BeginsDeepTag md.grammar := fun tag => isDeep tag.1
    have shallow : quoted.isDeeplyIndented 1 = false := deep.trans (decide_eq_false isDeep)
    have shallow' : plain.isDeeplyIndented 1 = false := deep'.trans (decide_eq_false isDeep)
    have inside : quoted.isDedented 1 = false := by
      rw [Scope.isDedented, width, inQuote.1]
      exact decide_eq_false (Int.not_lt.mpr columns)
    have inside' : plain.isDedented 1 = false := by
      rw [Scope.isDedented, width', inParagraph.1]
      exact decide_eq_false (Int.not_lt.mpr columns)
    have begins : beginsOther md quoted 1 = beginsOther md plain 1 := by
      rw [beginsOther, beginsOther, openTagAt?, openTagAt?, content, content']
    have goesOn : goesOn = !endsAt md "paragraph" plain 1 := by
      show (plain.isDeeplyIndented 1 || _) = _
      rw [shallow', Bool.false_or]
    rw [goesOn, endsAt_shallow quotes shallow inside (content ▸ unmarked),
      endsAt_shallow paragraphs shallow' inside' (content' ▸ unmarked), begins, content, content',
      inQuote.2, inParagraph.2]
    cases found : Marker.of? line.content with
    | none => simp [idle, noTag, Line.BeginsIdleItem, found]
    | some marker =>
      cases interrupts : marker.interrupts with
      | true => simp [idle, noTag, Line.BeginsIdleItem, found, interrupts]
      | false =>
        have nothing : beginsOther md plain 1 = false :=
          beginsOther_of_idle (content' ▸ found) interrupts
        simp [idle, noTag, Line.BeginsIdleItem, found, interrupts, nothing, Int.not_le.mp isDeep]

theorem eq_two_iff {span : Option LineSpan} {goesOn : Bool}
    (found : span = some (0, if goesOn then 2 else 1)) : span = some (0, 2) ↔ goesOn = true := by
  cases goesOn <;> simp [found]

section

variable (chain : md.blockChain RuleTable.mainChain = BlockRule.all) (keeps : md.KeepsChains)
  (quotes : md.blockChain "blockquote" = BlockRule.enders)
  (paragraphs : md.blockChain "paragraph" = BlockRule.enders) {p q l : Text}
include chain keeps quotes paragraphs

/-- A line goes on with a quote exactly when it goes on with a paragraph outside of quotes, begins
no idle item and no indented tag, whichever paragraphs these are. -/
theorem quoted_iff (room : 1 < md.maxNesting) (oneLine : ∀ line ∈ [p, q, l], '\n' ∉ line)
    (filled : (Line.ofText 0 l true).isEmpty = false)
    (unmarked : (Line.ofText 0 l true).content.head? ≠ some '>')
    (first : (Line.ofText 0 q true).isEmpty = false) (alone : BeginsParagraph md [p])
    (both : BeginsParagraph md [q, l]) :
    let goesOn := fun tokens => firstParagraph? tokens = some (0, 2)
    let quoted := goesOn (BlockRun.parse md (document [quoteLine p, l]))
    let plain := goesOn (BlockRun.parse md (document [q, l]))
    let idle := (Line.ofText 0 l true).BeginsIdleItem ∨
      (Line.ofText 0 l true).BeginsDeepTag md.grammar
    (quoted ↔ plain ∧ ¬idle) ∧ (idle → plain) := by
  intro goesOn quoted plain idle
  obtain ⟨inP, inBoth⟩ := List.forall_mem_cons.mp oneLine
  obtain ⟨-, inL⟩ := List.forall_mem_cons.mp inBoth
  have oneQuoted : ∀ line ∈ [quoteLine p, l], '\n' ∉ line :=
    List.forall_mem_cons.mpr ⟨by simpa [quoteLine] using inP, inL⟩
  have inQuote : quoted ↔ _ = true :=
    eq_two_iff (firstParagraph?_quoted chain keeps (List.forall_mem_cons.mpr ⟨inP, inL⟩) room filled
      unmarked alone)
  have outside : plain ↔ _ = true :=
    eq_two_iff (firstParagraph?_two chain keeps inBoth (Nat.zero_lt_of_lt room) first filled both)
  rw [inQuote, outside]
  exact @ends_iff md quotes paragraphs
    { Scope.ofSource (document [quoteLine p, l]) with indent := 0, parent := .blockquote }
    { Scope.ofSource (document [q, l]) with parent := .paragraph } (Line.ofText 0 l true)
    ⟨rfl, rfl⟩ ⟨rfl, rfl⟩ (unplaced_line_document oneQuoted Nat.one_lt_two)
    (unplaced_line_document inBoth Nat.one_lt_two) (Int.natCast_nonneg _) unmarked

end

/-- A line goes on with the paragraph of a quote exactly when it goes on with this paragraph outside
of the quote, but for items that interrupt no paragraph and for indented tags: these end the quote
only. Where the two lines are markup there is no such paragraph outside of the quote; then the line
goes on with the quote if it goes on with any other paragraph and is none of those. -/
theorem lazy_iff (md : Markdown) (room : 1 < md.maxNesting) {p l : Text}
    (oneLine : ∀ line ∈ [p, l], '\n' ∉ line) (filled : (Line.ofText 0 l true).isEmpty = false)
    (unmarked : (Line.ofText 0 l true).content.head? ≠ some '>') :
    let usual : Markdown := { md with blockRules := ⟨BlockRule.all.map BlockRule.entry⟩ }
    let goesOn := fun tokens => firstParagraph? tokens = some (0, 2)
    let quoted := goesOn (BlockRun.parse usual (document [quoteLine p, l]))
    let plain := goesOn (BlockRun.parse usual (document [p, l]))
    let idle := (Line.ofText 0 l true).BeginsIdleItem ∨
      (Line.ofText 0 l true).BeginsDeepTag md.grammar
    BeginsParagraph usual [p] →
      (BeginsParagraph usual [p, l] → ((quoted ↔ plain) ↔ ¬idle) ∧ (idle → plain)) ∧
      (¬BeginsParagraph usual [p, l] →
        (∃ code, Block.parse usual (document [p, l]) = [.embedded code (0, 2)]) ∧ ¬plain ∧
          (quoted ↔ goesOn (BlockRun.parse usual (document [['p'], l])) ∧ ¬idle)) := by
  intro usual goesOn quoted plain idle alone
  have chain : usual.blockChain RuleTable.mainChain = BlockRule.all := rfl
  have keeps : usual.KeepsChains := keepsChains_entries md _
  obtain ⟨inP, inL⟩ := List.forall_mem_cons.mp oneLine
  have onlyFirst : ∀ line ∈ [p], '\n' ∉ line := List.forall_mem_singleton.mpr inP
  have first : (Line.ofText 0 p true).isEmpty = false :=
    (congrArg Line.isEmpty (unplaced_line_document onlyFirst Nat.zero_lt_one).symm :).trans
      (filled_of_begins keeps oneLine alone)
  refine ⟨fun both => ?paragraph, fun apart => ?markup⟩
  case paragraph =>
    have both : (quoted ↔ plain ∧ ¬idle) ∧ (idle → plain) :=
      quoted_iff chain keeps rfl rfl room (List.forall_mem_cons.mpr ⟨inP, oneLine⟩) filled unmarked
        first alone both
    obtain ⟨agree, idleGoesOn⟩ := both
    refine ⟨?_, idleGoesOn⟩
    rw [agree, and_iff_left_iff_imp, imp_not_comm]
    exact ⟨fun apart isIdle => apart isIdle (idleGoesOn isIdle),
      fun notIdle isIdle _ => notIdle isIdle⟩
  case markup =>
    obtain ⟨code, parsed⟩ := parse_markup_two chain keeps oneLine (Nat.zero_lt_of_lt room) first
      alone apart
    refine ⟨⟨code, parsed⟩, ?_, ?_⟩
    · show firstParagraph? (BlockRun.parse usual (document [p, l])) ≠ some (0, 2)
      rw [BlockRun.parse_eq keeps, parsed]
      exact nofun
    · have others : ∀ line ∈ [['p'], l], '\n' ∉ line :=
        List.forall_mem_cons.mpr ⟨by decide, inL⟩
      exact (quoted_iff chain keeps rfl rfl room (List.forall_mem_cons.mpr ⟨inP, others⟩) filled
        unmarked rfl alone (beginsParagraph_letter chain keeps (Nat.zero_lt_of_lt room) others)).1

/-- A line that is indented like code, and no tag; and two lines that are an element. -/
theorem lazy_iff_indented :
    let usual := fun transform : Transformer =>
      ({ transform, blockRules := ⟨BlockRule.all.map BlockRule.entry⟩ } : Markdown)
    let goesOn := fun tokens => firstParagraph? tokens = some (0, 2)
    ((∀ line ∈ ["p".toList, "    - q".toList], '\n' ∉ line) ∧
      BeginsParagraph (usual .ok) ["p".toList] ∧
      BeginsParagraph (usual .ok) ["p".toList, "    - q".toList] ∧
      goesOn (BlockRun.parse (usual .ok) "p\n    - q\n".toList) ∧
      goesOn (BlockRun.parse (usual .ok) "> p\n    - q\n".toList)) ∧
    BeginsParagraph (usual .createElement) ["<A>".toList] ∧
      ¬BeginsParagraph (usual .createElement) ["<A>".toList, "</A>".toList] ∧
      ¬goesOn (BlockRun.parse (usual .createElement) "<A>\n</A>\n".toList) ∧
      goesOn (BlockRun.parse (usual .createElement) "> <A>\n</A>\n".toList) := by
  refine ⟨?paragraph, ?markup⟩
  case paragraph =>
    have alone : BeginsParagraph { transform := .ok } ["p".toList] := by decide +kernel
    have both : BeginsParagraph { transform := .ok } ["p".toList, "    - q".toList] := by
      decide +kernel
    have plain : firstParagraph? (BlockRun.parse { transform := .ok } "p\n    - q\n".toList) =
        some (0, 2) := by
      decide +kernel
    have idle : ¬((Line.ofText 0 "    - q".toList true).BeginsIdleItem ∨
        (Line.ofText 0 "    - q".toList true).BeginsDeepTag TagGrammar.jsx) := by
      rintro (item | tag)
      · exact absurd item.1 (by decide)
      · exact absurd tag.2.1 (by decide)
    have agree := (lazy_iff { transform := .ok } (by decide) (p := "p".toList)
      (l := "    - q".toList) (by decide) (by decide) (by decide) alone).1 both
    exact ⟨by decide, alone, both, plain, (agree.1.mpr idle).mpr plain⟩
  case markup =>
    have alone : BeginsParagraph { transform := .createElement } ["<A>".toList] := by
      decide +kernel
    have apart : ¬BeginsParagraph { transform := .createElement }
        ["<A>".toList, "</A>".toList] := by
      decide +kernel
    have behind : firstParagraph? (BlockRun.parse { transform := .createElement }
        "p\n</A>\n".toList) = some (0, 2) := by
      decide +kernel
    have idle : ¬((Line.ofText 0 "</A>".toList true).BeginsIdleItem ∨
        (Line.ofText 0 "</A>".toList true).BeginsDeepTag TagGrammar.jsx) := by
      rintro (⟨-, marker, found, -⟩ | tag)
      · cases (show none = some marker from found)
      · exact absurd tag.1 (by decide)
    obtain ⟨-, notPlain, quoted⟩ := (lazy_iff { transform := .createElement } (by decide)
      (p := "<A>".toList) (l := "</A>".toList) (by decide) (by decide) (by decide) alone).2 apart
    exact ⟨alone, apart, notPlain, quoted.mpr ⟨behind, idle⟩⟩

/-- An empty item, an item with another number than one, and an indented tag end the quote only, and
a close tag goes on with the quote only. -/
theorem lazy_iff_lost :
    let firstParagraph := fun source : String =>
      firstParagraph? (BlockRun.parse { transform := .createElement } source.toList)
    firstParagraph "p\n-\n" = some (0, 2) ∧ firstParagraph "> p\n-\n" = some (0, 1) ∧
      firstParagraph "p\n2. b\n" = some (0, 2) ∧ firstParagraph "> p\n2. b\n" = some (0, 1) ∧
      firstParagraph "p\n    <B/>\n" = some (0, 2) ∧
      firstParagraph "> p\n    <B/>\n" = some (0, 1) ∧
      firstParagraph "<A>\n</A>\n" = none ∧ firstParagraph "> <A>\n</A>\n" = some (0, 2) := by
  decide +kernel

end ComponentMarkdown
