import ComponentMarkdown.Proofs.Block.Documents

/-!
# Quoted documents

A document with the mark of a quote in front of each line is parsed to the blocks of the document,
in a quote. The file has:

* `quoteLines_document`: the quote sees the lines of the document;
* `parse_quoted`, the result.
-/

namespace ComponentMarkdown

/-- The line with the mark of a quote in front. -/
def quoteLine (line : Text) : Text :=
  '>' :: ' ' :: line

variable {md : Markdown} {scope : Scope} {lines : List Text}

/-! ## The lines of the quote -/

theorem unplaced_unquote_quoteLine {line : Line} {text : Text}
    (marked : line.unplaced = Line.ofText 0 (quoteLine text) true) :
    (unquote line (' ' :: text)).unplaced = Line.ofText 0 text true := by
  rw [unplaced_unquote, marked]
  rfl

/-- A quote whose lines all have marks sees them without. -/
theorem quoteLines_document (indent : scope.indent = 0)
    (marked : ∀ (number : Nat) (inText : number < lines.length),
      (scope.line number).unplaced = Line.ofText 0 (quoteLine lines[number]) true)
    (fuel : Nat) (lastEmpty : Bool) {next : Nat} (enough : lines.length - next ≤ fuel) :
    (quoteLines md scope lines.length fuel lastEmpty next).map Line.unplaced =
      (lines.drop next).map fun line => Line.ofText 0 line true := by
  induction fuel generalizing lastEmpty next with
  | zero => rw [List.drop_eq_nil_of_le (by omega)]; rfl
  | succ fuel ih =>
    unfold quoteLines
    by_cases ended : lines.length ≤ next
    · rw [if_pos ended, List.drop_eq_nil_of_le ended]
      rfl
    · have inText : next < lines.length := Nat.lt_of_not_le ended
      have here := marked next inText
      have content : (scope.line next).content = '>' :: ' ' :: lines[next] :=
        (congrArg Line.content here :)
      have notDedented : scope.isDedented next = false := by
        have columns : (scope.line next).columns = 0 := (congrArg Line.columns here :)
        rw [Scope.isDedented, columns, indent]
        rfl
      rw [if_neg ended]
      dsimp only
      rw [content]
      dsimp only
      rw [notDedented, if_pos (show ('>' == '>' && !false) = true from rfl), List.map_cons,
        ih _ (by omega), unplaced_unquote_quoteLine here, List.drop_eq_getElem_cons inText,
        List.map_cons]

theorem replaceLines_append (before old more : List Line) (fits : more.length = old.length) :
    replaceLines (before ++ old).toArray before.length more = (before ++ more).toArray := by
  induction more generalizing before old with
  | nil => rw [List.eq_nil_of_length_eq_zero fits.symm]; rfl
  | cons line more ih =>
    cases old with
    | nil => cases fits
    | cons gone old =>
      have others := ih (before ++ [line]) old (Nat.succ.inj fits)
      rw [List.length_append, List.append_assoc, List.append_assoc] at others
      rw [replaceLines, List.setIfInBounds_toArray, List.set_append_right _ _ (Nat.le_refl _),
        Nat.sub_self]
      exact others

/-- All lines of a scope are replaced. -/
theorem replaceLines_all (old : Array Line) {more : List Line} (fits : more.length = old.size) :
    replaceLines old 0 more = more.toArray :=
  replaceLines_append [] old.toList more (fits.trans old.length_toList.symm)

/-! ## The quote -/

/-- What the rule of quotes makes where one begins. -/
theorem blockquote?_eq {tree : ParseBlocks} {progress : Progress} {first stop : Nat}
    (opens : opensBlockquote scope first = true) {inner : List Line}
    (isInner : quoteLines md scope stop (stop - first) false first = inner)
    {body : List Block} {behind : Progress}
    (parsed : tree ⟨replaceLines scope.lines first inner, 0, .blockquote, scope.level + 1⟩ progress
      first (first + inner.length) = (body, behind)) :
    blockquote? md tree scope progress first stop =
      some (.blockquote body (first, behind.line), behind) := by
  unfold blockquote?
  rw [opens, isInner]
  dsimp only
  rw [parsed]
  rfl

/-- The first rule that makes a block at a line with the mark of a quote is that of quotes. -/
theorem findSome?_quote {tree : ParseBlocks} {progress : Progress} {first stop : Nat}
    (opens : opensBlockquote scope first = true) {made : Made}
    (isMade : blockquote? md tree scope progress first stop = some made) :
    (BlockRule.all.findSome? fun rule => runRule md tree rule scope progress first stop) =
      some made := by
  rw [opensBlockquote, Bool.and_eq_true, Bool.not_eq_true', beq_iff_eq] at opens
  obtain ⟨shallow, marked⟩ := opens
  have code : runRule md tree .code scope progress first stop = none := by
    rw [runRule, indentedCode?, shallow]
    rfl
  have fence : runRule md tree .fence scope progress first stop = none := by
    obtain ⟨behind, content⟩ := List.head?_eq_some_iff.mp marked
    have noFence : fenceOpening? (scope.content first) = none := by
      rw [content]
      rfl
    rw [runRule, fence?, shallow, noFence]
    rfl
  rw [BlockRule.all, List.findSome?_cons, code, List.findSome?_cons, fence, List.findSome?_cons,
    runRule, isMade]

theorem not_mem_quoteLine (oneLine : ∀ line ∈ lines, '\n' ∉ line) :
    ∀ line ∈ lines.map quoteLine, '\n' ∉ line := by
  intro line member
  obtain ⟨text, isLine, rfl⟩ := List.mem_map.mp member
  have := oneLine text isLine
  simpa [quoteLine] using this

/-- The lines of a quote around a document, without their marks. -/
theorem unplaced_quoteLines (md : Markdown) (oneLine : ∀ line ∈ lines, '\n' ∉ line) :
    (quoteLines md (Scope.ofSource (document (lines.map quoteLine))) lines.length lines.length
      false 0).map Line.unplaced = lines.map fun line => Line.ofText 0 line true := by
  refine quoteLines_document rfl (fun number inText => ?_) lines.length false (Nat.sub_le _ _)
  have inQuote : number < (lines.map quoteLine).length := (List.length_map quoteLine).symm ▸ inText
  rw [unplaced_line_document (not_mem_quoteLine oneLine) inQuote, List.getElem_map]

/-- The quote sees the lines of the document, one level deeper. -/
theorem mirrors_quoted (oneLine : ∀ line ∈ lines, '\n' ∉ line) {inner : List Line}
    (same : inner.map Line.unplaced = lines.map fun line => Line.ofText 0 line true) :
    (Scope.ofSource (document lines)).Mirrors 0 1
      ⟨replaceLines (Scope.ofSource (document (lines.map quoteLine))).lines 0 inner, 0,
        .blockquote, 1⟩ := by
  have length : inner.length = lines.length := by
    have lengths := congrArg List.length same
    rwa [List.length_map, List.length_map] at lengths
  have size : (Scope.ofSource (document (lines.map quoteLine))).lines.size = lines.length := by
    rw [size_ofSource_document (not_mem_quoteLine oneLine), List.length_map]
  rw [replaceLines_all _ (length.trans size.symm)]
  constructor
  case size =>
    rw [size_ofSource_document oneLine]
    exact length
  case lines =>
    intro number
    rw [Nat.add_zero, getElem?_ofSource, List.getElem?_toArray, ← List.getElem?_map,
      ← List.getElem?_map, same, unplaced_document oneLine]
  case indent => rfl
  case parent => exact ⟨nofun, nofun⟩
  case level => rfl

theorem blocks_quoted (chain : md.blockChain RuleTable.mainChain = BlockRule.all)
    (notEmpty : lines ≠ []) (oneLine : ∀ line ∈ lines, '\n' ∉ line) :
    Block.parse (md.deepened 1) (document (lines.map quoteLine)) =
      [.blockquote (Block.allLater 0 (Block.parse md (document lines))) (0, lines.length)] := by
  have hasLines : 0 < lines.length := List.length_pos_iff.mpr notEmpty
  have inQuote : 0 < (lines.map quoteLine).length := by rwa [List.length_map]
  have size := size_ofSource_document oneLine
  have sizeQuoted := size_ofSource_document (not_mem_quoteLine oneLine)
  rw [List.length_map] at sizeQuoted
  -- The first line has the mark of a quote.
  have marked := unplaced_line_document (not_mem_quoteLine oneLine) inQuote
  rw [List.getElem_map] at marked
  have content : (Scope.ofSource (document (lines.map quoteLine))).content 0 =
      quoteLine lines[0] := (congrArg Line.content marked :)
  have columns : ((Scope.ofSource (document (lines.map quoteLine))).line 0).columns = 0 :=
    (congrArg Line.columns marked :)
  have opens : opensBlockquote (Scope.ofSource (document (lines.map quoteLine))) 0 = true := by
    rw [opensBlockquote, Scope.isDeeplyIndented, columns, content]
    rfl
  have same := unplaced_quoteLines (md.deepened 1) oneLine
  generalize isInner : quoteLines (md.deepened 1) (Scope.ofSource (document
    (lines.map quoteLine))) lines.length lines.length false 0 = inner at same
  have length : inner.length = lines.length := by
    have lengths := congrArg List.length same
    rwa [List.length_map, List.length_map] at lengths
  -- In the quote the blocks of the document are parsed, up to the end.
  have parsed := mirrors_parseBlocks md (md.maxNesting + 1) (mirrors_quoted oneLine same) {} 0
    lines.length
  have ends := @line_parseScope md (chain ▸ by decide) (document lines)
  have depth : parseScope md (Scope.ofSource (document lines)) =
    parseBlocks md (md.maxNesting + 1) (Scope.ofSource (document lines)) := rfl
  dsimp only at ends
  unfold Block.parse
  dsimp only
  rw [size, depth] at ends ⊢
  rw [sizeQuoted]
  generalize parseBlocks md (md.maxNesting + 1) (Scope.ofSource (document lines)) {} 0
    lines.length = found at parsed ends
  obtain ⟨body, behind⟩ := found
  have made : blockquote? (md.deepened 1) (parseBlocks (md.deepened 1) (md.maxNesting + 1))
      (Scope.ofSource (document (lines.map quoteLine))) {} 0 lines.length =
        some (.blockquote (Block.allLater 0 body) (0, behind.line), behind.later 0) :=
    blockquote?_eq opens isInner ((Nat.zero_add inner.length).symm ▸ length ▸ parsed)
  have isEmpty : (Scope.ofSource (document (lines.map quoteLine))).isEmpty 0 = false :=
    congrArg List.isEmpty content
  have atEnd : (behind.later 0).line = lines.length := ends
  have single := @blocksFrom_single (md.deepened 1) _ (fun progress first =>
    BlockRule.all.findSome? fun rule => runRule (md.deepened 1)
      (parseBlocks (md.deepened 1) (md.maxNesting + 1)) rule _ progress first lines.length)
    (Nat.succ_pos _) 0 isEmpty (isDedented_ofSource _ 0) _ _ false (findSome?_quote opens made)
    (atEnd.symm ▸ hasLines) lines.length false
  rw [atEnd, show behind.line = _ from ends] at single
  rw [← single, ← chain]
  rfl

/-- A document with the mark of a quote in front of each line is a quote around the tokens of the
document, for any grammar of tags, any transformer and any depth of nesting. -/
theorem parse_quoted (md : Markdown) {lines : List Text} (notEmpty : lines ≠ [])
    (oneLine : ∀ line ∈ lines, '\n' ∉ line) :
    let usual : Markdown := { md with blockRules := ⟨BlockRule.all.map BlockRule.entry⟩ }
    BlockRun.parse { usual with maxNesting := usual.maxNesting + 1 }
        (document (lines.map quoteLine)) =
      encloseBlock (.blockquoteOpen, .blockquoteClose) "blockquote".toList 0 (0, lines.length) ['>']
        ((BlockRun.parse usual (document lines)).map fun token =>
          { token with level := token.level + 1 }) := by
  intro usual
  have chain : usual.blockChain RuleTable.mainChain = BlockRule.all := rfl
  have deeper : BlockRun.parse { usual with maxNesting := usual.maxNesting + 1 }
      (document (lines.map quoteLine)) =
        Block.allTokens 0 (Block.parse (usual.deepened 1) (document (lines.map quoteLine))) :=
    BlockRun.parse_eq (keepsChains_entries { md with maxNesting := md.maxNesting + 1 } _) _
  rw [deeper, blocks_quoted chain notEmpty oneLine, BlockRun.parse_eq (keepsChains_entries md _),
    Block.allTokens, Block.tokens, Block.allTokens, List.append_nil, Block.allTokens_allLater,
    List.map_congr_left fun token _ => token.moved_zero 1]

/-- A list, and a quote that a lazy line goes on with. -/
theorem parse_quoted_lazy :
    let usual : Markdown :=
      { maxNesting := 9, transform := .ok, blockRules := ⟨BlockRule.all.map BlockRule.entry⟩ }
    let lines := ["- a", "> b", "c"].map String.toList
    (lines ≠ [] ∧ ∀ line ∈ lines, '\n' ∉ line) ∧
      document (lines.map quoteLine) = "> - a\n> > b\n> c\n".toList ∧
      (BlockRun.parse { usual with maxNesting := 10 } (document (lines.map quoteLine))).map
          (fun token => (token.level, token.content)) =
        [(0, []), (1, []), (2, []), (3, []), (4, ['a']), (3, []), (2, []), (1, []), (1, []),
          (2, []), (3, ['b', '\n', 'c']), (2, []), (1, []), (0, [])] ∧
      BlockRun.parse { usual with maxNesting := 10 } (document (lines.map quoteLine)) =
        encloseBlock (.blockquoteOpen, .blockquoteClose) "blockquote".toList 0 (0, 3) ['>']
          ((BlockRun.parse usual (document lines)).map fun token =>
            { token with level := token.level + 1 }) :=
  ⟨by decide, by decide, by decide +kernel,
    parse_quoted { maxNesting := 9, transform := .ok } (by decide) (by decide)⟩

end ComponentMarkdown
