import ComponentMarkdown.Proofs.Block.Embedded

/-!
# Embedded markup in an item of a list

The lines of embedded markup are put into an item of a list: the first one gets a marker in front
and the others are indented as far. The file has:

* `itemLines`, the lines of the item;
* `Scope.Hangs`: the item sees the lines of the document behind its indentation;
* `parse_itemLines`: the item holds the markup of the document, unless one of its lines is empty.
-/

namespace ComponentMarkdown

variable {md : Markdown} {scope other : Scope} {count first stop : Nat}

/-! ## Lines of a document and of an item -/

/-- A further line of an item. An empty one stays empty. -/
def itemTextLine (line : Text) : Text :=
  if line = [] then [] else ' ' :: ' ' :: line

/-- The lines of an item that holds the given ones. -/
def itemLines : List Text → List Text
  | [] => []
  | line :: lines => ('-' :: ' ' :: line) :: lines.map itemTextLine

/-- Lines of markup: the first one begins with `<`, and the last one is not empty. -/
structure IsMarkup (lines : List Text) : Prop where
  oneLine : ∀ line ∈ lines, '\n' ∉ line
  begins : ∃ behind more, lines = ('<' :: behind) :: more
  filled : lines.getLast? ≠ some []

theorem itemTextLine_eq_nil {line : Text} : itemTextLine line = [] ↔ line = [] := by
  unfold itemTextLine
  split
  · next nothing => exact ⟨fun _ => nothing, fun _ => rfl⟩
  · next something => exact ⟨nofun, fun nothing => absurd nothing something⟩

theorem length_itemLines (lines : List Text) : (itemLines lines).length = lines.length := by
  cases lines with
  | nil => rfl
  | cons line lines => rw [itemLines, List.length_cons, List.length_map, List.length_cons]

/-- The item has no characters of its own but spaces and the marker. -/
theorem not_mem_itemLines {lines : List Text} {c : Char} (apart : c ≠ ' ' ∧ c ≠ '-')
    (absent : ∀ line ∈ lines, c ∉ line) : ∀ line ∈ itemLines lines, c ∉ line := by
  cases lines with
  | nil => exact List.forall_mem_nil _
  | cons line lines =>
    obtain ⟨first, others⟩ := List.forall_mem_cons.mp absent
    refine List.forall_mem_cons.mpr ⟨by simp [apart, first], ?_⟩
    refine List.forall_mem_map.mpr fun line member => ?_
    unfold itemTextLine
    split
    · exact List.not_mem_nil
    · simp [apart, others line member]

theorem getLast?_itemLines {lines : List Text} (filled : lines.getLast? ≠ some []) :
    (itemLines lines).getLast? ≠ some [] := by
  match lines with
  | [] => exact nofun
  | [line] => exact nofun
  | line :: next :: lines =>
    rw [List.getLast?_cons_cons] at filled
    rw [itemLines, List.map_cons, List.getLast?_cons_cons, ← List.map_cons, List.getLast?_map]
    cases last : (next :: lines).getLast? with
    | none => exact nofun
    | some text =>
      rw [Option.map_some, ne_eq, Option.some_inj, itemTextLine_eq_nil]
      rintro rfl
      exact filled last

/-! ## Scopes behind an indentation -/

/-- The first lines of the other scope are those of this one behind its indentation, whether or not
they are indented far enough. -/
structure Scope.Hangs (count : Nat) (scope other : Scope) : Prop where
  content : ∀ number < count, other.content number = scope.content number
  strip : ∀ number < count,
    (other.line number).strip other.indent = (scope.line number).strip scope.indent
  lineFeed : ∀ number < count, (other.line number).lineFeed = (scope.line number).lineFeed

theorem sourceOf_congr {keepEnd : Bool} {indent indent' : Nat} {line line' : Nat → Line}
    {numbers : List Nat}
    (same : ∀ number ∈ numbers, (line' number).strip indent' = (line number).strip indent ∧
      (line' number).lineFeed = (line number).lineFeed) :
    sourceOf indent' keepEnd (numbers.map line') = sourceOf indent keepEnd (numbers.map line) := by
  induction numbers with
  | nil => rfl
  | cons number numbers ih =>
    obtain ⟨⟨strip, lineFeed⟩, others⟩ := List.forall_mem_cons.mp same
    cases numbers with
    | nil =>
      rw [List.map_singleton, List.map_singleton, sourceOf, sourceOf, strip, lineFeed]
    | cons next numbers =>
      show (line' number).strip indent' ++ (line' number).lineFeed ++
          sourceOf indent' keepEnd ((next :: numbers).map line') =
        (line number).strip indent ++ (line number).lineFeed ++
          sourceOf indent keepEnd ((next :: numbers).map line)
      rw [ih others, strip, lineFeed]

namespace Scope.Hangs

variable (hangs : scope.Hangs count other)
include hangs

theorem embedLines?_eq (inText : stop ≤ count) :
    embedLines? md other first stop = embedLines? md scope first stop := by
  refine congrArg md.transform.embed? (sourceOf_congr fun number member => ?_)
  have bounds := List.mem_range'_1.mp member
  exact ⟨hangs.strip number (by omega), hangs.lineFeed number (by omega)⟩

/-- The same close tag is found where the same lines belong to the containers. -/
theorem findBlockClose_eq (name : Text) (inText : stop ≤ count) (fuel : Nat) {next : Nat}
    (alike : ∀ number, next ≤ number → number < stop →
      other.isDedented number = scope.isDedented number) :
    findBlockClose md other name first stop fuel next =
      findBlockClose md scope name first stop fuel next := by
  induction fuel generalizing next with
  | zero => rfl
  | succ fuel ih =>
    rcases Nat.lt_or_ge next stop with inWindow | atEnd
    · have others := ih fun number behind => alike number (Nat.le_of_succ_le behind)
      rw [findBlockClose, findBlockClose, alike next (Nat.le_refl next) inWindow,
        hangs.content next (Nat.lt_of_lt_of_le inWindow inText), others,
        hangs.embedLines?_eq (Nat.le_trans inWindow inText)]
    · rw [findBlockClose_of_le _ atEnd, findBlockClose_of_le _ atEnd]

/-- The same markup begins a line where the same lines belong to the containers. -/
theorem embeddedBlock?_eq (inText : stop ≤ count) (inWindow : first < stop)
    (alike : ∀ number, first < number → number < stop →
      other.isDedented number = scope.isDedented number) :
    embeddedBlock? md other first stop = embeddedBlock? md scope first stop := by
  have content := hangs.content first (Nat.lt_of_lt_of_le inWindow inText)
  have isTag : openTagAt? md other first = openTagAt? md scope first := by
    rw [openTagAt?, openTagAt?, content]
  cases found : openTagAt? md scope first with
  | none =>
    rw [embeddedBlock?, embeddedBlock?, isTag, found]
    rfl
  | some tag =>
    have ends : markupEnd md other tag.name first stop = markupEnd md scope tag.name first stop :=
      by rw [markupEnd, markupEnd, content, hangs.findBlockClose_eq tag.name inText _ alike]
    have inside := (@markupEnd_bounds md scope first stop tag.name inWindow).2
    rw [ComponentMarkdown.embeddedBlock?_eq (isTag.trans found),
      ComponentMarkdown.embeddedBlock?_eq found, ends,
      hangs.embedLines?_eq (Nat.le_trans inside inText)]

end Scope.Hangs

/-- The search for a close tag passes over lines of the container only. -/
theorem inside_of_lt_findBlockClose {name : Text} {fuel next number : Nat} (behind : next ≤ number)
    (passed : number < (findBlockClose md scope name first stop fuel next).1) :
    scope.isDedented number = false := by
  induction fuel generalizing next with
  | zero => exact absurd passed (Nat.not_lt_of_le behind)
  | succ fuel ih =>
    rw [findBlockClose] at passed
    cases dedented : scope.isDedented next with
    | true =>
      rw [dedented, Bool.or_true, if_pos rfl] at passed
      exact absurd passed (Nat.not_lt_of_le behind)
    | false =>
      rcases Nat.eq_or_lt_of_le behind with rfl | further
      · exact dedented
      · have others := ih further
        split at passed
        · exact absurd passed (Nat.not_lt_of_le behind)
        · split at passed
          · split at passed
            · exact absurd passed (Nat.not_lt_of_le further)
            · exact others passed
          · exact others passed

/-- Embedded markup takes lines of the container only. -/
theorem inside_of_embeddedBlock? {code : Text} {number : Nat}
    (embeds : embeddedBlock? md scope first stop = some (.embedded code (first, stop)))
    (behind : first < number) (inText : number < stop) : scope.isDedented number = false := by
  cases found : openTagAt? md scope first with
  | none =>
    rw [embeddedBlock?, found] at embeds
    cases embeds
  | some tag =>
    rw [embeddedBlock?_eq found] at embeds
    obtain ⟨code', -, made⟩ := Option.map_eq_some_iff.mp embeds
    have ends : (markupEnd md scope tag.name first stop).1 = stop := congrArg (·.span.2) made
    unfold markupEnd at ends
    split at ends
    · dsimp only at ends
      omega
    · exact inside_of_lt_findBlockClose behind (ends ▸ inText)

/-! ## The scope of the item -/

/-- What the marker of the item leaves on its line. -/
def itemMarker (line : Text) : Marker :=
  ⟨none, '-', ' ' :: line⟩

/-- Two spaces in front of a line are two columns. -/
theorem strip_ofText_two (start : Nat) (text : Text) (ended : Bool) :
    (Line.ofText start (' ' :: ' ' :: text) ended).strip 2 = text := by
  have behind : Line.stripColumns 2 0 ((' ' :: ' ' :: text).takeWhile isSpaceOrTab) =
      (2, text.takeWhile isSpaceOrTab) := stripColumns_of_le (Nat.le_refl 2) _
  simp only [Line.strip, Line.ofText, behind]
  exact List.takeWhile_append_dropWhile

section

variable {ended : Bool} {behind : Text} {more : List Text}

/-- The document with the item. -/
def itemDocument (ended : Bool) (lines : List Text) : Scope :=
  Scope.ofSource (lineText ended (itemLines lines))

/-- What the blocks of the item see. -/
def embeddedItem (ended : Bool) (behind : Text) (more : List Text) : Scope :=
  BlockRun.insideItem (itemDocument ended (('<' :: behind) :: more)) 0 (itemMarker ('<' :: behind))

variable (ended) (markup : IsMarkup (('<' :: behind) :: more))
include markup

theorem size_itemDocument :
    (itemDocument ended (('<' :: behind) :: more)).lines.size = more.length + 1 := by
  have notEmpty : itemLines (('<' :: behind) :: more) ≠ [] := List.cons_ne_nil _ _
  rw [itemDocument, size_lineText ended notEmpty (not_mem_itemLines (by decide) markup.oneLine)
    (getLast?_itemLines markup.filled), length_itemLines]
  rfl

theorem size_embeddedItem : (embeddedItem ended behind more).lines.size = more.length + 1 :=
  Array.size_setIfInBounds.trans (size_itemDocument ended markup)

theorem unplaced_itemDocument {number : Nat}
    (inText : number < (itemLines (('<' :: behind) :: more)).length) :
    ((itemDocument ended (('<' :: behind) :: more)).line number).unplaced =
      Line.ofText 0 (itemLines (('<' :: behind) :: more))[number]
        (ended || decide (number + 1 < more.length + 1)) := by
  have here := unplaced_line_lineText ended (not_mem_itemLines (by decide) markup.oneLine)
    (getLast?_itemLines markup.filled) inText
  rwa [length_itemLines] at here

/-- The marker counts as indentation of the first line. -/
theorem unplaced_embeddedItem_zero :
    ((embeddedItem ended behind more).line 0).unplaced =
      ⟨0, ['-', ' '], '<' :: behind, 2, ended || decide (0 + 1 < more.length + 1)⟩ := by
  have inText : 0 < (itemDocument ended (('<' :: behind) :: more)).lines.size := by
    rw [size_itemDocument ended markup]
    exact Nat.succ_pos _
  have here := @unplaced_itemDocument ended _ _ markup 0 (Nat.succ_pos _)
  rw [embeddedItem, BlockRun.insideItem, Scope.line, Array.getElem?_setIfInBounds_self_of_lt inText,
    Option.getD_some, unplaced_itemLine, here]
  rfl

/-- The other lines of the item are those of the document. -/
theorem unplaced_embeddedItem_succ {number : Nat} (inText : number < more.length) :
    ((embeddedItem ended behind more).line (number + 1)).unplaced =
      Line.ofText 0 (itemTextLine more[number])
        (ended || decide (number + 1 + 1 < more.length + 1)) := by
  have inItem : number + 1 < (itemLines (('<' :: behind) :: more)).length := by
    rw [length_itemLines]
    exact Nat.succ_lt_succ inText
  have inScope : number + 1 < (embeddedItem ended behind more).lines.size := by
    rw [size_embeddedItem ended markup]
    exact Nat.succ_lt_succ inText
  have size : (embeddedItem ended behind more).lines.size =
      (itemDocument ended (('<' :: behind) :: more)).lines.size := Array.size_setIfInBounds
  have other : 0 ≠ number + 1 := (Nat.succ_ne_zero number).symm
  rw [Scope.line_congr size inScope (Array.getElem?_setIfInBounds_ne other),
    unplaced_itemDocument ended markup inItem]
  simp [itemLines]

theorem indent_embeddedItem : (embeddedItem ended behind more).indent = 2 := by
  have here := @unplaced_itemDocument ended _ _ markup 0 (Nat.succ_pos _)
  rw [embeddedItem, BlockRun.insideItem, ← itemIndent_unplaced, here]
  rfl

/-- Only an empty line is not indented far enough. -/
theorem isDedented_embeddedItem {number : Nat} (inText : number < more.length) :
    (embeddedItem ended behind more).isDedented (number + 1) = true ↔ more[number] = [] := by
  have here := unplaced_embeddedItem_succ ended markup inText
  have columns : ((embeddedItem ended behind more).line (number + 1)).columns =
      columnBehind 0 ((itemTextLine more[number]).takeWhile isSpaceOrTab) :=
    (congrArg Line.columns here :)
  rw [Scope.isDedented, columns, indent_embeddedItem ended markup, decide_eq_true_iff]
  unfold itemTextLine
  split
  · next nothing => exact ⟨fun _ => nothing, fun _ => by decide⟩
  · next something =>
    have indented : 2 ≤ columnBehind 0 ((' ' :: ' ' :: more[number]).takeWhile isSpaceOrTab) :=
      le_columnBehind 2 (more[number].takeWhile isSpaceOrTab)
    exact ⟨fun dedented => absurd dedented (by omega), fun nothing => absurd nothing something⟩

/-- The item sees the lines of the document behind its indentation. -/
theorem hangs_embeddedItem :
    (Scope.ofSource (lineText ended (('<' :: behind) :: more))).Hangs (more.length + 1)
      (embeddedItem ended behind more) := by
  have document := fun number =>
    @unplaced_line_lineText _ ended markup.oneLine markup.filled number
  have further : ∀ number (inText : number < more.length),
      (itemTextLine more[number]).dropWhile isSpaceOrTab = more[number].dropWhile isSpaceOrTab ∧
        (Line.ofText 0 (itemTextLine more[number])
          (ended || decide (number + 1 + 1 < more.length + 1))).strip 2 = more[number] := by
    intro number inText
    unfold itemTextLine
    split
    · next nothing => rw [nothing]; exact ⟨rfl, rfl⟩
    · exact ⟨rfl, strip_ofText_two _ _ _⟩
  -- The text of a line does not depend on its place.
  have strip : ∀ (line : Line) indent, line.strip indent = line.unplaced.strip indent :=
    fun _ _ => rfl
  have lineFeed : ∀ line : Line, line.lineFeed = line.unplaced.lineFeed := fun _ => rfl
  have content : ∀ (scope : Scope) number,
    scope.content number = (scope.line number).unplaced.content := fun _ _ => rfl
  constructor
  all_goals
    intro number inText
    have here := document number inText
  case content =>
    rw [content, content, here]
    cases number with
    | zero => rw [unplaced_embeddedItem_zero ended markup]; rfl
    | succ number =>
      have inMore := Nat.lt_of_succ_lt_succ inText
      rw [unplaced_embeddedItem_succ ended markup inMore]
      exact (further number inMore).1
  case strip =>
    rw [strip, strip _ (Scope.ofSource _).indent, here, indent_embeddedItem ended markup]
    refine Eq.trans ?_ (strip_ofText_zero _ _ _).symm
    cases number with
    | zero => rw [unplaced_embeddedItem_zero ended markup]; rfl
    | succ number =>
      have inMore := Nat.lt_of_succ_lt_succ inText
      rw [unplaced_embeddedItem_succ ended markup inMore]
      exact (further number inMore).2
  case lineFeed =>
    rw [lineFeed, lineFeed (Scope.line (Scope.ofSource _) _), here]
    cases number with
    | zero => rw [unplaced_embeddedItem_zero ended markup]; rfl
    | succ number =>
      rw [unplaced_embeddedItem_succ ended markup (Nat.lt_of_succ_lt_succ inText)]
      rfl

end

/-! ## The list -/

/-- The first rule that makes a block at a line with the marker is that of lists. -/
theorem findSome?_list {tree : ParseBlocks} {progress : Progress} {behind : Text}
    (shallow : scope.isDeeplyIndented first = false)
    (content : scope.content first = '-' :: ' ' :: '<' :: behind) {made : Made}
    (isMade : list? md tree scope progress first stop = some made) :
    (BlockRule.all.findSome? fun rule => runRule md tree rule scope progress first stop) =
      some made := by
  have code : runRule md tree .code scope progress first stop = none := by
    rw [runRule, indentedCode?, shallow]
    rfl
  have fence : runRule md tree .fence scope progress first stop = none := by
    rw [runRule, fence?, shallow, content]
    rfl
  have blockquote : runRule md tree .blockquote scope progress first stop = none := by
    rw [runRule, blockquote?, opensBlockquote, shallow, content]
    rfl
  have hr : runRule md tree .hr scope progress first stop = none := by
    have noMarks : breakMarks? ('-' :: ' ' :: '<' :: behind) = none := by
      have other : ('-' :: ' ' :: '<' :: behind).all (fun c => c == '-' || isSpaceOrTab c) =
          false := rfl
      rw [breakMarks?, other, Bool.and_false]
      rfl
    rw [runRule, hr?, shallow, content, noMarks]
    rfl
  rw [BlockRule.all, List.findSome?_cons, code, List.findSome?_cons, fence, List.findSome?_cons,
    blockquote, List.findSome?_cons, hr, List.findSome?_cons, runRule, isMade]

/-- A list begins with the item at its first line. -/
theorem exists_list? {tree : ParseBlocks} (progress : Progress) {marker : Marker}
    (shallow : scope.isDeeplyIndented first = false)
    (marked : Marker.of? (scope.content first) = some marker) (inWindow : first < stop) :
    let parsed := itemBlocks tree scope stop first marker
    ∃ body after items next,
      list? md tree scope progress first stop =
        some (.list marker.value marker.mark
          (.mk (marker.number.getD []) body (first, after) :: items) (first, next),
          { progress with line := next }) ∧
        (body = parsed.1 ∨ body = parsed.1.map Block.hideParagraph) := by
  intro parsed
  have begins : ∃ after others next tight,
      listItems md tree scope stop (stop - first + 1) first marker false =
        ⟨.mk (marker.number.getD []) parsed.1 (first, after) :: others, next, tight⟩ := by
    rw [listItems, if_neg (Nat.not_le_of_lt inWindow)]
    dsimp only
    split <;> exact ⟨_, _, _, _, rfl⟩
  obtain ⟨after, others, next, tight, found⟩ := begins
  let items := ListItem.mk (marker.number.getD []) parsed.1 (first, after) :: others
  have made : list? md tree scope progress first stop =
      some (.list marker.value marker.mark
        (if tight then items.map (·.tighten) else items) (first, next),
        { progress with line := next }) := by
    rw [list?, shallow, marked]
    show some _ = some _
    rw [found]
  rw [made]
  cases tight with
  | true => exact ⟨_, _, _, _, rfl, .inr rfl⟩
  | false => exact ⟨_, _, _, _, rfl, .inl rfl⟩

/-- The blocks of the item begin with that of its first line. -/
theorem exists_itemBlocks (chain : md.blockChain RuleTable.mainChain = BlockRule.all)
    (depth : Nat) (room : 3 ≤ md.maxNesting) (ended : Bool) {behind : Text} {more : List Text}
    (markup : IsMarkup (('<' :: behind) :: more)) :
    ∃ others, (itemBlocks (parseBlocks md (depth + 1))
        (itemDocument ended (('<' :: behind) :: more)) (more.length + 1) 0
        (itemMarker ('<' :: behind))).1 =
      markupBlock md (embeddedItem ended behind more) 0 (more.length + 1) :: others := by
  have here := unplaced_embeddedItem_zero ended markup
  have content : (embeddedItem ended behind more).content 0 = '<' :: behind :=
    (congrArg Line.content here :)
  have columns : ((embeddedItem ended behind more).line 0).columns = 2 :=
    (congrArg Line.columns here :)
  have indent := indent_embeddedItem ended markup
  have shallow : (embeddedItem ended behind more).isDeeplyIndented 0 = false := by
    rw [Scope.isDeeplyIndented, columns, indent]
    rfl
  have inside : (embeddedItem ended behind more).isDedented 0 = false := by
    rw [Scope.isDedented, columns, indent]
    rfl
  have notEmpty : (embeddedItem ended behind more).isEmpty 0 = false :=
    congrArg List.isEmpty content
  have hasLines : 0 < more.length + 1 := Nat.succ_pos _
  have made := @findSome?_markup md _ 0 (more.length + 1) (parseBlocks md depth) ⟨0, true⟩ shallow
    (content ▸ rfl)
  have takes := @takes_markupBlock md (embeddedItem ended behind more) 0 _ ⟨0, true⟩ hasLines
    (Nat.le_of_eq (size_embeddedItem ended markup).symm)
  exact exists_parseBlocks chain depth
    (show (embeddedItem ended behind more).level < md.maxNesting from room) hasLines notEmpty inside
    made takes.behind

/-- The blocks of a document with an item of markup, but for what is hidden. -/
theorem exists_parse_item (chain : md.blockChain RuleTable.mainChain = BlockRule.all)
    (room : 3 ≤ md.maxNesting) (ended : Bool) {behind : Text} {more : List Text}
    (markup : IsMarkup (('<' :: behind) :: more)) :
    ∃ block others after items next blocks,
      Block.parse md (lineText ended (itemLines (('<' :: behind) :: more))) =
        .list none '-' (.mk [] (block :: others) (0, after) :: items) (0, next) :: blocks ∧
      block.hideParagraph =
        (markupBlock md (embeddedItem ended behind more) 0 (more.length + 1)).hideParagraph := by
  obtain ⟨depth, enough⟩ := Nat.exists_eq_add_one_of_ne_zero (show md.maxNesting ≠ 0 by omega)
  have here := @unplaced_itemDocument ended _ _ markup 0 (Nat.succ_pos _)
  let scope := itemDocument ended (('<' :: behind) :: more)
  have content : scope.content 0 = '-' :: ' ' :: '<' :: behind := (congrArg Line.content here :)
  have columns : (scope.line 0).columns = 0 := (congrArg Line.columns here :)
  have shallow : scope.isDeeplyIndented 0 = false := Scope.not_isDeeplyIndented columns
  have notEmpty : scope.isEmpty 0 = false := congrArg List.isEmpty content
  have marked : Marker.of? (scope.content 0) = some (itemMarker ('<' :: behind)) := by
    rw [content]
    rfl
  have hasLines : 0 < more.length + 1 := Nat.succ_pos _
  obtain ⟨body, after, items, next, isList, isBody⟩ := @exists_list? md scope 0 (more.length + 1)
    (parseBlocks md md.maxNesting) {} _ shallow marked hasLines
  obtain ⟨others, begins⟩ := exists_itemBlocks chain depth room ended markup
  rw [← enough] at begins
  have made := findSome?_list shallow content isList
  have size : scope.lines.size = more.length + 1 := size_itemDocument ended markup
  have moved : 0 < next := by
    have takesLines := @takesLines_parseBlocks md (chain ▸ by decide) md.maxNesting
    exact (takes_list? takesLines (by omega) hasLines (Nat.le_of_eq size.symm) isList).behind
  have flat := isDedented_ofSource (lineText ended (itemLines (('<' :: behind) :: more))) 0
  obtain ⟨blocks, parsed⟩ := exists_parseBlocks chain md.maxNesting
    (Nat.lt_of_lt_of_le (Nat.succ_pos 2) room) hasLines notEmpty flat made moved
  have whole : Block.parse md (lineText ended (itemLines (('<' :: behind) :: more))) =
      .list none '-' (.mk [] body (0, after) :: items) (0, next) :: blocks := by
    rw [← size] at parsed
    exact parsed
  rcases isBody with same | hidden
  · rw [begins] at same
    exact ⟨_, _, _, _, _, _, same ▸ whole, rfl⟩
  · rw [begins, List.map_cons] at hidden
    refine ⟨_, _, _, _, _, _, hidden ▸ whole, ?_⟩
    cases markupBlock md (embeddedItem ended behind more) 0 (more.length + 1) <;> rfl

/-! ## The result -/

theorem InOrder.eq_nil {stop : Nat} {spans : List LineSpan} (inOrder : InOrder stop stop spans) :
    spans = [] := by
  cases spans with
  | nil => rfl
  | cons span spans =>
    obtain ⟨begins, notEmpty, others⟩ := inOrder
    exact absurd others.first_le_stop (by omega)

/-- The blocks of a text follow each other on its lines. -/
theorem inOrder_parse (paragraphs : .paragraph ∈ md.blockChain RuleTable.mainChain)
    (source : Text) :
    InOrder 0 (Scope.ofSource source).lines.size ((Block.parse md source).map Block.span) ∧
      ∀ block ∈ Block.parse md source, block.Spanned := by
  rcases Nat.eq_zero_or_pos (Scope.ofSource source).lines.size with noLines | hasLines
  · have nothing : Block.parse md source = [] := by
      unfold Block.parse parseScope
      dsimp only
      rw [parseBlocks_of_le md _ _ {} (Nat.le_of_eq noLines)]
    rw [nothing]
    exact ⟨Nat.zero_le _, List.forall_mem_nil _⟩
  · have takesLines := @takesLines_parseBlocks md paragraphs
    have ⟨all, _⟩ := takesLines (md.maxNesting + 1) (Scope.ofSource source) {} 0
      (Scope.ofSource source).lines.size hasLines (Nat.le_refl _) (by omega)
    exact ⟨all.inOrder.mono (Nat.le_refl 0) all.inText, all.spanned⟩

/-- Markup that takes all lines of the item is all there is. -/
theorem parse_item_eq (chain : md.blockChain RuleTable.mainChain = BlockRule.all)
    (room : 3 ≤ md.maxNesting) (ended : Bool) {behind : Text} {more : List Text}
    (markup : IsMarkup (('<' :: behind) :: more)) {code : Text}
    (embeds : markupBlock md (embeddedItem ended behind more) 0 (more.length + 1) =
      .embedded code (0, more.length + 1)) :
    Block.parse md (lineText ended (itemLines (('<' :: behind) :: more))) =
      [.list none '-' [.mk [] [.embedded code (0, more.length + 1)] (0, more.length + 1)]
        (0, more.length + 1)] := by
  obtain ⟨block, others, after, items, next, blocks, parsed, same⟩ :=
    exists_parse_item chain room ended markup
  rw [embeds] at same
  obtain rfl : block = .embedded code (0, more.length + 1) := by
    cases block with
    | paragraph => cases same
    | _ => exact same
  -- The blocks lie in the lines of the document, and the first one takes them all.
  have size := size_itemDocument ended markup
  have ⟨ordered, spanned⟩ := @inOrder_parse md (chain ▸ by decide)
    (lineText ended (itemLines (('<' :: behind) :: more)))
  rw [parsed] at ordered spanned
  rw [← itemDocument, size] at ordered
  obtain ⟨-, -, afterList⟩ := ordered
  cases spanned _ List.mem_cons_self with
  | plain isPlain => exact isPlain.elim
  | list number marker inOrder bodies inside =>
    obtain ⟨-, -, afterItem⟩ := inOrder
    obtain ⟨-, -, afterMarkup⟩ := bodies _ List.mem_cons_self
    have inItem : more.length + 1 ≤ after := afterMarkup.first_le_stop
    have inList : after ≤ next := afterItem.first_le_stop
    have inDocument : next ≤ more.length + 1 := afterList.first_le_stop
    obtain rfl : after = more.length + 1 := by omega
    obtain rfl : next = more.length + 1 := by omega
    rw [parsed, List.map_eq_nil_iff.mp afterList.eq_nil, List.map_eq_nil_iff.mp afterItem.eq_nil,
      List.map_eq_nil_iff.mp afterMarkup.eq_nil]

/-- The item holds the markup of the document if no line of it is empty. -/
theorem markupBlock_embeddedItem (ended : Bool) {behind : Text} {more : List Text}
    (markup : IsMarkup (('<' :: behind) :: more)) {code : Text}
    (embeds : markupBlock md (Scope.ofSource (lineText ended (('<' :: behind) :: more))) 0
      (more.length + 1) = .embedded code (0, more.length + 1)) :
    markupBlock md (embeddedItem ended behind more) 0 (more.length + 1) =
        .embedded code (0, more.length + 1) ↔ [] ∉ more := by
  rw [markupBlock_eq_embedded] at embeds ⊢
  have dedented := fun number => @isDedented_embeddedItem ended _ _ markup number
  constructor
  · intro embedded isLine
    obtain ⟨number, inText, nothing⟩ := List.getElem_of_mem isLine
    have inside := inside_of_embeddedBlock? embedded (Nat.succ_pos number)
      (Nat.succ_lt_succ inText)
    rw [(dedented number inText).mpr nothing] at inside
    cases inside
  · intro noEmpty
    rw [← embeds]
    refine (hangs_embeddedItem ended markup).embeddedBlock?_eq (Nat.le_refl _) (Nat.succ_pos _) ?_
    intro number behind inText
    obtain ⟨number, rfl⟩ := Nat.exists_eq_add_one_of_ne_zero (Nat.ne_of_gt behind)
    have inMore := Nat.lt_of_succ_lt_succ inText
    rw [isDedented_ofSource, ← Bool.not_eq_true, dedented number inMore]
    exact fun nothing => noEmpty (nothing ▸ List.getElem_mem inMore)

/-! ## Documents -/

/-- The tokens of a list with one item, which holds embedded markup and nothing else. -/
def itemTokens (code : Text) (count : Nat) : List Token :=
  encloseBlock (.bulletListOpen, .bulletListClose) "ul".toList 0 (0, count) ['-']
    (encloseBlock (.listItemOpen, .listItemClose) "li".toList 1 (0, count) ['-']
      [embeddedToken 2 code (0, count)])

theorem map_fillInline_eq_iff (md : Markdown) {tokens others : List Token}
    (notText : ∀ token ∈ others, token.kind ≠ .inline) :
    tokens.map md.fillInline = others ↔ tokens = others := by
  induction others generalizing tokens with
  | nil => exact List.map_eq_nil_iff
  | cons other others ih =>
    obtain ⟨first, rest⟩ := List.forall_mem_cons.mp notText
    cases tokens with
    | nil => exact ⟨nofun, nofun⟩
    | cons token tokens =>
      rw [List.map_cons, List.cons.injEq, List.cons.injEq, fillInline_eq_iff md first, ih rest]

theorem map_normalize_itemLines (lines : List Text) :
    (itemLines lines).map normalize = itemLines (lines.map normalize) := by
  cases lines with
  | nil => rfl
  | cons line lines =>
    rw [itemLines, List.map_cons, List.map_cons, itemLines, List.map_map, List.map_map]
    refine congrArg₂ List.cons rfl (List.map_congr_left fun text _ => ?_)
    simp only [Function.comp_apply, itemTextLine, normalize_eq_nil]
    split <;> rfl

theorem IsMarkup.normalize {lines : List Text} (markup : IsMarkup lines)
    (noReturn : ∀ line ∈ lines, '\r' ∉ line) : IsMarkup (lines.map normalize) where
  oneLine := List.forall_mem_map.mpr fun line member =>
    not_mem_normalize (noReturn line member) (markup.oneLine line member)
  begins := by
    obtain ⟨behind, more, rfl⟩ := markup.begins
    exact ⟨_, _, rfl⟩
  filled := by
    rw [List.getLast?_map]
    cases last : lines.getLast? with
    | none => exact nofun
    | some text =>
      rw [Option.map_some, ne_eq, Option.some_inj, normalize_eq_nil]
      rintro rfl
      exact markup.filled last

/-- The tokens of a document that is in its normal form. -/
theorem blocks_embedded_item (chain : md.blockChain RuleTable.mainChain = BlockRule.all)
    (keeps : md.KeepsChains) (room : 3 ≤ md.maxNesting) (ended : Bool) {lines : List Text}
    (markup : IsMarkup lines) {code : Text}
    (embedded : BlockRun.parse md (lineText ended lines) =
      [embeddedToken 0 code (0, lines.length)]) :
    BlockRun.parse md (lineText ended (itemLines lines)) = itemTokens code lines.length ↔
      [] ∉ lines := by
  obtain ⟨behind, more, rfl⟩ := markup.begins
  have first : [] ∉ ('<' :: behind) :: more ↔ [] ∉ more := by simp
  -- The block that begins the document takes all its lines.
  have root : markupBlock md (Scope.ofSource (lineText ended (('<' :: behind) :: more))) 0
      (more.length + 1) = .embedded code (0, more.length + 1) := by
    have split := splitLines_lineText ended (List.cons_ne_nil ('<' :: behind) more) markup.oneLine
    obtain ⟨others, parsed⟩ := exists_parse chain (Nat.le_trans (by decide) room) split rfl
    rw [BlockRun.parse_eq keeps, parsed, Block.allTokens,
      size_lineText ended (List.cons_ne_nil _ _) markup.oneLine markup.filled] at embedded
    exact head?_tokens_eq_embedded.mp (congrArg List.head? embedded)
  rw [first, ← markupBlock_embeddedItem ended markup root, BlockRun.parse_eq keeps]
  constructor
  · intro same
    obtain ⟨block, others, after, items, next, blocks, parsed, shown⟩ :=
      exists_parse_item chain room ended markup
    rw [parsed] at same
    have third := congrArg (fun tokens => (tokens.drop 2).head?) same
    simp only [Block.allTokens, Block.tokens, ListItem.allTokens, ListItem.tokens, adjustFirst,
      encloseBlock, List.cons_append, List.append_assoc, List.drop_succ_cons,
      List.drop_zero] at third
    rw [head?_tokens_eq_embedded.mp third] at shown
    cases made : markupBlock md (embeddedItem ended behind more) 0 (more.length + 1) with
    | paragraph => rw [made] at shown; cases shown
    | _ => rw [made] at shown; exact shown.symm
  · intro embeds
    rw [parse_item_eq chain room ended markup embeds]
    rfl

/-- A document that is one block of embedded markup is put into an item of a list: the item holds
the block with the same code and the same lines if and only if no line is empty. For any grammar of
tags and any transformer; the search for the close tag takes an empty line for one that is not
indented far enough. -/
theorem parse_itemLines (md : Markdown) (room : 3 ≤ md.maxNesting) (ended : Bool)
    {lines : List Text} (markup : IsMarkup lines) (noReturn : ∀ line ∈ lines, '\r' ∉ line)
    {code : Text} :
    let usual : Markdown := { md with blockRules := ⟨BlockRule.all.map BlockRule.entry⟩ }
    usual.parse (lineText ended lines) = [embeddedToken 0 code (0, lines.length)] →
      (usual.parse (lineText ended (itemLines lines)) = itemTokens code lines.length ↔
        [] ∉ lines) := by
  intro usual embedded
  have item := @blocks_embedded_item usual rfl (keepsChains_entries md _) room ended _
    (markup.normalize noReturn) code
  have absent : [] ∉ lines.map normalize ↔ [] ∉ lines := by
    simp only [List.mem_map, normalize_eq_nil, exists_eq_right]
  rw [List.length_map, absent] at item
  rw [Markdown.parse, map_fillInline_eq_iff _ (by simp [embeddedToken, blockToken]),
    normalize_lineText ended noReturn] at embedded
  rw [Markdown.parse, map_fillInline_eq_iff _ (by simp [itemTokens, encloseBlock, embeddedToken,
    blockToken]), normalize_lineText ended (not_mem_itemLines (by decide) noReturn),
    map_normalize_itemLines]
  exact item embedded

/-- An element with a line that is indented further. -/
theorem parse_itemLines_indented :
    lineText true (itemLines ["<A>".toList, "  b".toList, "</A>".toList]) =
        "- <A>\n    b\n  </A>\n".toList ∧
      Markdown.parse { transform := .ok }
          (lineText true ["<A>".toList, "  b".toList, "</A>".toList]) =
        [embeddedToken 0 "<A>\n  b\n</A>".toList (0, 3)] ∧
      Markdown.parse { transform := .ok }
          (lineText true (itemLines ["<A>".toList, "  b".toList, "</A>".toList])) =
        itemTokens "<A>\n  b\n</A>".toList 3 := by
  have markup : IsMarkup ["<A>".toList, "  b".toList, "</A>".toList] :=
    ⟨by decide, ⟨_, _, rfl⟩, by decide⟩
  have embedded : Markdown.parse { transform := .ok }
      (lineText true ["<A>".toList, "  b".toList, "</A>".toList]) =
        [embeddedToken 0 "<A>\n  b\n</A>".toList (0, 3)] := by rfl
  exact ⟨by decide, embedded,
    (parse_itemLines { transform := .ok } (by decide) true markup (by decide) embedded).mpr
      (by decide)⟩

/-- With an empty line there are two paragraphs in the item. -/
theorem parse_item_emptyLine :
    let md : Markdown := { transform := .createElement }
    let lines := ["<A>", "", "</A>"].map String.toList
    lineText true (itemLines lines) = "- <A>\n\n  </A>\n".toList ∧
      (md.parse (lineText true lines)).map (fun token => (token.kind, token.map, token.content)) =
        [(.embeddedBlock, some (0, 3), "createElement(A, null)".toList)] ∧
      (md.parse (lineText true (itemLines lines))).map
          (fun token => (token.kind, token.map, token.content)) =
        [(.bulletListOpen, some (0, 3), []), (.listItemOpen, some (0, 3), []),
          (.paragraphOpen, some (0, 1), []), (.inline, some (0, 1), "<A>".toList),
          (.paragraphClose, none, []), (.paragraphOpen, some (2, 3), []),
          (.inline, some (2, 3), "</A>".toList), (.paragraphClose, none, []),
          (.listItemClose, none, []), (.bulletListClose, none, [])] := by
  decide +kernel

end ComponentMarkdown
