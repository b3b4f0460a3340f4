import ComponentMarkdown.Compiler
import ComponentMarkdown.Proofs.Block.InPlace
import ComponentMarkdown.Proofs.Block.Shift
import ComponentMarkdown.Proofs.Block.TokenLines
import ComponentMarkdown.Proofs.Render.Indent
import ComponentMarkdown.Proofs.Text.LineEnding

/-!
# Texts of lines

The file has:

* `document`, the text of lines that all end, and the lines of this text;
* `lineText`, where the last line may be without its line feed;
* `parse_lineText`: a block of all lines is the only one;
* `stop_le_blocksFrom`: where no line is dedented, all lines up to the end are parsed.
-/

namespace ComponentMarkdown

/-! ## Documents -/

/-- The text of lines, each with its line feed. -/
def document (lines : List Text) : Text :=
  lines.flatMap (· ++ ['\n'])

theorem document_cons (line : Text) (lines : List Text) :
    document (line :: lines) = line ++ '\n' :: document lines := by
  rw [document, List.flatMap_cons, List.append_assoc]
  rfl

theorem splitLines_document_append {lines : List Text} (oneLine : ∀ line ∈ lines, '\n' ∉ line)
    (more : Text) : (document lines ++ more).splitLines = lines ++ Text.splitLines more := by
  induction lines with
  | nil => rfl
  | cons line lines ih =>
    obtain ⟨first, others⟩ := List.forall_mem_cons.mp oneLine
    rw [document_cons, List.append_assoc, List.cons_append, Text.splitLines_append first, ih others,
      List.cons_append]

theorem splitLines_document {lines : List Text} (oneLine : ∀ line ∈ lines, '\n' ∉ line) :
    (document lines).splitLines = lines ++ [[]] := by
  have ended := splitLines_document_append oneLine []
  rwa [List.append_nil] at ended

theorem document_splitLines (s : Text) : document s.splitLines = s ++ ['\n'] := by
  induction s with
  | nil => rfl
  | cons c s ih =>
    rw [Text.splitLines_line]
    split
    · next isBreak => rw [document_cons, ih, isBreak]; rfl
    · cases found : Text.splitLines s with
      | nil => exact absurd found (Text.splitLines_ne_nil s)
      | cons piece pieces =>
        rw [found, document_cons] at ih
        rw [document_cons, List.cons_append, ih, List.cons_append]

/-- A text that ends with a line feed is a document. -/
theorem exists_document {source : Text} (ended : source.getLast? = some '\n') :
    ∃ lines, (∀ line ∈ lines, '\n' ∉ line) ∧ source = document lines := by
  obtain ⟨front, rfl⟩ := List.getLast?_eq_some_iff.mp ended
  exact ⟨Text.splitLines front, Text.not_mem_splitLines front, (document_splitLines front).symm⟩

theorem unplaced_linesFrom (start : Nat) (lines : List Text) :
    (linesFrom start (lines ++ [[]])).map Line.unplaced =
      lines.map fun line => Line.ofText 0 line true := by
  induction lines generalizing start with
  | nil => rfl
  | cons line lines ih =>
    have more : linesFrom start (line :: lines ++ [[]]) =
        Line.ofText start line true :: linesFrom (start + line.length + 1) (lines ++ [[]]) := by
      cases lines <;> rfl
    rw [more, List.map_cons, ih, List.map_cons]
    rfl

/-- The lines of a document, but for their places. -/
theorem unplaced_document {lines : List Text} (oneLine : ∀ line ∈ lines, '\n' ∉ line) :
    (linesOf (document lines)).map Line.unplaced =
      lines.map fun line => Line.ofText 0 line true := by
  rw [linesOf, splitLines_document oneLine, unplaced_linesFrom]

theorem length_linesOf_document {lines : List Text} (oneLine : ∀ line ∈ lines, '\n' ∉ line) :
    (linesOf (document lines)).length = lines.length := by
  have lengths := congrArg List.length (unplaced_document oneLine)
  rwa [List.length_map, List.length_map] at lengths

theorem size_ofSource_document {lines : List Text} (oneLine : ∀ line ∈ lines, '\n' ∉ line) :
    (Scope.ofSource (document lines)).lines.size = lines.length :=
  length_linesOf_document oneLine

theorem getElem?_ofSource (source : Text) (number : Nat) :
    (Scope.ofSource source).lines[number]? = (linesOf source)[number]? :=
  List.getElem?_toArray

/-- A line of a document. -/
theorem unplaced_line_document {lines : List Text} (oneLine : ∀ line ∈ lines, '\n' ∉ line)
    {number : Nat} (inText : number < lines.length) :
    ((Scope.ofSource (document lines)).line number).unplaced =
      Line.ofText 0 lines[number] true := by
  have found := congrArg (·[number]?) (unplaced_document oneLine)
  rw [List.getElem?_map, List.getElem?_map, List.getElem?_eq_getElem inText,
    ← getElem?_ofSource, Option.map_some, Option.map_eq_some_iff] at found
  obtain ⟨line, isLine, same⟩ := found
  rw [Scope.line, isLine]
  exact same

/-! ## Texts of lines -/

/-- The text of lines, with the line feed behind the last one or without it. -/
def lineText (ended : Bool) (lines : List Text) : Text :=
  Text.join ['\n'] lines ++ if ended then ['\n'] else []

theorem splitLines_lineText (ended : Bool) {lines : List Text} (notEmpty : lines ≠ [])
    (oneLine : ∀ line ∈ lines, '\n' ∉ line) :
    (lineText ended lines).splitLines = lines ++ if ended then [[]] else [] := by
  have whole := Text.splitLines_join notEmpty oneLine
  unfold lineText
  cases ended with
  | false => rwa [if_neg Bool.false_ne_true, if_neg Bool.false_ne_true, List.append_nil,
      List.append_nil]
  | true =>
    rw [if_pos rfl, if_pos rfl, ← document_splitLines, whole]
    exact splitLines_document oneLine

theorem linesFrom_filled_cons (start : Nat) {text : Text} (filled : text ≠ []) (texts : List Text) :
    linesFrom start (text :: texts) =
      Line.ofText start text (!texts.isEmpty) :: linesFrom (start + text.length + 1) texts := by
  cases texts with
  | cons other texts => rfl
  | nil =>
    cases text with
    | nil => exact absurd rfl filled
    | cons c text => rfl

/-- A line of a text, but for its place. The last one must not be empty, for else it is none. -/
theorem unplaced_getElem?_linesFrom (start : Nat) {texts : List Text} {number : Nat} {text : Text}
    (found : texts[number]? = some text) (filled : text ≠ [] ∨ number + 1 < texts.length) :
    ((linesFrom start texts)[number]?).map Line.unplaced =
      some (Line.ofText 0 text (decide (number + 1 < texts.length))) := by
  induction texts generalizing start number with
  | nil => cases found
  | cons head texts ih =>
    cases texts with
    | nil =>
      obtain ⟨rfl, rfl⟩ : number = 0 ∧ head = text := by
        cases number with
        | zero => exact ⟨rfl, Option.some.inj found⟩
        | succ number => cases found
      rw [linesFrom_filled_cons start (filled.resolve_right (Nat.lt_irrefl 1))]
      rfl
    | cons next texts =>
      cases number with
      | zero =>
        cases found
        have more : 0 + 1 < (text :: next :: texts).length := by simp
        rw [decide_eq_true more]
        rfl
      | succ number =>
        have others := ih (start + head.length + 1) found (filled.imp_right Nat.lt_of_succ_lt_succ)
        rw [List.length_cons, decide_eq_decide.mpr Nat.add_lt_add_iff_right]
        exact others

/-- Texts are lines of their own if the last one is not empty. -/
theorem length_linesFrom (start : Nat) {texts : List Text} (filled : texts.getLast? ≠ some []) :
    (linesFrom start texts).length = texts.length := by
  induction texts generalizing start with
  | nil => rfl
  | cons text texts ih =>
    cases texts with
    | nil =>
      have notEmpty : text ≠ [] := by
        rintro rfl
        exact filled rfl
      rw [linesFrom_filled_cons start notEmpty]
      rfl
    | cons next texts =>
      have others := ih (start + text.length + 1) filled
      rw [List.length_cons, ← others]
      rfl

theorem size_lineText {lines : List Text} (ended : Bool) (notEmpty : lines ≠ [])
    (oneLine : ∀ line ∈ lines, '\n' ∉ line) (filled : lines.getLast? ≠ some []) :
    (Scope.ofSource (lineText ended lines)).lines.size = lines.length := by
  show (linesOf (lineText ended lines)).length = lines.length
  rw [linesOf, splitLines_lineText ended notEmpty oneLine]
  cases ended with
  | false =>
    rw [if_neg Bool.false_ne_true, List.append_nil]
    exact length_linesFrom 0 filled
  | true =>
    have lengths := congrArg List.length (unplaced_linesFrom 0 lines)
    rwa [List.length_map, List.length_map] at lengths

theorem unplaced_line_lineText {lines : List Text} (ended : Bool)
    (oneLine : ∀ line ∈ lines, '\n' ∉ line)
    (filled : lines.getLast? ≠ some []) {number : Nat} (inText : number < lines.length) :
    ((Scope.ofSource (lineText ended lines)).line number).unplaced =
      Line.ofText 0 lines[number] (ended || decide (number + 1 < lines.length)) := by
  have notEmpty : lines ≠ [] := List.ne_nil_of_length_pos (Nat.zero_lt_of_lt inText)
  have split := splitLines_lineText ended notEmpty oneLine
  have found : (lineText ended lines).splitLines[number]? = some lines[number] := by
    rw [split, List.getElem?_append_left inText, List.getElem?_eq_getElem inText]
  have more : decide (number + 1 < (lineText ended lines).splitLines.length) =
      (ended || decide (number + 1 < lines.length)) := by
    rw [split]
    cases ended <;> simp [inText]
  have isLine : lines[number] ≠ [] ∨ number + 1 < (lineText ended lines).splitLines.length := by
    rw [← decide_eq_true_iff (p := number + 1 < _), more, Bool.or_eq_true, decide_eq_true_iff]
    by_cases last : number + 1 < lines.length
    · exact .inr (.inr last)
    · left
      intro nothing
      rw [List.getLast?_eq_getElem?, show lines.length - 1 = number by omega,
        List.getElem?_eq_getElem inText, nothing] at filled
      exact filled rfl
  have placed := unplaced_getElem?_linesFrom 0 found isLine
  rw [more, Option.map_eq_some_iff] at placed
  obtain ⟨line, isPlaced, same⟩ := placed
  rw [Scope.line, getElem?_ofSource, linesOf, isPlaced]
  exact same

/-- A line that begins with its content has no indentation. -/
theorem ofText_shown (start : Nat) {text : Text} {c : Char} (begins : text.head? = some c)
    (shown : isSpaceOrTab c = false) (ended : Bool) :
    Line.ofText start text ended = ⟨start, [], text, 0, ended⟩ := by
  obtain ⟨rest, rfl⟩ := List.head?_eq_some_iff.mp begins
  have hidden : ¬isSpaceOrTab c = true := by simp [shown]
  rw [Line.ofText, List.takeWhile_cons_of_neg hidden, List.dropWhile_cons_of_neg hidden]
  rfl

theorem strip_zero {line : Line} : line.strip 0 = line.indentation ++ line.content := by
  unfold Line.strip
  cases line.indentation <;> rfl

theorem stripColumns_of_le {wanted column : Nat} (reached : wanted ≤ column) (s : Text) :
    Line.stripColumns wanted column s = (column, s) := by
  cases s with
  | nil => rfl
  | cons c s => rw [Line.stripColumns, if_neg (Nat.not_lt_of_le reached)]

theorem strip_ofText_zero (start : Nat) (text : Text) (ended : Bool) :
    (Line.ofText start text ended).strip 0 = text := by
  rw [strip_zero]
  exact List.takeWhile_append_dropWhile

theorem le_columnBehind (column : Nat) (s : Text) : column ≤ columnBehind column s := by
  induction s generalizing column with
  | nil => exact Nat.le_refl column
  | cons c s ih =>
    have further : column ≤ nextColumn column c := by
      unfold nextColumn
      split <;> omega
    exact Nat.le_trans further (ih (nextColumn column c))

theorem normalize_join {lines : List Text} (noReturn : ∀ line ∈ lines, '\r' ∉ line)
    (more : Text) :
    normalize (Text.join ['\n'] lines ++ more) =
      Text.join ['\n'] (lines.map normalize) ++ normalize more := by
  induction lines with
  | nil => rfl
  | cons line lines ih =>
    obtain ⟨first, others⟩ := List.forall_mem_cons.mp noReturn
    cases lines with
    | nil => exact normalize_append first more
    | cons next lines =>
      rw [List.map_cons, List.map_cons, Text.join_cons _ _ (List.cons_ne_nil _ _),
        Text.join_cons _ _ (List.cons_ne_nil _ _), List.append_assoc, List.append_assoc,
        normalize_append first, ← List.map_cons, List.append_assoc, List.append_assoc, ← ih others]
      rfl

theorem normalize_lineText (ended : Bool) {lines : List Text}
    (noReturn : ∀ line ∈ lines, '\r' ∉ line) :
    normalize (lineText ended lines) = lineText ended (lines.map normalize) := by
  rw [lineText, normalize_join noReturn]
  cases ended <;> rfl

/-- Lines in which nothing is replaced are a normal text. -/
theorem normalize_lineText_of_isLine (ended : Bool) {lines : List Text}
    (each : ∀ line ∈ lines, IsLine line) :
    normalize (lineText ended lines) = lineText ended lines := by
  have same : lines.map normalize = lines :=
    (List.map_congr_left fun line member => (each line member).normalize_eq).trans (List.map_id _)
  rw [normalize_lineText ended fun line member isReturn => (each line member _ isReturn).2.1 rfl,
    same]

/-! ## The end of parsing -/

/-- A line without indentation is not code. -/
theorem Scope.not_isDeeplyIndented {scope : Scope} {number : Nat}
    (columns : (scope.line number).columns = 0) : scope.isDeeplyIndented number = false := by
  rw [isDeeplyIndented, columns, decide_eq_false_iff_not]
  omega

theorem Scope.skipEmpty_eq {scope : Scope} {number : Nat}
    (notEmpty : scope.isEmpty number = false) : scope.skipEmpty number = number := by
  unfold skipEmpty
  cases scope.lines.size with
  | zero => rfl
  | succ fuel =>
    rw [skipEmptyUpTo, notEmpty, Bool.and_false]
    rfl

/-- A block at the first line that takes all lines up to the end is the only one. -/
theorem blocksFrom_single {md : Markdown} {scope : Scope} {run : Progress → Nat → Option Made}
    (room : scope.level < md.maxNesting) {first : Nat} (notEmpty : scope.isEmpty first = false)
    (notDedented : scope.isDedented first = false) {block : Block} {behind : Progress}
    (tight : Bool) (made : run ⟨first, tight⟩ first = some (block, behind))
    (inWindow : first < behind.line) (fuel : Nat) (sawEmpty : Bool) :
    (blocksFrom md run scope behind.line (fuel + 1) ⟨first, tight⟩ first sawEmpty).1 = [block] := by
  have here := scope.skipEmpty_eq notEmpty
  have loop := @blocksFrom_made md scope behind.line run first room (here.symm ▸ inWindow)
    (here.symm ▸ notDedented) ⟨first, tight⟩ block behind (here.symm ▸ made) (here.symm ▸ inWindow)
    fuel sawEmpty
  rw [loop, blocksFrom_of_le (scope.le_goesOn behind.line behind.line)]

/-- A block that the usual rules make of all lines of a text is the only one. -/
theorem parse_single {md : Markdown} (chain : md.blockChain RuleTable.mainChain = BlockRule.all)
    (room : 1 ≤ md.maxNesting) {source : Text}
    (notEmpty : (Scope.ofSource source).isEmpty 0 = false) {count : Nat}
    (size : (Scope.ofSource source).lines.size = count) (positive : 0 < count) {block : Block}
    (made : (BlockRule.all.findSome? fun rule => runRule md (parseBlocks md md.maxNesting) rule
      (Scope.ofSource source) {} 0 count) = some (block.made {}))
    (all : block.span.2 = count) : Block.parse md source = [block] := by
  subst size
  have single := @blocksFrom_single md (Scope.ofSource source) (fun progress first =>
      BlockRule.all.findSome? fun rule => runRule md (parseBlocks md md.maxNesting) rule
        (Scope.ofSource source) progress first (Scope.ofSource source).lines.size)
    room 0 notEmpty (isDedented_ofSource source 0) _ _ false made (all.symm ▸ positive)
    (Scope.ofSource source).lines.size false
  dsimp only at single
  rw [all, ← chain] at single
  exact single

/-- The tokens of lines that are a single block. -/
theorem parse_lineText {md : Markdown} (chain : md.blockChain RuleTable.mainChain = BlockRule.all)
    (keeps : md.KeepsChains) (room : 1 ≤ md.maxNesting) (ended : Bool) {lines : List Text}
    (each : ∀ line ∈ lines, IsLine line) (filled : lines.getLast? ≠ some [])
    (shown : (Scope.ofSource (lineText ended lines)).isEmpty 0 = false) {block : Block}
    (made : (BlockRule.all.findSome? fun rule => runRule md (parseBlocks md md.maxNesting) rule
      (Scope.ofSource (lineText ended lines)) {} 0 lines.length) = some (block.made {}))
    (all : block.span.2 = lines.length) :
    md.parse (lineText ended lines) = (block.tokens 0).map md.fillInline := by
  have notEmpty : lines ≠ [] := by
    rintro rfl
    cases ended <;> exact absurd shown (by decide)
  have size := size_lineText ended notEmpty (fun line member => (each line member).noFeed) filled
  have parsed := parse_single chain room shown size (List.length_pos_iff.mpr notEmpty) made all
  rw [Markdown.parse, normalize_lineText_of_isLine ended each, BlockRun.parse_eq keeps, parsed,
    Block.allTokens, Block.allTokens, List.append_nil]

/-- Where no line is dedented, blocks are parsed up to the end. -/
theorem stop_le_blocksFrom {md : Markdown} {scope : Scope} {stop : Nat}
    {run : Progress → Nat → Option Made} (makes : MakesBlocks md scope stop run)
    (flat : ∀ number, scope.isDedented number = false) (fuel : Nat) {next : Nat}
    (enough : stop - next < fuel) (tight sawEmpty : Bool) :
    stop ≤ (blocksFrom md run scope stop fuel ⟨next, tight⟩ next sawEmpty).2.line := by
  induction fuel generalizing next tight sawEmpty with
  | zero => exact absurd enough (Nat.not_lt_zero _)
  | succ fuel ih =>
    by_cases inWindow : next < stop
    · rcases blocksFrom_cases makes inWindow fuel ⟨next, tight⟩ sawEmpty with
        ⟨-, line, ends | dedented⟩ | ⟨-, line, -⟩ | made
      · exact line ▸ ends
      · rw [flat] at dedented
        cases dedented
      · exact Nat.le_of_eq line.symm
      · obtain ⟨block, behind, after, tight, sawEmpty, -, takes, -, goesOn, same⟩ := made
        have moved := takes.behind
        have skips := scope.le_skipEmpty next
        dsimp only at moved
        rw [same]
        exact ih (by omega) tight sawEmpty
    · rw [blocksFrom_of_le (Nat.le_of_not_lt inWindow)]
      exact Nat.le_of_not_lt inWindow

/-- All lines of a text are parsed. -/
theorem line_parseScope {md : Markdown}
    (paragraphs : .paragraph ∈ md.blockChain RuleTable.mainChain) (source : Text) :
    let scope := Scope.ofSource source
    (parseScope md scope {} 0 scope.lines.size).2.line = scope.lines.size := by
  intro scope
  have flat : ∀ number, scope.isDedented number = false := isDedented_ofSource source
  have levels : md.maxNesting ≤ scope.level + (md.maxNesting + 1) := by omega
  rcases Nat.eq_zero_or_pos scope.lines.size with noLines | hasLines
  · rw [parseScope, parseBlocks_of_le md _ scope {} (Nat.le_of_eq noLines), noLines]
  · have takesLines := @takesLines_parseBlocks md paragraphs
    have ⟨all, _⟩ := takesLines (md.maxNesting + 1) scope {} 0 scope.lines.size hasLines
      (Nat.le_refl _) (by omega)
    have makes := makesBlocks_rules (takesLines md.maxNesting) paragraphs levels (Nat.le_refl _)
    exact Nat.le_antisymm all.inText (stop_le_blocksFrom makes flat _ (by omega) false false)

end ComponentMarkdown
