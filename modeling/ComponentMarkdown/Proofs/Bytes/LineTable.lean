import ComponentMarkdown.Proofs.Block.Verbatim
import ComponentMarkdown.Proofs.Bytes.Lines

/-!
# The table of lines

The marks divide a text into lines, and the blocks of a document are put together from lines again.
The file has:

* `expandTabs`, in which the columns of indentation can be counted;
* `strip_eq_content` and `exists_strip`: a line without the first columns of its indentation;
* `LinesTile`: lines that follow each other without a gap, which can be parted at any line;
* `lineTable_ofSource`: what the marks of a text tell about it, and the text of any lines.
-/

namespace ComponentMarkdown

open Text Checked

/-! ## Columns -/

/-- Adds a character to a text, for a tab spaces up to the next multiple of four. -/
def addExpanded (out : Text) (c : Char) : Text :=
  if c == '\t' then out.rightpad (4 * (out.length / 4 + 1)) ' ' else out ++ [c]

/-- The text with spaces in the place of each tab. -/
def expandTabs (s : Text) : Text :=
  s.foldl addExpanded []

theorem nextColumn_length (out : Text) (c : Char) :
    nextColumn out.length c = (addExpanded out c).length := by
  unfold nextColumn addExpanded
  split
  · rw [List.length_rightpad]
    omega
  · rw [List.length_append, List.length_singleton]

theorem columnBehind_zero (s : Text) : columnBehind 0 s = (expandTabs s).length := by
  have all : ∀ out, columnBehind (List.length out) s = (s.foldl addExpanded out).length := by
    unfold columnBehind
    induction s with
    | nil => exact fun _ => rfl
    | cons c s ih =>
      intro out
      rw [List.foldl_cons, List.foldl_cons, nextColumn_length]
      exact ih _
  exact all []

theorem columnBehind_append (column : Nat) (s t : Text) :
    columnBehind column (s ++ t) = columnBehind (columnBehind column s) t :=
  List.foldl_append

theorem nextColumn_bounds (column : Nat) (c : Char) :
    column < nextColumn column c ∧ nextColumn column c ≤ column + 4 := by
  unfold nextColumn
  split <;> omega

theorem lt_columnBehind (column : Nat) {s : Text} (notEmpty : s ≠ []) :
    column < columnBehind column s := by
  cases s with
  | nil => exact absurd rfl notEmpty
  | cons c s =>
    exact Nat.lt_of_lt_of_le (nextColumn_bounds column c).1 (le_columnBehind _ s)

/-! ## Lines without some columns -/

/-- What is taken away ends at the first character that reaches the wanted column, or at the end. -/
theorem exists_stripColumns {wanted column : Nat} (s : Text) (near : column < wanted + 4) :
    ∃ front rest, s = front ++ rest ∧
      Line.stripColumns wanted column s = (columnBehind column front, rest) ∧
        (rest ≠ [] → wanted ≤ columnBehind column front) ∧
          columnBehind column front < wanted + 4 := by
  induction s generalizing column with
  | nil => exact ⟨[], [], rfl, rfl, fun more => absurd rfl more, near⟩
  | cons c s ih =>
    by_cases short : column < wanted
    · have near : nextColumn column c < wanted + 4 :=
        Nat.lt_of_le_of_lt (nextColumn_bounds column c).2 (Nat.add_lt_add_right short 4)
      obtain ⟨front, rest, isText, strips, reached, near⟩ := ih near
      rw [Line.stripColumns, if_pos short]
      exact ⟨c :: front, rest, congrArg (c :: ·) isText, strips, reached, near⟩
    · rw [Line.stripColumns, if_neg short]
      exact ⟨[], c :: s, rfl, rfl, fun _ => Nat.le_of_not_lt short, near⟩

variable {line : Line} {wanted : Nat}

/-- A line with no more indentation than is wanted. -/
theorem strip_eq_content (enough : columnBehind 0 line.indentation ≤ wanted) :
    line.strip wanted = line.content := by
  obtain ⟨front, rest, isText, strips, reached, -⟩ :=
    @exists_stripColumns wanted 0 line.indentation (by omega)
  have nothing : rest = [] := by
    by_contra more
    have beyond := lt_columnBehind (columnBehind 0 front) more
    rw [← columnBehind_append, ← isText] at beyond
    exact absurd (reached more) (by omega)
  rw [nothing, List.append_nil] at isText
  unfold Line.strip
  rw [strips, nothing, ← isText]
  dsimp only
  rw [Nat.sub_eq_zero_of_le enough]
  rfl

/-- A line with more indentation: spaces make up for a tab that is not wanted as a whole. -/
theorem exists_strip (more : wanted < columnBehind 0 line.indentation) :
    ∃ front rest excess, line.indentation = front ++ rest ∧ columnBehind 0 front = wanted + excess ∧
      excess < 4 ∧ line.strip wanted = spaces excess ++ rest ++ line.content := by
  obtain ⟨front, rest, isText, strips, reached, near⟩ :=
    @exists_stripColumns wanted 0 line.indentation (by omega)
  have enough : wanted ≤ columnBehind 0 front := by
    by_cases nothing : rest = []
    · rw [nothing, List.append_nil] at isText
      exact Nat.le_of_lt (isText ▸ more)
    · exact reached nothing
  refine ⟨front, rest, columnBehind 0 front - wanted, isText, by omega, by omega, ?_⟩
  unfold Line.strip
  rw [strips]

/-! ## Lines that follow each other -/

/-- The lines make up the text, which begins at a position: each but the last ends with a line feed,
and the next one begins behind it. -/
inductive LinesTile : Nat → List Line → Text → Prop
  | nothing {start : Nat} : LinesTile start [] []
  | last {start : Nat} {text : Text} (notEmpty : text ≠ []) (oneLine : '\n' ∉ text) :
      LinesTile start [Line.ofText start text false] text
  | next {start : Nat} {text more : Text} {lines : List Line} (oneLine : '\n' ∉ text)
      (others : LinesTile (start + text.length + 1) lines more) :
      LinesTile start (Line.ofText start text true :: lines) (text ++ '\n' :: more)

theorem linesTile_linesFrom (start : Nat) (s : Text) :
    LinesTile start (linesFrom start s.splitLines) s := by
  induction hlen : s.length using Nat.strongRecOn generalizing start s with
  | ind length ih =>
    by_cases isEmpty : s = []
    · rw [isEmpty]
      exact .nothing
    · rcases linesFrom_cases start isEmpty with
        ⟨single, oneLine⟩ | ⟨line, more, isText, oneLine, lines⟩
      · rw [single]
        exact .last isEmpty oneLine
      · rw [lines, isText]
        refine .next oneLine (ih more.length ?_ _ more rfl)
        rw [← hlen, isText, List.length_append, List.length_cons]
        omega

theorem linesTile_linesOf (source : Text) : LinesTile 0 (linesOf source) source :=
  linesTile_linesFrom 0 source

namespace LinesTile

variable {start count : Nat} {lines : List Line} {text : Text}

/-- The lines with their line feeds are the text. -/
theorem sourceOf_eq (tile : LinesTile start lines text) : sourceOf 0 true lines = text := by
  induction tile with
  | nothing => rfl
  | last _ _ =>
    rw [sourceOf_keepEnd_cons, strip_ofText_zero]
    simp [Line.lineFeed, Line.ofText, sourceOf]
  | next _ _ ih =>
    rw [sourceOf_keepEnd_cons, strip_ofText_zero, ih]
    simp [Line.lineFeed, Line.ofText]

/-- The lines may be parted at any one. -/
theorem split (tile : LinesTile start lines text) (inLines : count ≤ lines.length) :
    ∃ before behind, text = before ++ behind ∧ LinesTile start (lines.take count) before ∧
      LinesTile (start + before.length) (lines.drop count) behind := by
  induction tile generalizing count with
  | nothing =>
    obtain rfl : count = 0 := Nat.le_zero.mp inLines
    exact ⟨[], [], rfl, .nothing, .nothing⟩
  | @last start text notEmpty oneLine =>
    rcases Nat.le_one_iff_eq_zero_or_eq_one.mp inLines with rfl | rfl
    · exact ⟨[], text, rfl, .nothing, .last notEmpty oneLine⟩
    · exact ⟨text, [], (List.append_nil text).symm, .last notEmpty oneLine, .nothing⟩
  | @next start text more lines oneLine others ih =>
    cases count with
    | zero => exact ⟨[], text ++ '\n' :: more, rfl, .nothing, .next oneLine others⟩
    | succ count =>
      obtain ⟨before, behind, rfl, front, rest⟩ := ih (Nat.le_of_succ_le_succ inLines)
      have place : start + (text ++ '\n' :: before).length =
          start + text.length + 1 + before.length := by
        rw [List.length_append, List.length_cons]
        omega
      exact ⟨text ++ '\n' :: before, behind, by simp, .next oneLine front, place ▸ rest⟩

/-- The first line of several. -/
theorem head {line : Line} (tile : LinesTile start (line :: lines) text) :
    ∃ words behind ended, line = Line.ofText start words ended ∧ '\n' ∉ words ∧
      text = words ++ behind ∧ (behind = [] ∧ words ≠ [] ∧ lines = [] ∨
        ∃ more, behind = '\n' :: more ∧ LinesTile (start + words.length + 1) lines more) := by
  cases tile with
  | last notEmpty oneLine =>
    exact ⟨text, [], false, rfl, oneLine, (List.append_nil text).symm, .inl ⟨rfl, notEmpty, rfl⟩⟩
  | next oneLine others => exact ⟨_, _, true, rfl, oneLine, rfl, .inr ⟨_, rfl, others⟩⟩

end LinesTile

/-! ## Marks -/

section

variable {source before behind : Text} {number : Nat}

/-- The run before anything was read, with marks for the lines. -/
abbrev ByteRun.marked (source : Text) : ByteRun :=
  .ofRun source (BlockRun.ofSource source)

theorem line_ofSource (inText : number < (linesOf source).length) :
    (Scope.ofSource source).line number = (linesOf source)[number] :=
  Scope.line_eq_getElem _ inText

/-- A line begins behind all lines before it. Behind the last line, the text ends. -/
theorem member_begins (isSource : source = before ++ behind)
    (tile : LinesTile before.length ((linesOf source).drop number) behind)
    (inText : number ≤ (linesOf source).length) :
    member (ByteRun.marked source).marks.begins number = .ok (size before) := by
  rcases Nat.lt_or_eq_of_le inText with inText | rfl
  · have start : ((Scope.ofSource source).line number).start = before.length := by
      rw [line_ofSource inText]
      rw [List.drop_eq_getElem_cons inText] at tile
      generalize (linesOf source)[number] = line, List.drop (number + 1) _ = others at tile ⊢
      cases tile <;> rfl
    rw [ByteRun.begins_eq inText]
    exact congrArg Except.ok (offset_of_eq isSource start)
  · rw [List.drop_length] at tile
    cases tile
    rw [List.append_nil] at isSource
    rw [← isSource]
    exact ByteRun.member_atEnd (BlockRun.ofSource source) (fun line => offset source line.start)
      source.size

/-- What the marks of a line tell. -/
structure MarkedLine (source : Text) (run : ByteRun) (number : Nat) (indentation content : Text) :
    Prop where
  /-- The line stands between its marks. The next line begins behind a line feed, or the text ends
  with the line. -/
  place : ∃ before behind, source = before ++ (indentation ++ content ++ behind) ∧
    member run.marks.begins number = .ok (size before) ∧
    member run.marks.ends number = .ok (size before + size (indentation ++ content)) ∧
    (behind = [] ∧ indentation ++ content ≠ [] ∧ number + 1 = run.lineMax ∨
      ∃ more, behind = '\n' :: more ∧ member run.marks.begins (number + 1) =
        .ok (size before + size (indentation ++ content) + 1))
  oneLine : '\n' ∉ indentation ++ content
  blank : ∀ c ∈ indentation, isSpaceOrTab c = true
  begins : ∀ c ∈ content.head?, isSpaceOrTab c = false
  shift : member run.marks.shifts number = .ok (size indentation)
  columns : member run.marks.columns number = .ok ((expandTabs indentation).length : Int)
  /-- The line without at least as many columns as it has. -/
  whole : ∀ indent, (expandTabs indentation).length ≤ indent →
    run.getLines number (number + 1) indent false = .ok content
  /-- The line without fewer columns: the blanks in front of `rest` are taken away, and spaces make
  up for the columns that they take too many. -/
  part : ∀ indent, indent < (expandTabs indentation).length → ∃ front rest excess,
    indentation = front ++ rest ∧ (expandTabs front).length = indent + excess ∧ excess < 4 ∧
      run.getLines number (number + 1) indent false = .ok (spaces excess ++ rest ++ content)

/-- What the marks of a text tell: it is divided into lines, and one mark more of each kind stands
for its end. -/
structure LineTable (source : Text) (run : ByteRun) : Prop where
  sizes : run.marks.begins.size = run.lineMax + 1 ∧ run.marks.ends.size = run.lineMax + 1 ∧
    run.marks.shifts.size = run.lineMax + 1 ∧ run.marks.columns.size = run.lineMax + 1
  first : member run.marks.begins 0 = .ok 0
  atEnd : member run.marks.begins run.lineMax = .ok source.size ∧
    member run.marks.ends run.lineMax = .ok source.size ∧
    member run.marks.shifts run.lineMax = .ok 0 ∧ member run.marks.columns run.lineMax = .ok 0
  lines : ∀ number < run.lineMax, ∃ indentation content,
    MarkedLine source run number indentation content
  /-- The text of lines is what stands between their marks. -/
  between : ∀ first stop, first ≤ stop → stop ≤ run.lineMax → ∃ start behind text,
    member run.marks.begins first = .ok start ∧ member run.marks.begins stop = .ok behind ∧
      slice source start behind = .ok text ∧ run.getLines first stop 0 true = .ok text

theorem getLines_marked {first stop : Nat} (ordered : first ≤ stop)
    (inText : stop ≤ (linesOf source).length) (indent : Nat) (keepEnd : Bool) :
    (ByteRun.marked source).getLines first stop indent keepEnd =
      .ok ((Scope.ofSource source).source first stop indent keepEnd) :=
  @ByteRun.getLines_eq source (BlockRun.ofSource source) (liesIn_ofSource source) first stop ordered
    inText indent keepEnd

theorem getLines_single (inText : number < (linesOf source).length) (indent : Nat) :
    (ByteRun.marked source).getLines number (number + 1) indent false =
      .ok ((linesOf source)[number].strip indent) := by
  rw [getLines_marked (Nat.le_add_right number 1) inText, Scope.source, Nat.add_sub_cancel_left,
    List.range'_one, List.map_singleton, sourceOf, line_ofSource inText]
  exact congrArg Except.ok (List.append_nil _)

theorem markedLine_ofSource (inText : number < (linesOf source).length) :
    ∃ indentation content, MarkedLine source (.marked source) number indentation content := by
  obtain ⟨before, rest, isSource, -, tile⟩ :=
    (linesTile_linesOf source).split (Nat.le_of_lt inText)
  rw [Nat.zero_add] at tile
  have starts := member_begins isSource tile (Nat.le_of_lt inText)
  have inMarks : number < (BlockRun.ofSource source).lineCount := inText
  have stops : member (ByteRun.marked source).marks.ends number = _ := ByteRun.lineEnd_eq inMarks
  have shifts : member (ByteRun.marked source).marks.shifts number = _ := ByteRun.shifts_eq inMarks
  have columns : member (ByteRun.marked source).marks.columns number = _ :=
    ByteRun.columns_eq inMarks
  have lies := liesIn_ofSource source number inText
  have isLine : (BlockRun.ofSource source).scope.line number = _ := line_ofSource inText
  rw [isLine] at stops shifts columns
  rw [line_ofSource inText] at lies
  rw [List.drop_eq_getElem_cons inText] at tile
  have strips := getLines_single inText
  generalize (linesOf source)[number] = line at *
  obtain ⟨words, behind, ended, rfl, oneLine, rfl, next⟩ := tile.head
  have isText : words.takeWhile isSpaceOrTab ++ words.dropWhile isSpaceOrTab = words :=
    List.takeWhile_append_dropWhile
  have counted : (Line.ofText before.length words ended).columns =
      ((expandTabs (words.takeWhile isSpaceOrTab)).length : Int) :=
    congrArg Int.ofNat (columnBehind_zero _)
  refine ⟨words.takeWhile isSpaceOrTab, words.dropWhile isSpaceOrTab,
    ⟨before, behind, ?_, starts, ?_, ?_⟩, ?_, fun c => List.mem_takeWhile_imp,
    isSpaceOrTab_dropWhile words, ?_, columns.trans (congrArg Except.ok counted),
    fun indent enough => ?_, fun indent more => ?_⟩
  · rw [isText]
    exact isSource
  · rw [stops, isText, Line.stop_ofText, ← List.length_append, ← size_append]
    exact congrArg Except.ok (offset_of_eq (isSource.trans (List.append_assoc ..).symm) rfl)
  · rw [isText]
    rcases next with ⟨nothing, notEmpty, isLast⟩ | ⟨more, rfl, others⟩
    · have isEnd : (linesOf source).length ≤ number + 1 := List.drop_eq_nil_iff.mp isLast
      exact .inl ⟨nothing, notEmpty, Nat.le_antisymm inText isEnd⟩
    · have nextStarts := @member_begins source (before ++ words ++ ['\n']) more (number + 1)
        (by simp [isSource]) (by simpa [Nat.add_assoc] using others) inText
      have feed : size ['\n'] = 1 := by decide
      rw [size_append, size_append, feed] at nextStarts
      exact .inr ⟨more, rfl, nextStarts⟩
  · rw [isText]
    exact oneLine
  · have isAscii : ∀ c ∈ words.takeWhile isSpaceOrTab, c.toNat < 128 := lies.ascii
    rw [shifts, size_of_ascii isAscii]
    rfl
  · rw [← columnBehind_zero] at enough
    rw [strips]
    exact congrArg Except.ok (strip_eq_content enough)
  · rw [← columnBehind_zero] at more
    obtain ⟨front, left, excess, isFront, reached, near, stripped⟩ :=
      @exists_strip (Line.ofText before.length words ended) indent more
    refine ⟨front, left, excess, isFront, (columnBehind_zero front).symm.trans reached, near, ?_⟩
    rw [strips, stripped]
    rfl

theorem map_line_range' {first count : Nat} (inText : first + count ≤ (linesOf source).length) :
    (List.range' first count).map (Scope.ofSource source).line =
      ((linesOf source).drop first).take count := by
  induction count generalizing first with
  | zero => rfl
  | succ count ih =>
    have inLines : first < (linesOf source).length := by omega
    rw [List.range'_succ, List.map_cons, ih (by omega), List.drop_eq_getElem_cons inLines,
      List.take_succ_cons, line_ofSource inLines]

/-- The text of lines, with nothing taken away, is the text between their marks. -/
theorem getLines_between {first stop : Nat} (ordered : first ≤ stop)
    (inText : stop ≤ (linesOf source).length) : ∃ start behind text,
      member (ByteRun.marked source).marks.begins first = .ok start ∧
        member (ByteRun.marked source).marks.begins stop = .ok behind ∧
          slice source start behind = .ok text ∧
            (ByteRun.marked source).getLines first stop 0 true = .ok text := by
  have inLines : first ≤ (linesOf source).length := Nat.le_trans ordered inText
  obtain ⟨before, rest, isSource, -, tile⟩ := (linesTile_linesOf source).split inLines
  rw [Nat.zero_add] at tile
  have starts := member_begins isSource tile inLines
  have inRest : stop - first ≤ ((linesOf source).drop first).length := by
    rw [List.length_drop]
    omega
  obtain ⟨text, behind, rfl, middle, others⟩ := tile.split inRest
  rw [List.drop_drop, Nat.add_sub_cancel' ordered, ← List.length_append] at others
  have stops := member_begins (isSource.trans (List.append_assoc ..).symm) others inText
  rw [size_append] at stops
  refine ⟨_, _, text, starts, stops, slice_of_eq isSource rfl rfl, ?_⟩
  rw [getLines_marked ordered inText, Scope.source, map_line_range' (by omega), middle.sourceOf_eq]

/-- The marks of a text are made without a fault, and they tell what the text is: each line between
its marks, how far it is indented, and the text of any lines, without the first columns of them or
whole. The text of lines is the one that the scope of the text gives. -/
theorem lineTable_ofSource (source : Text) :
    ByteRun.ofSource source = .ok (.marked source) ∧
      LineTable source (.marked source) ∧
      ∀ first stop indent keepEnd, first ≤ stop → stop ≤ (ByteRun.marked source).lineMax →
        (ByteRun.marked source).getLines first stop indent keepEnd =
          .ok ((Scope.ofSource source).source first stop indent keepEnd) := by
  have count : (ByteRun.marked source).lineMax = (linesOf source).length := rfl
  have sizes {α : Type} (mark : Line → α) (atEnd : α) :
      (((linesOf source).toArray.map mark).push atEnd).size = (linesOf source).length + 1 := by
    rw [Array.size_push, Array.size_map]
    rfl
  refine ⟨ByteRun.ofSource_eq source, ⟨⟨?_, ?_, ?_, ?_⟩, ?_, ⟨?_, ?_, ?_, ?_⟩, ?_, ?_⟩, ?_⟩
  · exact sizes _ _
  · exact sizes _ _
  · exact sizes _ _
  · exact sizes _ _
  · exact @member_begins source [] source 0 rfl (linesTile_linesOf source) (Nat.zero_le _)
  · exact ByteRun.member_atEnd (BlockRun.ofSource source) _ _
  · exact ByteRun.member_atEnd (BlockRun.ofSource source) _ _
  · exact ByteRun.member_atEnd (BlockRun.ofSource source) _ _
  · exact ByteRun.member_atEnd (BlockRun.ofSource source) _ _
  · exact fun _ inText => markedLine_ofSource inText
  · exact fun _ _ ordered inText => getLines_between ordered inText
  · exact fun _ _ indent keepEnd ordered inText => getLines_marked ordered inText indent keepEnd

/-- A tab reaches from the first column to the fourth, and two columns are taken away. -/
theorem lineTable_overshoot :
    (ByteRun.marked "a\n \tb\n".toList).getLines 1 2 2 false = .ok "  b".toList := by
  have whole : (Scope.ofSource "a\n \tb\n".toList).source 1 2 2 false = "  b".toList := by decide
  rw [← whole]
  exact (lineTable_ofSource "a\n \tb\n".toList).2.2 1 2 2 false (by decide) (by decide)

end

end ComponentMarkdown
