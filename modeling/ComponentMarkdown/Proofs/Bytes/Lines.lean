import ComponentMarkdown.Proofs.Block.Lines
import ComponentMarkdown.Proofs.Bytes.Marks
import ComponentMarkdown.Proofs.Render.Indent

/-!
# Lines and their marks

The lines of a run lie in the text, so that the marks of one tell what the line is. The file has:

* `Line.LiesIn` for a line in a text, and `ByteRun.ofRun`, the run with marks for lines;
* the questions about a line, and `getLines_eq` for the text of several lines;
* `setMarks_eq` and `restoreMarks_eq`: other marks are the marks of other lines;
* `ofSource_eq` and `liesIn_ofSource` for the lines of a text.
-/

namespace ComponentMarkdown

open Text Checked

/-! ## Lines in a text -/

/-- The line is part of the text: ASCII in front of content that begins with no blank. -/
structure Line.LiesIn (source : Text) (line : Line) : Prop where
  place : ∃ before behind, before.length = line.start ∧
    source = before ++ (line.indentation ++ (line.content ++ (line.lineFeed ++ behind))) ∧
    (line.ended = false → behind = [])
  ascii : ∀ c ∈ line.indentation, c.toNat < 128
  begins : ∀ c ∈ line.content.head?, isSpaceOrTab c = false

/-- All lines of the scope are part of the text. -/
def Scope.LiesIn (source : Text) (scope : Scope) : Prop :=
  ∀ number, number < scope.lines.size → (scope.line number).LiesIn source

theorem Scope.liesIn_of_lines {source : Text} {scope other : Scope}
    (same : scope.lines = other.lines) (lies : other.LiesIn source) : scope.LiesIn source := by
  obtain ⟨lines, indent, parent, level⟩ := scope
  obtain rfl : lines = other.lines := same
  exact lies

/-- The marks of lines, and of the end of the text as one more line. -/
def LineMarks.ofLines (source : Text) (lines : Array Line) : LineMarks where
  begins := (lines.map fun line => offset source line.start).push source.size
  ends := (lines.map fun line => offset source line.stop).push source.size
  shifts := (lines.map fun line => line.indentation.length).push 0
  columns := (lines.map fun line => line.columns).push 0

/-- A run with marks for lines. -/
def ByteRun.ofRun (source : Text) (run : BlockRun) : ByteRun where
  source
  marks := .ofLines source run.scope.lines
  lineMax := run.lineCount
  indent := run.scope.indent
  parent := run.scope.parent
  level := run.scope.level
  progress := run.progress
  tokens := run.tokens

namespace ByteRun

@[simp] theorem source_ofRun (source : Text) (run : BlockRun) :
    (ofRun source run).source = source := rfl

theorem setIndent_ofRun (source : Text) (run : BlockRun) (indent : Nat) :
    (ofRun source run).setIndent indent = ofRun source (run.setIndent indent) := rfl

theorem setParent_ofRun (source : Text) (run : BlockRun) (parent : Parent) :
    (ofRun source run).setParent parent = ofRun source (run.setParent parent) := rfl

theorem setTight_ofRun (source : Text) (run : BlockRun) (tight : Bool) :
    (ofRun source run).setTight tight = ofRun source (run.setTight tight) := rfl

theorem add_ofRun (source : Text) (run : BlockRun) (token : Token) :
    (ofRun source run).add token = ofRun source (run.add token) := rfl

theorem setMap_eq {source : Text} {run : BlockRun} {index : Nat}
    (inTokens : index < run.tokens.length)
    (span : LineSpan) :
    (ofRun source run).setMap index span = .ok (ofRun source (run.setMap index span)) :=
  if_pos inTokens

end ByteRun

theorem Text.asciiOnly_isSpaceOrTab : AsciiOnly isSpaceOrTab :=
  (asciiOnly_beq (by decide)).or (asciiOnly_beq (by decide))

namespace Line.LiesIn

variable {source : Text} {line : Line}

theorem stop_le (lies : line.LiesIn source) : line.stop ≤ source.length := by
  obtain ⟨before, behind, isStart, isSource, -⟩ := lies.place
  have lengths := congrArg List.length isSource
  simp only [List.length_append] at lengths
  unfold Line.stop
  omega

/-- The byte behind the indentation is the byte of the content. -/
theorem offset_content (lies : line.LiesIn source) :
    offset source line.start + line.indentation.length =
      offset source (line.start + line.indentation.length) := by
  obtain ⟨before, behind, isStart, isSource, -⟩ := lies.place
  rw [offset_of_eq isSource isStart.symm, ← isStart, ← List.length_append,
    offset_of_eq (isSource.trans (List.append_assoc ..).symm) rfl, size_append,
    size_of_ascii lies.ascii]

theorem offset_stop (lies : line.LiesIn source) :
    offset source line.stop =
      offset source line.start + line.indentation.length + size line.content := by
  obtain ⟨before, behind, isStart, isSource, -⟩ := lies.place
  rw [lies.offset_content, ← isStart, ← List.length_append,
    offset_of_eq (isSource.trans (List.append_assoc ..).symm) rfl, ← size_append]
  refine offset_of_eq (t := line.lineFeed ++ behind) ?_ ?_
  · rw [isSource]
    simp only [List.append_assoc]
  · simp only [List.length_append, isStart]
    rfl

/-- The bytes of the line. -/
theorem ahead (lies : line.LiesIn source) :
    Ahead source.bytes (offset source line.start) (offset source line.stop)
      (line.indentation ++ bytes line.content) := by
  obtain ⟨before, behind, isStart, isSource, -⟩ := lies.place
  have found := Ahead.of_append before (line.indentation ++ line.content) (line.lineFeed ++ behind)
  rw [List.append_assoc, ← isSource, size_append, size_of_ascii lies.ascii, bytes_append,
    bytes_of_ascii lies.ascii, ← Nat.add_assoc] at found
  rwa [lies.offset_stop, offset_of_eq isSource isStart.symm]

/-- The bytes of the content. -/
theorem ahead_content (lies : line.LiesIn source) :
    Ahead source.bytes (offset source line.start + line.indentation.length)
      (offset source line.stop) (bytes line.content) :=
  lies.ahead.append

/-- A line without content ends where its content begins. -/
theorem isEmpty_eq (lies : line.LiesIn source) :
    decide (offset source line.stop ≤ offset source line.start + line.indentation.length) =
      line.isEmpty := by
  rw [lies.offset_stop]
  unfold Line.isEmpty
  cases line.content with
  | nil => exact decide_eq_true (Nat.le_refl _)
  | cons c content =>
    have positive := length_le_size (c :: content)
    rw [List.length_cons] at positive
    exact decide_eq_false (by omega)

/-- A part of the content. -/
theorem slice_part (lies : line.LiesIn source) {front found rest : Text}
    (isContent : line.content = front ++ (found ++ rest)) :
    slice source (offset source line.start + line.indentation.length + size front)
      (offset source line.start + line.indentation.length + size front + size found) =
        .ok found := by
  obtain ⟨before, behind, isStart, isSource, -⟩ := lies.place
  refine @slice_of_eq _ (before ++ (line.indentation ++ front)) _
    (rest ++ (line.lineFeed ++ behind)) _ _ ?_ ?_ ?_
  · rw [isSource, isContent]
    simp only [List.append_assoc]
  · rw [offset_of_eq isSource isStart.symm, size_append, size_append, size_of_ascii lies.ascii,
      Nat.add_assoc]
  · rw [offset_of_eq isSource isStart.symm, size_append, size_append, size_of_ascii lies.ascii,
      ← Nat.add_assoc (size before)]

/-- The content from a character on. -/
theorem slice_rest (lies : line.LiesIn source) {front found : Text}
    (isContent : line.content = front ++ found) :
    slice source (offset source line.start + line.indentation.length + size front)
      (offset source line.stop) = .ok found := by
  have sliced := lies.slice_part (show line.content = front ++ (found ++ []) by
    rw [isContent, List.append_nil])
  rwa [Nat.add_assoc _ (size front), ← size_append, ← isContent, ← lies.offset_stop] at sliced

/-- The text of the content. -/
theorem slice_content (lies : line.LiesIn source) :
    slice source (offset source line.start + line.indentation.length) (offset source line.stop) =
      .ok line.content :=
  @slice_rest _ _ lies [] _ rfl

/-- The byte where the content begins, if the text goes on there. A line feed is no other mark. -/
theorem getElem?_content (lies : line.LiesIn source) {mark : Char} (isAscii : mark.toNat < 128)
    (notFeed : mark ≠ '\n') :
    (source.bytes[offset source line.start + line.indentation.length]? == some mark) =
      (line.content.head? == some mark) := by
  obtain ⟨before, behind, isStart, isSource, atEnd⟩ := lies.place
  have same : source = (before ++ line.indentation) ++
      ((line.content ++ (line.lineFeed ++ behind)) ++ []) := by
    rw [isSource, List.append_nil, List.append_assoc]
  have found := Ahead.of_append (before ++ line.indentation)
    (line.content ++ (line.lineFeed ++ behind)) []
  rw [← same, ← size_append, List.append_assoc, ← isSource, size_append,
    size_of_ascii lies.ascii, ← offset_of_eq isSource isStart.symm] at found
  rw [show _ = _ from found.getElem?, head?_bytes]
  cases line.content with
  | cons c content =>
    show (some (lead c) == some mark) = (some c == some mark)
    rw [Option.some_beq_some, Option.some_beq_some, lead_beq isAscii]
  | nil =>
    show (((line.lineFeed ++ behind).head?.map lead) == some mark) = false
    unfold Line.lineFeed
    cases ended : line.ended with
    | true =>
      show (some (lead '\n') == some mark) = false
      rw [lead_of_ascii (by decide), Option.some_beq_some]
      exact beq_eq_false_iff_ne.mpr notFeed.symm
    | false =>
      rw [atEnd ended]
      rfl

end Line.LiesIn

/-! ## Columns -/

namespace Checked

theorem columnAfter_eq (column : Nat) (c : Char) : columnAfter column c = .ok (nextColumn column c)
    := by
  unfold columnAfter nextColumn
  split
  · rw [minus_of_le (Nat.le_of_lt (Nat.mod_lt _ (by decide)))]
    rfl
  · rfl

theorem skipColumns_eq {α : Type} {after : α → Char → Checked α} {next : α → Char → α}
    (steps : ∀ column c, after column c = .ok (next column c)) {b w : Text} {max i : Nat}
    (ahead : Ahead b i max w) (column : α) :
    skipColumns after b max i column =
      .ok (i + (w.takeWhile isSpaceOrTab).length,
        (w.takeWhile isSpaceOrTab).foldl next column) := by
  induction w generalizing i column with
  | nil =>
    rw [skipColumns, if_neg (Nat.not_lt.mpr (Nat.le_of_eq ahead.nil))]
    rfl
  | cons c w ih =>
    rw [skipColumns, if_pos ahead.lt, ahead.byteAt, ok_bind, List.takeWhile_cons, steps, ok_bind]
    cases isSpaceOrTab c with
    | false => rfl
    | true =>
      rw [if_pos rfl, if_pos rfl, ih ahead.tail, List.length_cons, Nat.add_right_comm]
      rfl

/-- The columns of the indentation go, as far as they are wanted. -/
theorem stripIndent_eq {b indentation rest : Text} {lineStart shift wanted last first : Nat}
    (isShift : first + indentation.length = lineStart + shift) (behind : lineStart ≤ first)
    (begins : ∀ c ∈ rest.head?, isSpaceOrTab c = false)
    (ahead : Ahead b first last (indentation ++ rest)) (column : Nat) :
    stripIndent b lineStart shift wanted last first column =
      .ok (lineStart + shift - (Line.stripColumns wanted column indentation).2.length,
        (Line.stripColumns wanted column indentation).1) := by
  induction indentation generalizing first column with
  | nil =>
    have place : first = lineStart + shift := isShift
    unfold Line.stripColumns
    rw [stripIndent]
    split
    · next goesOn =>
      rw [List.nil_append] at ahead
      cases rest with
      | nil => exact absurd ahead.nil (Nat.ne_of_gt goesOn.1)
      | cons c rest =>
        have notShort : ¬ first - lineStart < shift := by omega
        rw [ahead.byteAt, ok_bind, begins c rfl, if_neg Bool.false_ne_true, minus_of_le behind,
          ok_bind, if_neg notShort, place]
        rfl
    · rw [place]
      rfl
  | cons c indentation ih =>
    rw [List.length_cons] at isShift
    rw [List.cons_append] at ahead
    unfold Line.stripColumns
    rw [stripIndent]
    by_cases short : column < wanted
    · have inside : first - lineStart < shift := by omega
      have others := ih (by omega) (by omega) ahead.tail (nextColumn column c)
      have goesOn : first < last ∧ column < wanted := ⟨ahead.lt, short⟩
      rw [if_pos goesOn, if_pos short, ahead.byteAt, ok_bind]
      cases blank : isSpaceOrTab c with
      | true =>
        rw [if_pos rfl, columnAfter_eq, ok_bind]
        exact others
      | false =>
        have notTab : ¬ (c == '\t') = true := fun isTab =>
          Bool.false_ne_true (blank.symm.trans (Bool.or_eq_true_iff.mpr (.inr isTab)))
        rw [nextColumn, if_neg notTab] at others
        rw [if_neg Bool.false_ne_true, minus_of_le behind, ok_bind, if_pos inside, nextColumn,
          if_neg notTab]
        exact others
    · have ends : ¬ (first < last ∧ column < wanted) := fun goesOn => short goesOn.2
      rw [if_neg ends, if_neg short]
      show Except.ok (first, column) = _
      rw [List.length_cons, ← isShift, Nat.add_sub_cancel]

end Checked

/-! ## What is kept of a line -/

/-- What is wanted of the indentation leaves an end of it. -/
theorem Line.stripColumns_suffix (wanted column : Nat) (indentation : Text) :
    (stripColumns wanted column indentation).2 <:+ indentation := by
  induction indentation generalizing column with
  | nil => exact List.suffix_refl _
  | cons c rest ih =>
    unfold stripColumns
    split
    · exact (ih _).trans (List.suffix_cons c rest)
    · exact List.suffix_refl _

/-- The content of a line, with the line feed if it is kept. -/
def Line.kept (line : Line) (keepEnd : Bool) : Text :=
  line.content ++ if keepEnd then line.lineFeed else []

namespace Line.LiesIn

variable {source : Text} {line : Line} (lies : line.LiesIn source) (keepEnd : Bool)
include lies

/-- What is kept follows the indentation. It ends behind the line feed, if the text does not end
there anyway. -/
theorem exists_kept :
    ∃ before more, source = before ++ (line.indentation ++ (line.kept keepEnd ++ more)) ∧
      offset source line.start = size before ∧
      (if keepEnd then min (offset source line.stop + 1) source.size
        else offset source line.stop) =
          size before + line.indentation.length + size (line.kept keepEnd) := by
  obtain ⟨before, behind, isStart, isSource, atEnd⟩ := lies.place
  have begins := offset_of_eq isSource isStart.symm
  rw [lies.offset_stop, begins]
  unfold Line.kept
  cases keepEnd with
  | false =>
    refine ⟨before, line.lineFeed ++ behind, ?_, rfl, ?_⟩
    · rw [isSource, if_neg Bool.false_ne_true, List.append_nil]
    · rw [if_neg Bool.false_ne_true, if_neg Bool.false_ne_true, List.append_nil]
  | true =>
    refine ⟨before, behind, ?_, rfl, ?_⟩
    · rw [isSource, if_pos rfl, List.append_assoc]
    have whole := congrArg size isSource
    rw [size_append, size_append, size_append, size_append, size_of_ascii lies.ascii] at whole
    rw [if_pos rfl, if_pos rfl, size_append]
    unfold Line.lineFeed at whole ⊢
    cases ended : line.ended with
    | true =>
      have feed : size ['\n'] = 1 := by decide
      rw [ended, if_pos rfl, feed] at whole
      rw [if_pos rfl, feed]
      omega
    | false =>
      rw [ended, if_neg Bool.false_ne_true, atEnd ended, size_nil] at whole
      rw [if_neg Bool.false_ne_true, size_nil]
      omega

/-- What is kept does not begin with a space or tab. -/
theorem begins_kept : ∀ c ∈ (bytes (line.kept keepEnd)).head?, isSpaceOrTab c = false := by
  intro byte isByte
  rw [head?_bytes] at isByte
  obtain ⟨c, isHead, rfl⟩ := Option.map_eq_some_iff.mp isByte
  rw [asciiOnly_isSpaceOrTab.uniform.lead]
  unfold Line.kept at isHead
  cases content : line.content with
  | cons d content =>
    rw [content] at isHead
    exact lies.begins c (content ▸ isHead)
  | nil =>
    rw [content, List.nil_append] at isHead
    unfold Line.lineFeed at isHead
    split at isHead
    · split at isHead
      · cases isHead
        rfl
      · cases isHead
    · cases isHead

variable {keepEnd}

/-- An end of the indentation, with what is kept. -/
theorem slice_kept {before more gone rest : Text}
    (isSource : source = before ++ (line.indentation ++ (line.kept keepEnd ++ more)))
    (isGone : gone ++ rest = line.indentation) :
    slice source (size before + line.indentation.length - rest.length)
      (size before + line.indentation.length + size (line.kept keepEnd)) =
        .ok (rest ++ line.kept keepEnd) := by
  have isAscii := lies.ascii
  rw [← isGone] at isAscii isSource ⊢
  have goneAscii : ∀ c ∈ gone, c.toNat < 128 :=
    fun c member => isAscii c (List.mem_append_left _ member)
  have restAscii : ∀ c ∈ rest, c.toNat < 128 :=
    fun c member => isAscii c (List.mem_append_right _ member)
  refine @slice_of_eq _ (before ++ gone) _ more _ _ ?_ ?_ ?_
  · rw [isSource]
    simp only [List.append_assoc]
  · rw [List.length_append, size_append, size_of_ascii goneAscii]
    omega
  · rw [List.length_append, size_append, size_append, size_of_ascii goneAscii,
      size_of_ascii restAscii]
    omega

end Line.LiesIn

/-! ## Questions about a line -/

namespace ByteRun

variable {source : Text} {run : BlockRun} {number : Nat}

theorem member_ofLines {α : Type} (mark : Line → α) (atEnd : α)
    (inText : number < run.lineCount) :
    member ((run.scope.lines.map mark).push atEnd) number = .ok (mark (run.scope.line number)) := by
  have notEnd : number ≠ run.scope.lines.size := Nat.ne_of_lt inText
  unfold member
  rw [Array.getElem?_push, Array.size_map, if_neg notEnd, Array.getElem?_map,
    Array.getElem?_eq_getElem inText, Scope.line_eq_getElem _ inText]
  rfl

theorem member_atEnd (run : BlockRun) {α : Type} (mark : Line → α) (atEnd : α) :
    member ((run.scope.lines.map mark).push atEnd) run.lineCount = .ok atEnd := by
  unfold member
  rw [Array.getElem?_push, Array.size_map,
    if_pos (show run.lineCount = run.scope.lines.size from rfl)]
  rfl

theorem begins_eq (inText : number < run.lineCount) :
    member (ofRun source run).marks.begins number =
      .ok (offset source (run.scope.line number).start) :=
  member_ofLines (fun line => offset source line.start) _ inText

theorem shifts_eq (inText : number < run.lineCount) :
    member (ofRun source run).marks.shifts number =
      .ok (run.scope.line number).indentation.length :=
  member_ofLines (fun line => line.indentation.length) _ inText

theorem columns_eq (inText : number < run.lineCount) :
    member (ofRun source run).marks.columns number = .ok (run.scope.line number).columns :=
  member_ofLines (fun line => line.columns) _ inText

theorem lineEnd_eq (inText : number < run.lineCount) :
    (ofRun source run).lineEnd number = .ok (offset source (run.scope.line number).stop) :=
  member_ofLines (fun line => offset source line.stop) _ inText

theorem contentStart_eq (inText : number < run.lineCount) :
    (ofRun source run).contentStart number =
      .ok (offset source (run.scope.line number).start +
        (run.scope.line number).indentation.length) := by
  unfold contentStart
  rw [begins_eq inText, ok_bind, shifts_eq inText]
  rfl

theorem isEmpty_eq (lies : run.scope.LiesIn source) (inText : number < run.lineCount) :
    (ofRun source run).isEmpty number = .ok (run.scope.isEmpty number) := by
  unfold isEmpty
  rw [lineEnd_eq inText, ok_bind, contentStart_eq inText]
  exact congrArg Except.ok (lies number inText).isEmpty_eq

/-- The end of the text is an empty line. -/
theorem isEmpty_of_le (lies : run.scope.LiesIn source) (inText : number ≤ run.lineCount) :
    (ofRun source run).isEmpty number = .ok (run.scope.isEmpty number) := by
  rcases Nat.lt_or_eq_of_le inText with inText | rfl
  · exact isEmpty_eq lies inText
  · have begins := member_atEnd run (fun line => offset source line.start) source.size
    have shifts := member_atEnd run (fun line => line.indentation.length) 0
    have ends := member_atEnd run (fun line => offset source line.stop) source.size
    have content : (ofRun source run).contentStart run.lineCount = .ok source.size := by
      unfold contentStart
      rw [show member (ofRun source run).marks.begins _ = _ from begins, ok_bind,
        show member (ofRun source run).marks.shifts _ = _ from shifts]
      rfl
    unfold isEmpty lineEnd
    rw [show member (ofRun source run).marks.ends _ = _ from ends, ok_bind, content,
      Scope.isEmpty_of_le (show run.scope.lines.size ≤ run.lineCount from Nat.le_refl _)]
    exact congrArg Except.ok (decide_eq_true (Nat.le_refl _))

theorem skipEmpty_eq (lies : run.scope.LiesIn source) (number : Nat) :
    (ofRun source run).skipEmpty number = .ok (run.scope.skipEmpty number) := by
  have upTo : ∀ fuel number, run.lineCount ≤ number + fuel →
      (ofRun source run).skipEmpty number = .ok (run.scope.skipEmptyUpTo fuel number) := by
    intro fuel
    induction fuel with
    | zero =>
      intro number enough
      have beyond : ¬ number < (ofRun source run).lineMax := Nat.not_lt.mpr enough
      rw [skipEmpty, if_neg beyond]
      rfl
    | succ fuel ih =>
      intro number enough
      unfold Scope.skipEmptyUpTo
      rw [skipEmpty]
      by_cases inText : number < run.lineCount
      · have inLines : number < run.scope.lines.size := inText
        rw [if_pos (show number < (ofRun source run).lineMax from inText), isEmpty_eq lies inText,
          ok_bind, decide_eq_true inLines, Bool.true_and]
        cases run.scope.isEmpty number with
        | false => rfl
        | true => exact ih (number + 1) (by omega)
      · have notInLines : ¬ number < run.scope.lines.size := inText
        rw [if_neg (show ¬ number < (ofRun source run).lineMax from inText),
          decide_eq_false notInLines]
        rfl
  exact upTo _ number (Nat.le_add_left ..)

theorem lineText_eq (lies : run.scope.LiesIn source) (inText : number < run.lineCount) :
    (ofRun source run).lineText number = .ok (run.scope.content number) := by
  have ordered : offset source (run.scope.line number).start +
      (run.scope.line number).indentation.length ≤ offset source (run.scope.line number).stop := by
    rw [(lies number inText).offset_stop]
    exact Nat.le_add_right ..
  unfold lineText
  rw [lineEnd_eq inText, ok_bind, contentStart_eq inText, ok_bind, Nat.min_eq_left ordered]
  exact (lies number inText).slice_content

theorem isDedented_eq (inText : number < run.lineCount) :
    (ofRun source run).isDedented number = .ok (run.scope.isDedented number) := by
  unfold isDedented
  rw [columns_eq inText]
  rfl

theorem isDeeplyIndented_eq (inText : number < run.lineCount) :
    (ofRun source run).isDeeplyIndented number = .ok (run.scope.isDeeplyIndented number) := by
  unfold isDeeplyIndented
  rw [columns_eq inText]
  rfl

/-! ## The text of lines -/

theorem getLine_eq (lies : run.scope.LiesIn source) (inText : number < run.lineCount)
    (indent : Nat) (keepEnd : Bool) :
    (ofRun source run).getLine number indent keepEnd =
      .ok ((run.scope.line number).strip indent ++
        if keepEnd then (run.scope.line number).lineFeed else []) := by
  have inLine := lies number inText
  unfold getLine
  rw [begins_eq inText, ok_bind, shifts_eq inText, ok_bind, lineEnd_eq inText, ok_bind]
  generalize run.scope.line number = line at *
  obtain ⟨before, more, isSource, begins, last⟩ := inLine.exists_kept keepEnd
  have ahead := Ahead.of_append before (line.indentation ++ line.kept keepEnd) more
  rw [List.append_assoc, ← isSource, size_append, bytes_append, bytes_of_ascii inLine.ascii,
    size_of_ascii inLine.ascii, ← Nat.add_assoc] at ahead
  have stripped := @stripIndent_eq _ _ _ (size before) _ indent _ _ rfl
    (Nat.le_refl _) (inLine.begins_kept keepEnd) ahead 0
  obtain ⟨gone, isGone⟩ := Line.stripColumns_suffix indent 0 line.indentation
  dsimp only [ofRun]
  rw [last, begins, stripped, ok_bind]
  unfold Line.strip
  dsimp only
  generalize Line.stripColumns indent 0 line.indentation = left at isGone ⊢
  obtain ⟨column, rest⟩ := left
  dsimp only at isGone ⊢
  rw [inLine.slice_kept isSource isGone, ok_bind, Line.kept, ← List.append_assoc rest]
  split
  · next beyond =>
    rw [minus_of_le (Nat.le_of_lt beyond), ok_bind]
    simp only [List.append_assoc]
    rfl
  · next notOver =>
    rw [Nat.sub_eq_zero_of_le (Nat.le_of_not_lt notOver)]
    rfl

theorem getLinesFrom_eq (lies : run.scope.LiesIn source) (indent : Nat) (keepEnd : Bool)
    {count first : Nat} (inText : first + count ≤ run.lineCount) :
    (ofRun source run).getLinesFrom indent keepEnd count first =
      .ok (sourceOf indent keepEnd ((List.range' first count).map run.scope.line)) := by
  induction count generalizing first with
  | zero => rfl
  | succ count ih =>
    unfold getLinesFrom
    rw [getLine_eq lies (by omega), ok_bind, ih (by omega), ok_bind, List.range'_succ,
      List.map_cons]
    cases count with
    | zero =>
      rw [List.range'_zero, List.map_nil, sourceOf, sourceOf, List.append_nil]
      rfl
    | succ count =>
      rw [List.range'_succ, List.map_cons]
      rfl

theorem getLines_eq (lies : run.scope.LiesIn source) {first stop : Nat}
    (ordered : first ≤ stop) (inText : stop ≤ run.lineCount) (indent : Nat) (keepEnd : Bool) :
    (ofRun source run).getLines first stop indent keepEnd =
      .ok (run.scope.source first stop indent keepEnd) :=
  getLinesFrom_eq lies indent keepEnd (by omega)

/-! ## Other lines -/

/-- The marks of a line that a quote changes. -/
def markLine (source : Text) (line : Line) : Nat × Nat × Int :=
  (offset source line.start, line.indentation.length, line.columns)

theorem lineMarks_eq (inText : number < run.lineCount) :
    (ofRun source run).lineMarks number = .ok (markLine source (run.scope.line number)) := by
  unfold lineMarks
  rw [begins_eq inText, ok_bind, shifts_eq inText, ok_bind, columns_eq inText]
  rfl

theorem setMember_ofLines (run : BlockRun) {α : Type} (mark : Line → α) (atEnd : α)
    (inText : number < run.lineCount) (line : Line) :
    setMember ((run.scope.lines.map mark).push atEnd) number (mark line) =
      .ok (((run.setLine number line).scope.lines.map mark).push atEnd) := by
  have inMarks : number < ((run.scope.lines.map mark).push atEnd).size := by
    rw [Array.size_push, Array.size_map]
    exact Nat.lt_succ_of_lt inText
  have inLines : number < (run.scope.lines.map mark).size := by
    rw [Array.size_map]
    exact inText
  unfold setMember
  rw [if_pos inMarks, Array.setIfInBounds_def, dif_pos inMarks, Array.set_push, dif_pos inLines]
  show _ = Except.ok (((run.scope.lines.setIfInBounds number line).map mark).push atEnd)
  rw [Array.map_setIfInBounds, Array.setIfInBounds_def, dif_pos inLines]
  rfl

/-- Other marks for a line are those of another line that ends where the line does. -/
theorem setMarks_eq (inText : number < run.lineCount) {line : Line}
    (sameStop : line.stop = (run.scope.line number).stop) :
    (ofRun source run).setMarks number (offset source line.start) line.indentation.length
        line.columns = .ok (ofRun source (run.setLine number line)) := by
  have begins := setMember_ofLines run (fun line => offset source line.start) source.size
    inText line
  have shifts := setMember_ofLines run (fun line => line.indentation.length) 0 inText line
  have columns := setMember_ofLines run (fun line => line.columns) 0 inText line
  have ends : (run.setLine number line).scope.lines.map (fun line => offset source line.stop) =
      run.scope.lines.map (fun line => offset source line.stop) := by
    have inLines : number < run.scope.lines.size := inText
    refine Array.ext_getElem? fun other => ?_
    rw [Array.getElem?_map, Array.getElem?_map]
    show ((run.scope.lines.setIfInBounds number line)[other]?).map _ = _
    rw [Array.getElem?_setIfInBounds, if_pos inLines]
    split
    · next same =>
      rw [← same, Array.getElem?_eq_getElem inLines, Option.map_some, Option.map_some, sameStop,
        Scope.line_eq_getElem _ inLines]
    · rfl
  have count : (run.setLine number line).lineCount = run.lineCount := Array.size_setIfInBounds
  unfold setMarks LineMarks.set
  rw [show setMember (ofRun source run).marks.begins _ _ = _ from begins, ok_bind,
    show setMember (ofRun source run).marks.shifts _ _ = _ from shifts, ok_bind,
    show setMember (ofRun source run).marks.columns _ _ = _ from columns, ok_bind]
  unfold ofRun LineMarks.ofLines
  rw [ends, count]
  rfl

theorem line_setLine {line : Line} (inText : number < run.lineCount) :
    (run.setLine number line).scope.line number = line := by
  have inLines : number < (run.setLine number line).scope.lines.size :=
    Nat.lt_of_lt_of_eq inText Array.size_setIfInBounds.symm
  rw [Scope.line_eq_getElem _ inLines]
  exact Array.getElem_setIfInBounds_self inLines

theorem line_setLine_ne {line : Line} {other : Nat} (different : number ≠ other)
    (inText : other < run.lineCount) :
    (run.setLine number line).scope.line other = run.scope.line other :=
  Scope.line_congr Array.size_setIfInBounds
    (Nat.lt_of_lt_of_eq inText Array.size_setIfInBounds.symm)
    (Array.getElem?_setIfInBounds_ne different)

theorem liesIn_setLine (lies : run.scope.LiesIn source) {line : Line}
    (inLine : line.LiesIn source) : (run.setLine number line).scope.LiesIn source := by
  intro other inText
  have inText : other < run.lineCount := Nat.lt_of_lt_of_eq inText Array.size_setIfInBounds
  by_cases same : number = other
  · rw [← same, line_setLine (same.symm ▸ inText)]
    exact inLine
  · rw [line_setLine_ne same inText]
    exact lies other inText

/-- The marks of lines are put back when the lines are. -/
theorem restoreMarks_eq {first : Nat} {lines : List Line}
    (inText : first + lines.length ≤ run.lineCount)
    (sameStop : lines.map Line.stop =
      (List.range' first lines.length).map fun number => (run.scope.line number).stop) :
    restoreMarks (ofRun source run) first (lines.map (markLine source)) =
      .ok (ofRun source (run.setLines first lines)) := by
  induction lines generalizing run first with
  | nil => rfl
  | cons line lines ih =>
    rw [List.length_cons] at inText sameStop
    rw [List.range'_succ, List.map_cons, List.map_cons] at sameStop
    obtain ⟨here, others⟩ := List.cons.inj sameStop
    have count : (run.setLine first line).lineCount = run.lineCount := Array.size_setIfInBounds
    rw [List.map_cons, markLine, restoreMarks, setMarks_eq (by omega) here, ok_bind, ih (by omega)]
    · rfl
    · rw [others]
      refine List.map_congr_left fun number member => ?_
      have bounds := List.mem_range'_1.mp member
      rw [line_setLine_ne (by omega) (by omega)]

end ByteRun

/-! ## The lines of a text -/

/-- The first line of a text, and the others. -/
theorem linesFrom_cases (start : Nat) {s : Text} (notEmpty : s ≠ []) :
    linesFrom start s.splitLines = [Line.ofText start s false] ∧ '\n' ∉ s ∨
      ∃ line more : Text, s = line ++ '\n' :: more ∧ '\n' ∉ line ∧
        linesFrom start s.splitLines =
          Line.ofText start line true :: linesFrom (start + line.length + 1) more.splitLines := by
  by_cases oneLine : '\n' ∉ s
  · left
    rw [splitLines_singleton oneLine, linesFrom, if_neg (by simpa using notEmpty)]
    exact ⟨rfl, oneLine⟩
  · right
    obtain ⟨line, more, isText, notIn⟩ := List.eq_append_cons_of_mem (Decidable.not_not.mp oneLine)
    refine ⟨line, more, isText, notIn, ?_⟩
    rw [isText, splitLines_append notIn]
    cases others : splitLines more with
    | nil => exact absurd others (splitLines_ne_nil more)
    | cons text texts => rfl

/-- Content begins behind all spaces and tabs. -/
theorem isSpaceOrTab_dropWhile (s : Text) :
    ∀ c ∈ (s.dropWhile isSpaceOrTab).head?, isSpaceOrTab c = false := by
  intro c isHead
  have stops := List.head?_dropWhile_not isSpaceOrTab s
  rwa [show (s.dropWhile isSpaceOrTab).head? = some c from isHead] at stops

theorem Line.liesIn_ofText {source before text behind : Text} {ended : Bool}
    (isSource : source = before ++ (text ++ ((if ended then ['\n'] else []) ++ behind)))
    (atEnd : ended = false → behind = []) :
    (Line.ofText before.length text ended).LiesIn source where
  place := by
    refine ⟨before, behind, rfl, ?_, atEnd⟩
    rw [isSource]
    show _ = before ++ (text.takeWhile isSpaceOrTab ++ (text.dropWhile isSpaceOrTab ++ _))
    rw [← List.append_assoc (text.takeWhile isSpaceOrTab), List.takeWhile_append_dropWhile]
    rfl
  ascii := fun c member => asciiOnly_isSpaceOrTab c (List.mem_takeWhile_imp member)
  begins := isSpaceOrTab_dropWhile text

theorem Line.stop_ofText (start : Nat) (text : Text) (ended : Bool) :
    (Line.ofText start text ended).stop = start + text.length := by
  show start + (text.takeWhile isSpaceOrTab).length + (text.dropWhile isSpaceOrTab).length = _
  rw [Nat.add_assoc, ← List.length_append, List.takeWhile_append_dropWhile]

theorem liesIn_linesFrom {source before s : Text} (isSource : source = before ++ s) :
    ∀ line ∈ linesFrom before.length s.splitLines, line.LiesIn source := by
  induction hlen : s.length using Nat.strongRecOn generalizing before s with
  | ind length ih =>
    by_cases isEmpty : s = []
    · rw [isEmpty]
      exact List.forall_mem_nil _
    · rcases linesFrom_cases before.length isEmpty with ⟨single, -⟩ | ⟨line, more, isText, -, lines⟩
      · rw [single, List.forall_mem_singleton]
        exact Line.liesIn_ofText (show source = before ++ (s ++ ([] ++ [])) by simp [isSource])
          fun _ => rfl
      · rw [lines, List.forall_mem_cons]
        constructor
        · exact Line.liesIn_ofText (show source = before ++ (line ++ (['\n'] ++ more)) by
            rw [isSource, isText]
            rfl) nofun
        · have others := @ih more.length (by rw [← hlen, isText]; simp; omega)
            (before ++ (line ++ ['\n'])) more (by simp [isSource, isText]) rfl
          simpa [Nat.add_assoc] using others

theorem liesIn_ofSource (source : Text) : (Scope.ofSource source).LiesIn source := by
  intro number inText
  rw [Scope.line_eq_getElem _ inText]
  refine @liesIn_linesFrom source [] source rfl _ ?_
  exact Array.mem_toList_iff.mpr (Array.getElem_mem inText)

namespace LineMarks

/-- Adds the marks of a line. -/
def pushLine (source : Text) (marks : LineMarks) (line : Line) : LineMarks :=
  marks.push (offset source line.start) (offset source line.stop) line.indentation.length
    line.columns

theorem foldl_pushLine (source : Text) (lines : List Line) (marks : LineMarks) :
    lines.foldl (pushLine source) marks =
      { begins := marks.begins ++ (lines.map fun line => offset source line.start).toArray
        ends := marks.ends ++ (lines.map fun line => offset source line.stop).toArray
        shifts := marks.shifts ++ (lines.map fun line => line.indentation.length).toArray
        columns := marks.columns ++ (lines.map fun line => line.columns).toArray } := by
  induction lines generalizing marks with
  | nil => simp
  | cons line lines ih =>
    rw [List.foldl_cons, ih]
    simp [pushLine, push]

/-- The marks of a line, read by bytes. -/
theorem addLines_line {source before text behind : Text} {ended : Bool}
    (isSource : source = before ++ (text ++ ((if ended then ['\n'] else []) ++ behind)))
    (atEnd : ended = false → behind = []) (oneLine : '\n' ∉ text)
    (notEmpty : text ++ (if ended then ['\n'] else []) ≠ []) (marks : LineMarks) :
    addLines source (size before) marks =
      addLines source (size before + size text + 1)
        (pushLine source marks (Line.ofText before.length text ended)) := by
  have lies := Line.liesIn_ofText isSource atEnd
  have starts := offset_of_eq isSource rfl
  have stops := lies.offset_stop
  have whole := congrArg size isSource
  rw [size_append, size_append, size_append, ← Nat.add_assoc, ← Nat.add_assoc] at whole
  have inText : size before < size source := by
    have positive : size text + size (if ended then ['\n'] else []) ≠ 0 := by
      rw [← size_append]
      exact fun none => notEmpty (size_eq_zero.mp none)
    omega
  have sliced : slice source (size before) (size source) =
      .ok (text ++ ((if ended then ['\n'] else []) ++ behind)) := by
    refine @slice_of_eq _ _ _ [] _ _ (isSource.trans (by rw [List.append_nil])) rfl ?_
    rw [whole, size_append, size_append, ← Nat.add_assoc, ← Nat.add_assoc]
  have upTo : (text ++ ((if ended then ['\n'] else []) ++ behind)).takeWhile (· != '\n') =
      text := by
    have passes : ∀ c ∈ text, (c != '\n') = true :=
      fun c member => bne_iff_ne.mpr fun same => oneLine (same ▸ member)
    rw [List.takeWhile_append_of_pos passes]
    cases isEnded : ended with
    | true => simp
    | false => simp [atEnd isEnded]
  have ahead := Ahead.of_append before text ((if ended then ['\n'] else []) ++ behind)
  rw [← isSource] at ahead
  have inside : bytesIn source.bytes (size before) (size before + size text) =
      .ok (bytes text) := ahead.bytesIn (Nat.le_of_lt inText)
  have skipped := skipColumns_eq columnAfter_eq (Ahead.whole (bytes text)) 0
  rw [asciiOnly_isSpaceOrTab.takeWhile_bytes, Nat.zero_add] at skipped
  have stop : offset source (Line.ofText before.length text ended).stop =
      size before + size text := by
    rw [Line.stop_ofText, ← List.length_append, ← size_append]
    exact offset_of_eq (isSource.trans (List.append_assoc ..).symm) rfl
  rw [addLines, if_pos inText, sliced, ok_bind]
  dsimp only
  rw [upTo, inside, ok_bind, skipped, ok_bind]
  dsimp only
  rw [pushLine, stop]
  show _ = addLines source _ (marks.push (offset source before.length) _ _ _)
  rw [starts]
  rfl

theorem addLines_eq {source before s : Text} (isSource : source = before ++ s) (marks : LineMarks) :
    addLines source (size before) marks =
      .ok ((linesFrom before.length s.splitLines).foldl (pushLine source) marks) := by
  induction hlen : s.length using Nat.strongRecOn generalizing before s marks with
  | ind length ih =>
    have size_source := congrArg size isSource
    rw [size_append] at size_source
    by_cases isEmpty : s = []
    · rw [isEmpty, size_nil, Nat.add_zero] at size_source
      rw [isEmpty, addLines, if_neg (Nat.not_lt.mpr (Nat.le_of_eq size_source))]
      rfl
    · rcases linesFrom_cases before.length isEmpty with
        ⟨single, oneLine⟩ | ⟨line, more, isText, oneLine, lines⟩
      · have first := @addLines_line source before s [] false (by simp [isSource]) (fun _ => rfl)
          oneLine (by simpa using isEmpty) marks
        rw [first, single, addLines, if_neg (by omega)]
        rfl
      · have first := @addLines_line source before line more true (by simp [isSource, isText])
          nofun oneLine (by simp) marks
        have feed : size ['\n'] = 1 := by decide
        have others := @ih more.length (by rw [← hlen, isText]; simp; omega)
          (before ++ (line ++ ['\n'])) more (by simp [isSource, isText])
          (pushLine source marks (Line.ofText before.length line true)) rfl
        rw [size_append, size_append, feed, ← Nat.add_assoc, List.length_append,
          List.length_append, List.length_singleton, ← Nat.add_assoc] at others
        rw [first, others, lines, List.foldl_cons]

theorem ofSource_eq (source : Text) :
    ofSource source = .ok (ofLines source (linesOf source).toArray) := by
  have lines := @addLines_eq source [] _ rfl {}
  rw [size_nil] at lines
  unfold ofSource
  rw [lines, ok_bind, foldl_pushLine]
  simp only [ofLines, List.map_toArray]
  simp [push, linesOf]
  rfl

end LineMarks

theorem ByteRun.ofSource_eq (source : Text) :
    ByteRun.ofSource source = .ok (ofRun source (BlockRun.ofSource source)) := by
  unfold ByteRun.ofSource
  rw [LineMarks.ofSource_eq, ok_bind]
  have count : (LineMarks.ofLines source (linesOf source).toArray).begins.size =
      (BlockRun.ofSource source).lineCount + 1 := by
    simp only [LineMarks.ofLines, Array.size_push, Array.size_map]
    rfl
  rw [count, minus_of_le (Nat.le_add_left ..), ok_bind, Nat.add_sub_cancel]
  rfl

end ComponentMarkdown
