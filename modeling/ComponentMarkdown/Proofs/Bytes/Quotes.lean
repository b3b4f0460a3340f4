import ComponentMarkdown.Proofs.Bytes.Leaves

/-!
# Quotes by bytes

A quote changes the marks of its lines so that the blocks in it see what follows the mark of the
quote. The file has:

* `enterQuote` and `blockquote`, with every access checked;
* `Keeps`: other lines that lie in the text and end where the old ones do;
* `blockquote_eq`: with marks for lines, a quote is what it is on lines.
-/

namespace ComponentMarkdown

open Text Checked

/-- The index behind a blank, if there is one inside of the window. -/
def Checked.skipBlank (b : Text) (max i : Nat) : Checked Nat :=
  if i < max then do return if isSpaceOrTab (← byteAt b i) then i + 1 else i else return i

namespace ByteRun

/-- Parses the blocks on the lines from the first number up to the second one. -/
abbrev Parse := Nat → Nat → ByteRun → Checked ByteRun

/-- Takes the marks of a quote away from the lines from `next` on, as far as the quote goes: the
marks of the lines as they were, and the run. -/
def enterQuote (ends : Step) (stop : Nat) (lastEmpty : Bool) (next : Nat) (run : ByteRun) :
    Checked (List (Nat × Nat × Int) × ByteRun) :=
  if next < stop then do
    let b := run.source.bytes
    let start ← run.contentStart next
    let max ← run.lineEnd next
    if max ≤ start then return ([], run)
    else if (← byteAt b start) == '>' && !(← run.isDedented next) then
      let first ← skipBlank b max (start + 1)
      let (behind, columns) ← skipColumns columnAfter b max first 0
      let saved ← run.lineMarks next
      let entered ← run.setMarks next first (← minus behind first) columns
      let others ← enterQuote ends stop (max ≤ behind) (next + 1) entered
      return (saved :: others.1, others.2)
    else if lastEmpty then return ([], run)
    else
      let asked ← ends next stop (run.setIndent 0)
      let left := asked.2.setIndent run.indent
      if asked.1 then return ([], left)
      else
        let saved ← left.lineMarks next
        let entered ← left.setMarks next saved.1 saved.2.1 (-1)
        let others ← enterQuote ends stop false (next + 1) entered
        return (saved :: others.1, others.2)
  else return ([], run)
termination_by stop - next

/-- A quote. The blocks in it are parsed on its lines without their marks. -/
def blockquote (parse : Parse) (ends : Step) (silent : Bool) : Step := fun first stop run => do
  if ← run.isDeeplyIndented first then return (false, run)
  else
    let start ← run.contentStart first
    if run.source.bytes[start]? != some '>' then return (false, run)
    else if silent then return (true, run)
    else
      let entered ← enterQuote ends stop false first (run.setParent .blockquote)
      let opened := (entered.2.setIndent 0).add
        { kind := .blockquoteOpen, tag := "blockquote".toList, nesting := .opening,
          markup := ['>'] }
      let index ← minus opened.tokens.length 1
      let parsed ← parse first (first + entered.1.length) opened
      let closed := parsed.add
        { kind := .blockquoteClose, tag := "blockquote".toList, nesting := .closing,
          markup := ['>'] }
      let mapped ← closed.setMap index (first, closed.progress.line)
      let restored ← restoreMarks mapped first entered.1
      return (true, (restored.setIndent run.indent).setParent run.parent)

end ByteRun

/-! ## Lines without the mark of a quote -/

theorem unquote_append (line : Line) (behind : Text) :
    ∃ gap rest, behind = gap ++ rest ∧ (∀ c ∈ gap, c.toNat < 128) ∧
      (∀ (b : Text) (i max : Nat), Ahead b i max (bytes behind) →
        skipBlank b max i = .ok (i + gap.length)) ∧
      unquote line behind =
        { start := line.start + line.indentation.length + 1 + gap.length
          indentation := rest.takeWhile isSpaceOrTab
          content := rest.dropWhile isSpaceOrTab
          columns := columnBehind 0 (rest.takeWhile isSpaceOrTab)
          ended := line.ended } := by
  cases behind with
  | nil =>
    refine ⟨[], [], rfl, List.forall_mem_nil _, fun b i max ahead => ?_, rfl⟩
    unfold skipBlank
    rw [if_neg (Nat.not_lt.mpr (Nat.le_of_eq ahead.nil))]
    rfl
  | cons c rest =>
    have skipped : ∀ (b : Text) (i max : Nat), Ahead b i max (bytes (c :: rest)) →
        skipBlank b max i = .ok (if isSpaceOrTab c then i + 1 else i) := by
      intro b i max ahead
      rw [bytes_cons_eq] at ahead
      unfold skipBlank
      rw [if_pos ahead.lt, ahead.byteAt, ok_bind, asciiOnly_isSpaceOrTab.uniform.lead]
      rfl
    unfold unquote
    cases isGap : isSpaceOrTab c with
    | true =>
      refine ⟨[c], rest, rfl, ?_, fun b i max ahead => ?_, by simp [isGap]⟩
      · rw [List.forall_mem_singleton]
        exact asciiOnly_isSpaceOrTab c isGap
      · rw [skipped b i max ahead, isGap]
        rfl
    | false =>
      refine ⟨[], c :: rest, rfl, List.forall_mem_nil _, fun b i max ahead => ?_, by simp [isGap]⟩
      rw [skipped b i max ahead, isGap]
      rfl

namespace Line.LiesIn

variable {source : Text} {line : Line}

/-- A line of a quote lies in the text without the mark of the quote. -/
theorem unquote (lies : line.LiesIn source) {behind : Text}
    (content : line.content = '>' :: behind) :
    (unquote line behind).LiesIn source ∧
      (ComponentMarkdown.unquote line behind).stop = line.stop := by
  obtain ⟨gap, rest, isBehind, -, -, inner⟩ := unquote_append line behind
  obtain ⟨before, more, isStart, isSource, atEnd⟩ := lies.place
  have whole := List.takeWhile_append_dropWhile (p := isSpaceOrTab) (l := rest)
  rw [inner]
  refine ⟨⟨⟨before ++ (line.indentation ++ ('>' :: gap)), more, ?_, ?_, atEnd⟩, ?_, ?_⟩, ?_⟩
  · simp only [List.length_append, List.length_cons, isStart]
    omega
  · rw [isSource, content, isBehind]
    show _ = _ ++ (rest.takeWhile isSpaceOrTab ++ (rest.dropWhile isSpaceOrTab ++ _))
    rw [← List.append_assoc (rest.takeWhile _), whole]
    simp only [List.append_assoc, List.cons_append]
    rfl
  · exact fun c member => asciiOnly_isSpaceOrTab c (List.mem_takeWhile_imp member)
  · exact isSpaceOrTab_dropWhile rest
  · have lengths := congrArg List.length whole
    rw [List.length_append] at lengths
    unfold Line.stop
    rw [content, isBehind]
    simp only [List.length_append, List.length_cons]
    omega

/-- Where a part of the content begins, behind characters of ASCII. -/
theorem offset_inside (lies : line.LiesIn source) {front rest : Text}
    (content : line.content = front ++ rest) (isAscii : ∀ c ∈ front, c.toNat < 128) :
    offset source (line.start + line.indentation.length + front.length) =
      offset source line.start + line.indentation.length + front.length := by
  obtain ⟨before, more, isStart, isSource, -⟩ := lies.place
  have same : source = (before ++ (line.indentation ++ front)) ++
      (rest ++ (line.lineFeed ++ more)) := by
    rw [isSource, content]
    simp only [List.append_assoc]
  rw [offset_of_eq isSource isStart.symm, offset_of_eq same (by
    rw [List.length_append, List.length_append, isStart, Nat.add_assoc]), size_append, size_append,
    size_of_ascii lies.ascii, size_of_ascii isAscii, Nat.add_assoc]

end Line.LiesIn

namespace ByteRun

variable {source : Text} {run later last : BlockRun} {first next stop number : Nat}

/-! ## Other lines for a while -/

/-- The later run has as many lines. They lie in the text and end where the old ones do. -/
structure Keeps (source : Text) (run later : BlockRun) : Prop where
  lies : later.scope.LiesIn source
  count : later.lineCount = run.lineCount
  stops : ∀ number, number < run.lineCount →
    (later.scope.line number).stop = (run.scope.line number).stop

theorem Keeps.refl (lies : run.scope.LiesIn source) : Keeps source run run :=
  ⟨lies, rfl, fun _ _ => rfl⟩

theorem Keeps.trans (keeps : Keeps source run later) (goOn : Keeps source later last) :
    Keeps source run last :=
  ⟨goOn.lies, goOn.count.trans keeps.count, fun number inText =>
    (goOn.stops number (keeps.count.symm ▸ inText)).trans (keeps.stops number inText)⟩

theorem keeps_setLine (lies : run.scope.LiesIn source) {line : Line} (inLine : line.LiesIn source)
    (inText : number < run.lineCount) (sameStop : line.stop = (run.scope.line number).stop) :
    Keeps source run (run.setLine number line) := by
  refine ⟨liesIn_setLine lies inLine, Array.size_setIfInBounds, fun other inLines => ?_⟩
  by_cases same : number = other
  · rw [← same, line_setLine inText, sameStop]
  · rw [line_setLine_ne same inLines]

/-! ## Entering a quote -/

variable {md : Markdown} {ends : BlockRun.Step} {checkedEnds : Step}

/-- The marks of a line without the mark of the quote. -/
theorem setMarks_unquote (lies : run.scope.LiesIn source) (inText : next < run.lineCount)
    {behind : Text} (content : (run.scope.line next).content = '>' :: behind) :
    let start := offset source (run.scope.line next).start +
      (run.scope.line next).indentation.length
    let max := offset source (run.scope.line next).stop
    let inner := unquote (run.scope.line next) behind
    ∃ first stop columns, skipBlank source.bytes max (start + 1) = .ok first ∧
      skipColumns columnAfter source.bytes max first 0 = .ok (stop, columns) ∧
      minus stop first = .ok (stop - first) ∧ decide (max ≤ stop) = inner.isEmpty ∧
      (ofRun source run).setMarks next first (stop - first) columns =
        .ok (ofRun source (run.setLine next inner)) := by
  intro start max inner
  have inLine := lies next inText
  obtain ⟨inside, sameStop⟩ := inLine.unquote content
  have ahead := inLine.ahead_content
  rw [content, bytes_cons_of_ascii (by decide)] at ahead
  obtain ⟨gap, rest, isBehind, isAscii, skips, isInner⟩ :=
    unquote_append (run.scope.line next) behind
  have atGap := ahead.tail
  rw [isBehind, bytes_append, bytes_of_ascii isAscii] at atGap
  have columns := skipColumns_eq columnAfter_eq atGap.append 0
  rw [asciiOnly_isSpaceOrTab.takeWhile_bytes] at columns
  have starts : offset source inner.start = start + 1 + gap.length := by
    have begins := @Line.LiesIn.offset_inside _ _ inLine ('>' :: gap) rest
      (content.trans (by rw [isBehind]; rfl)) (List.forall_mem_cons.mpr ⟨by decide, isAscii⟩)
    show offset source (unquote _ behind).start = _
    rw [isInner]
    rw [List.length_cons, Nat.add_comm gap.length, ← Nat.add_assoc, ← Nat.add_assoc] at begins
    exact begins
  have indentation : inner.indentation = rest.takeWhile isSpaceOrTab :=
    congrArg Line.indentation isInner
  refine ⟨start + 1 + gap.length,
    start + 1 + gap.length + (rest.takeWhile isSpaceOrTab).length,
    columnBehind 0 (rest.takeWhile isSpaceOrTab), skips _ _ _ ahead.tail, columns,
    minus_of_le (Nat.le_add_right ..), ?_, ?_⟩
  · rw [← inside.isEmpty_eq, sameStop]
    show _ = decide (max ≤ offset source inner.start + inner.indentation.length)
    rw [starts, indentation]
  · have set := @setMarks_eq source _ _ inText _ sameStop
    rw [show offset source (unquote _ behind).start = _ from starts,
      show (unquote _ behind).indentation = _ from indentation,
      show (unquote _ behind).columns = _ from congrArg Line.columns isInner] at set
    rw [Nat.add_sub_cancel_left]
    exact set

/-- A line without the mark of the quote counts as dedented. -/
theorem setMarks_lazy (lies : run.scope.LiesIn source) (inText : next < run.lineCount) :
    let line := run.scope.line next
    let inner : Line := { line with columns := -1 }
    (ofRun source run).setMarks next (offset source line.start) line.indentation.length (-1) =
        .ok (ofRun source (run.setLine next inner)) ∧
      Keeps source run (run.setLine next inner) := by
  intro line inner
  have inLine := lies next inText
  have inside : inner.LiesIn source := ⟨inLine.place, inLine.ascii, inLine.begins⟩
  exact ⟨@setMarks_eq _ _ _ inText inner rfl, keeps_setLine lies inside inText rfl⟩

/-- Entering a quote changes the marks as it changes the lines. -/
theorem enterQuote_eq (answers : BlockRun.Answers md "blockquote" ends)
    (agrees : Agrees source checkedEnds ends) (fuel : Nat) (lastEmpty : Bool)
    (lies : run.scope.LiesIn source) (inText : stop ≤ run.lineCount)
    (enough : stop ≤ next + fuel) :
    enterQuote checkedEnds stop lastEmpty next (ofRun source run) =
        .ok ((BlockRun.enterQuote ends stop fuel lastEmpty next run).1.map (markLine source),
          ofRun source (BlockRun.enterQuote ends stop fuel lastEmpty next run).2) ∧
      Keeps source run (BlockRun.enterQuote ends stop fuel lastEmpty next run).2 := by
  induction fuel generalizing lastEmpty next run with
  | zero =>
    rw [enterQuote, if_neg (show ¬ next < stop from Nat.not_lt.mpr enough)]
    exact ⟨rfl, .refl lies⟩
  | succ fuel ih =>
    rw [enterQuote, BlockRun.enterQuote]
    rcases Nat.lt_or_ge next stop with inWindow | ended
    case inr =>
      rw [if_neg (Nat.not_lt_of_le ended), if_pos ended]
      exact ⟨rfl, .refl lies⟩
    have inLines : next < run.lineCount := Nat.lt_of_lt_of_le inWindow inText
    have ahead := (lies next inLines).ahead_content
    rw [if_pos inWindow, if_neg (Nat.not_le_of_lt inWindow), contentStart_eq inLines, ok_bind,
      lineEnd_eq inLines, ok_bind, isDedented_eq inLines, source_ofRun]
    dsimp only
    cases content : (run.scope.line next).content with
    | nil =>
      rw [content] at ahead
      rw [if_pos (Nat.le_of_eq ahead.nil)]
      exact ⟨rfl, .refl lies⟩
    | cons mark behind =>
      rw [content, bytes_cons_eq] at ahead
      rw [if_neg (Nat.not_le_of_lt ahead.lt), ahead.byteAt, ok_bind, ok_bind,
        lead_beq (by decide)]
      dsimp only
      cases marked : mark == '>' && !run.scope.isDedented next with
      | true =>
        rw [Bool.and_eq_true, beq_iff_eq] at marked
        rw [marked.1] at content
        obtain ⟨first, last, columns, skipped, counted, long, isEmpty, set⟩ :=
          setMarks_unquote lies inLines content
        have ⟨inside, sameStop⟩ := (lies next inLines).unquote content
        have keeps := keeps_setLine lies inside inLines sameStop
        obtain ⟨others, goOn⟩ := @ih _ (next + 1)
          (unquote (run.scope.line next) behind).isEmpty keeps.lies
          (keeps.count.symm ▸ inText) (by omega)
        refine ⟨?_, keeps.trans goOn⟩
        rw [if_pos rfl, skipped, ok_bind, counted, ok_bind]
        dsimp only
        rw [lineMarks_eq inLines, ok_bind, long, ok_bind, set, ok_bind, isEmpty, others, ok_bind]
        rfl
      | false =>
        rw [if_neg Bool.false_ne_true, if_neg Bool.false_ne_true]
        cases lastEmpty with
        | true => exact ⟨rfl, .refl lies⟩
        | false =>
          have stays : (ends next stop (run.setIndent 0)).2 = run.setIndent 0 :=
            congrArg Prod.snd (answers next stop (run.setIndent 0))
          have asked := agrees next stop (run.setIndent 0) inWindow inText lies
          rw [ofStep, stays] at asked
          rw [if_neg Bool.false_ne_true, if_neg Bool.false_ne_true, stays, ← content,
            setIndent_ofRun, asked, ok_bind]
          cases (ends next stop (run.setIndent 0)).1 with
          | true => exact ⟨rfl, .refl lies⟩
          | false =>
            obtain ⟨set, keeps⟩ := setMarks_lazy lies inLines
            obtain ⟨others, goOn⟩ := @ih _ (next + 1) false keeps.lies
              (keeps.count.symm ▸ inText) (by omega)
            refine ⟨?_, keeps.trans goOn⟩
            show ((ofRun source run).lineMarks next >>= _) = _
            rw [lineMarks_eq inLines, ok_bind]
            show ((ofRun source run).setMarks next (offset source (run.scope.line next).start)
              (run.scope.line next).indentation.length (-1) >>= _) = _
            rw [set, ok_bind, others, ok_bind]
            rfl

/-! ## Quotes -/

/-- With marks for lines, the blocks are parsed that are parsed on lines, if at most `depth` levels
are left. -/
def ParsesLike (md : Markdown) (depth : Nat) (source : Text) (checked : Parse)
    (parse : Nat → Nat → BlockRun → BlockRun) : Prop :=
  ∀ first stop run, stop ≤ run.lineCount → run.scope.LiesIn source →
    md.maxNesting ≤ run.scope.level + depth →
    checked first stop (ofRun source run) = .ok (ofRun source (parse first stop run))

/-- The run `inner` is in a quote. The lines of the quote were `outer` before; they end where the
lines of the run do. -/
structure InQuote (source : Text) (first : Nat) (run : BlockRun) (outer : List Line)
    (inner : BlockRun) : Prop where
  keeps : Keeps source run inner
  level : inner.scope.level = run.scope.level
  inText : first + outer.length ≤ run.lineCount
  stops : outer.map Line.stop =
    (List.range' first outer.length).map fun number => (run.scope.line number).stop

theorem inQuote_enterQuote (answers : BlockRun.Answers md "blockquote" ends)
    (inQuote : run.scope.parent = .blockquote) (inWindow : first < stop)
    (inText : stop ≤ run.lineCount)
    (keeps : Keeps source run (BlockRun.enterQuote ends stop (stop - first) false first run).2) :
    InQuote source first run (BlockRun.enterQuote ends stop (stop - first) false first run).1
      (BlockRun.enterQuote ends stop (stop - first) false first run).2 := by
  have inside := BlockRun.quoteLines_length md run.scope (stop - first) false
    (Nat.le_of_lt inWindow)
  rw [BlockRun.enterQuote_eq answers run.scope inText (stop - first) false first rfl
    (fun _ _ => rfl) rfl inQuote] at keeps ⊢
  refine ⟨keeps, rfl, ?_, ?_⟩
  · rw [List.length_map, List.length_range']
    exact Nat.le_trans inside inText
  · rw [List.length_map, List.length_range', List.map_map]
    rfl

namespace InQuote

variable {outer : List Line} {inner : BlockRun} (inQuote : InQuote source first run outer inner)
include inQuote

/-- The blocks of a quote are parsed on its lines, a level deeper. -/
theorem opened (token : Token) (opens : token.nesting = .opening) :
    let opened := (inner.setIndent 0).add token
    opened.scope.LiesIn source ∧ first + outer.length ≤ opened.lineCount ∧
      opened.scope.level = run.scope.level + 1 ∧
      minus (ofRun source opened).tokens.length 1 = .ok inner.tokens.length := by
  rw [BlockRun.add_opening _ opens]
  refine ⟨Scope.liesIn_of_lines rfl inQuote.keeps.lies, inQuote.keeps.count.symm ▸ inQuote.inText,
    congrArg (· + 1) inQuote.level, ?_⟩
  show minus (inner.tokens ++ _).length 1 = _
  rw [List.length_append]
  exact minus_of_le (Nat.le_add_left ..)

/-- A quote is left with its lines as they were. -/
theorem left {parsed : BlockRun} (lines : parsed.scope.lines = inner.scope.lines)
    (grows : inner.tokens.length < parsed.tokens.length) (token : Token) (span : LineSpan) :
    let closed := parsed.add token
    let mapped := closed.setMap inner.tokens.length span
    (ofRun source closed).setMap inner.tokens.length span = .ok (ofRun source mapped) ∧
      restoreMarks (ofRun source mapped) first (outer.map (markLine source)) =
        .ok (ofRun source (mapped.setLines first outer)) := by
  intro closed mapped
  have count : mapped.lineCount = run.lineCount :=
    (congrArg Array.size lines).trans inQuote.keeps.count
  have grown : inner.tokens.length < closed.tokens.length := by
    show _ < List.length (parsed.tokens ++ _)
    rw [List.length_append]
    exact Nat.lt_add_right _ grows
  refine ⟨setMap_eq grown span, restoreMarks_eq (count ▸ inQuote.inText) ?_⟩
  rw [inQuote.stops]
  refine List.map_congr_left fun number member => ?_
  have inText := inQuote.inText
  have bounds := List.mem_range'_1.mp member
  have same : mapped.scope.line number = inner.scope.line number := by
    show Scope.line parsed.scope number = _
    unfold Scope.line Scope.length
    rw [lines]
  exact (inQuote.keeps.stops number (by omega)).symm.trans (congrArg Line.stop same.symm)

end InQuote

/-- With marks for lines, a quote is what it is on lines. -/
theorem blockquote_eq {parse : Nat → Nat → BlockRun → BlockRun} {checkedParse : Parse}
    {tree : ParseBlocks} {depth : Nat} (parses : BlockRun.ParsesAs parse tree)
    (like : ParsesLike md depth source checkedParse parse) (silent : Bool)
    (answers : silent = false → BlockRun.Answers md "blockquote" ends)
    (agrees : silent = false → Agrees source checkedEnds ends)
    (levels : silent = false → md.maxNesting ≤ run.scope.level + (depth + 1))
    (lies : run.scope.LiesIn source) (inWindow : first < stop) (inText : stop ≤ run.lineCount) :
    blockquote checkedParse checkedEnds silent first stop (ofRun source run) =
      .ok (ofStep source (BlockRun.blockquote parse ends silent first stop run)) := by
  have inLines : first < run.lineCount := Nat.lt_of_lt_of_le inWindow inText
  have begins := (lies first inLines).getElem?_content (show '>'.toNat < 128 by decide)
    (by decide)
  unfold blockquote BlockRun.blockquote bne
  rw [isDeeplyIndented_eq inLines, ok_bind, contentStart_eq inLines, ok_bind, source_ofRun,
    show _ = ((run.scope.content first).head? == some '>') from begins]
  cases run.scope.isDeeplyIndented first with
  | true => rfl
  | false =>
    cases (run.scope.content first).head? == some '>' with
    | false => rfl
    | true =>
      cases silent with
      | true => rfl
      | false =>
        obtain ⟨entered, keeps⟩ := @enterQuote_eq _ (run.setParent .blockquote) first _ _ _ _
          (answers rfl) (agrees rfl) (stop - first) false lies inText (by omega)
        have inQuote := @inQuote_enterQuote source (run.setParent .blockquote) _ _ _ _ (answers rfl)
          rfl inWindow inText keeps
        simp only [Bool.not_true, Bool.false_eq_true, if_false]
        rw [setParent_ofRun, entered, ok_bind]
        generalize BlockRun.enterQuote ends stop (stop - first) false first
          (run.setParent .blockquote) = quote at inQuote ⊢
        obtain ⟨outer, inner⟩ := quote
        dsimp only at inQuote ⊢
        rw [List.length_map, setIndent_ofRun, add_ofRun]
        -- The blocks are parsed on the lines without their marks.
        obtain ⟨openedLies, openedText, level, index⟩ := inQuote.opened
          { kind := .blockquoteOpen, tag := "blockquote".toList, nesting := .opening,
            markup := ['>'] } rfl
        have room : md.maxNesting ≤ run.scope.level + (depth + 1) := levels rfl
        have levelInside : (run.setParent .blockquote).scope.level = run.scope.level := rfl
        have parsedAs := parses first (first + outer.length) _ openedText
        rw [index, ok_bind, like first (first + outer.length) _ openedText openedLies (by omega),
          ok_bind, add_ofRun]
        generalize parse first (first + outer.length) _ = parsed at parsedAs ⊢
        have grows : inner.tokens.length < parsed.tokens.length := by
          rw [parsedAs]
          show _ < List.length (_ ++ _ ++ _)
          rw [List.append_assoc, List.length_append]
          exact Nat.lt_add_of_pos_right (Nat.succ_pos _)
        obtain ⟨mapped, restored⟩ := inQuote.left (by rw [parsedAs]; rfl) grows
          { kind := .blockquoteClose, tag := "blockquote".toList, nesting := .closing,
            markup := ['>'] } (first, parsed.progress.line)
        show (setMap _ inner.tokens.length (first, parsed.progress.line) >>= _) = _
        rw [mapped, ok_bind, restored, ok_bind]
        rfl

end ByteRun

end ComponentMarkdown
