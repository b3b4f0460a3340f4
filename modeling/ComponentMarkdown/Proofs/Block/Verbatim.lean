import ComponentMarkdown.Compiler
import ComponentMarkdown.Proofs.Block.Documents
import ComponentMarkdown.Proofs.Text.Runs

/-!
# Code blocks are verbatim

Any lines can stand in fenced code whose fence is longer than all runs that could close it, and in
code that is indented by four spaces. The file has:

* `ClosesFence`, and the search for the line that closes a fence (`fenceEnd_eq`);
* the search for the end of indented code (`codeEnd_eq`);
* the text of lines (`source_document` and `source_join`);
* `fencedLines` and `codeLine`, lines that are fenced and a line that is indented;
* `parse_verbatim`: the lines are the content of the block.
-/

namespace ComponentMarkdown

variable {scope : Scope} {stop next last : Nat}

/-! ## The end of code -/

/-- The line closes a fence of so many marks: it holds as many or more, indented by at most three
columns, and nothing but blanks behind them. -/
def ClosesFence (mark : Char) (count : Nat) (line : Text) : Prop :=
  ∃ indentation length blanks, line = indentation ++ (List.replicate length mark ++ blanks) ∧
    (∀ c ∈ indentation, isSpaceOrTab c = true) ∧ columnBehind 0 indentation ≤ 3 ∧
    count ≤ length ∧ ∀ c ∈ blanks, isSpaceOrTab c = true

/-- This is what is checked of a line: its content closes the fence, and it is not indented like
code. -/
theorem closesFence_iff {mark : Char} {count : Nat} {line : Text}
    (visible : isSpaceOrTab mark = false) (positive : 0 < count) :
    ClosesFence mark count line ↔ columnBehind 0 (line.takeWhile isSpaceOrTab) ≤ 3 ∧
      closesFence mark count (line.dropWhile isSpaceOrTab) = true := by
  rw [closesFence, Bool.and_eq_true, decide_eq_true_eq, List.all_eq_true]
  constructor
  · rintro ⟨indentation, length, blanks, rfl, blank, shallow, long, ends⟩
    obtain ⟨more, rfl⟩ := Nat.exists_eq_add_one.mpr (Nat.lt_of_lt_of_le positive long)
    have hidden : ¬isSpaceOrTab mark = true := by simp [visible]
    have stops : blanks.head? ≠ some mark := fun next =>
      hidden (ends mark (List.mem_of_mem_head? next))
    have run := (Text.runLength_append stops (List.replicate (more + 1) mark)).trans
      (Text.runLength_replicate mark (more + 1))
    rw [List.takeWhile_append_of_pos blank, List.dropWhile_append_of_pos blank,
      List.replicate_succ, List.cons_append, List.takeWhile_cons_of_neg hidden, List.append_nil,
      List.dropWhile_cons_of_neg hidden, ← List.cons_append, ← List.replicate_succ, run,
      List.drop_left' List.length_replicate]
    exact ⟨shallow, long, ends⟩
  · rintro ⟨shallow, closes⟩
    have blank := List.all_eq_true.mp (@List.all_takeWhile _ isSpaceOrTab line)
    refine ⟨_, _, _, ?_, blank, shallow, closes⟩
    rw [Text.replicate_append_drop, List.takeWhile_append_dropWhile]

/-- The search stops at the first line that closes the fence. -/
theorem fenceEnd_eq {mark : Char} {count fuel : Nat}
    (flat : ∀ number, scope.isDedented number = false)
    (opened : ∀ number, next ≤ number → number < last →
      scope.isDeeplyIndented number = true ∨ closesFence mark count (scope.content number) = false)
    (shallow : scope.isDeeplyIndented last = false)
    (closes : closesFence mark count (scope.content last) = true)
    (ordered : next ≤ last) (inText : last < stop) (enough : last - next < fuel) :
    fenceEnd scope mark count stop fuel next = (last, true) := by
  induction fuel generalizing next with
  | zero => exact absurd enough (Nat.not_lt_zero _)
  | succ fuel ih =>
    rw [fenceEnd, if_neg (by omega), flat, Bool.and_false, if_neg Bool.false_ne_true]
    rcases Nat.eq_or_lt_of_le ordered with rfl | further
    · rw [shallow, closes]
      rfl
    · have goesOn : ¬(!scope.isDeeplyIndented next &&
          closesFence mark count (scope.content next)) = true := by
        rcases opened next (Nat.le_refl next) further with deep | stays
        · simp [deep]
        · simp [stays]
      rw [if_neg goesOn]
      exact ih (fun number behind => opened number (by omega)) further (by omega)

/-- A fence that is closed takes its closing line as well. -/
theorem fence?_eq {mark : Char} {count first : Nat} {info : Text}
    (shallow : scope.isDeeplyIndented first = false)
    (opens : fenceOpening? (scope.content first) = some (mark, count, info))
    (search : fenceEnd scope mark count stop (stop - first) (first + 1) = (last, true)) :
    fence? scope first stop =
      some (.fence (List.replicate count mark) info.trim
        (scope.source (first + 1) last (scope.line first).columns.toNat true)
        (first, last + 1)) := by
  simp [fence?, guard, shallow, opens, search]

/-- Where all lines are indented and the last one is not empty, they all are code. -/
theorem codeEnd_eq {fuel : Nat}
    (deep : ∀ number, next ≤ number → number < stop → scope.isDeeplyIndented number = true)
    (shown : scope.isEmpty (stop - 1) = false) (ordered : next ≤ stop)
    (ends : next = stop → last = stop) (enough : stop - next ≤ fuel) :
    codeEnd scope stop fuel next last = stop := by
  induction fuel generalizing next last with
  | zero => exact ends (by omega)
  | succ fuel ih =>
    rw [codeEnd]
    split
    · next atEnd => exact ends (Nat.le_antisymm ordered atEnd)
    · next inWindow =>
      -- An empty line is passed over. It is not the last one, and so others follow.
      have others := fun number (behind : next + 1 ≤ number) => deep number (by omega)
      split
      · next isEmpty =>
        have notLast : next ≠ stop - 1 := by
          rintro rfl
          rw [shown] at isEmpty
          cases isEmpty
        exact ih others (by omega) (by omega) (by omega)
      · rw [if_pos (deep next (Nat.le_refl next) (by omega))]
        exact ih others (by omega) id (by omega)

/-- Indented code holds the lines up to the last one that is not empty. -/
theorem indentedCode?_eq {first : Nat} (deep : scope.isDeeplyIndented first = true)
    (search : codeEnd scope stop (stop - first) (first + 1) (first + 1) = last) :
    indentedCode? scope first stop =
      some (.code (scope.source first last (4 + scope.indent) false) (first, last)) := by
  simp [indentedCode?, guard, deep, search]

/-! ## The text of lines -/

theorem sourceOf_keepEnd_cons (indent : Nat) (line : Line) (lines : List Line) :
    sourceOf indent true (line :: lines) =
      line.strip indent ++ line.lineFeed ++ sourceOf indent true lines := by
  cases lines with
  | nil => exact (List.append_nil _).symm
  | cons next lines => rfl

/-- Complete lines. -/
theorem source_document {indent first : Nat} {texts : List Text}
    (strips : ∀ i (inText : i < texts.length), (scope.line (first + i)).strip indent = texts[i])
    (ended : ∀ i < texts.length, (scope.line (first + i)).ended = true) :
    scope.source first (first + texts.length) indent true = document texts := by
  rw [Scope.source, Nat.add_sub_cancel_left]
  induction texts generalizing first with
  | nil => rfl
  | cons text texts ih =>
    have here : (scope.line first).strip indent = text := strips 0 (Nat.succ_pos _)
    have feed : (scope.line first).lineFeed = ['\n'] := if_pos (ended 0 (Nat.succ_pos _))
    have others := @ih (first + 1)
      (fun i inText => by rw [Nat.add_right_comm]; exact strips (i + 1) (Nat.succ_lt_succ inText))
      (fun i inText => by rw [Nat.add_right_comm]; exact ended (i + 1) (Nat.succ_lt_succ inText))
    rw [List.length_cons, List.range'_succ, List.map_cons, sourceOf_keepEnd_cons, here, feed,
      others, document_cons, List.append_assoc, List.singleton_append]

/-- Lines without the line feed behind the last one. -/
theorem source_join {indent first : Nat} {texts : List Text}
    (strips : ∀ i (inText : i < texts.length), (scope.line (first + i)).strip indent = texts[i])
    (ended : ∀ i, i + 1 < texts.length → (scope.line (first + i)).ended = true) :
    scope.source first (first + texts.length) indent false = Text.join ['\n'] texts := by
  rw [Scope.source, Nat.add_sub_cancel_left]
  induction texts generalizing first with
  | nil => rfl
  | cons text texts ih =>
    have here : (scope.line first).strip indent = text := strips 0 (Nat.succ_pos _)
    cases texts with
    | nil => exact (List.append_nil _).trans here
    | cons other texts =>
      have feed : (scope.line first).lineFeed = ['\n'] :=
        if_pos (ended 0 (Nat.succ_lt_succ (Nat.succ_pos _)))
      have others := @ih (first + 1)
        (fun i inText => by rw [Nat.add_right_comm]; exact strips (i + 1) (Nat.succ_lt_succ inText))
        (fun i inText => by rw [Nat.add_right_comm]; exact ended (i + 1) (Nat.succ_lt_succ inText))
      rw [Text.join_cons _ _ (List.cons_ne_nil other texts), ← others, ← here, ← feed]
      rfl

/-! ## Fenced code -/

/-- Lines between two fences of `count` marks, the first one with an info. -/
def fencedLines (mark : Char) (count : Nat) (info : Text) (lines : List Text) : List Text :=
  (List.replicate count mark ++ info) :: (lines ++ [List.replicate count mark])

/-- What the blocks of a document with fenced code see. -/
def fencedDocument (ended : Bool) (mark : Char) (count : Nat) (info : Text) (lines : List Text) :
    Scope :=
  Scope.ofSource (lineText ended (fencedLines mark count info lines))

section

variable {mark : Char} {count : Nat} {info : Text} {lines : List Text}

theorem length_fencedLines : (fencedLines mark count info lines).length = lines.length + 2 := by
  simp [fencedLines]

theorem head?_fence (long : 3 ≤ count) (behind : Text) :
    (List.replicate count mark ++ behind).head? = some mark := by
  rw [List.head?_append, List.head?_replicate, if_neg (by omega)]
  rfl

theorem visible_mark (marks : mark = '\x60' ∨ mark = '~') : isSpaceOrTab mark = false := by
  rcases marks with rfl | rfl <;> rfl

theorem filled_fencedLines (long : 3 ≤ count) :
    (fencedLines mark count info lines).getLast? ≠ some [] := by
  rw [fencedLines, ← List.cons_append, List.getLast?_concat, ne_eq, Option.some_inj,
    List.replicate_eq_nil_iff]
  omega

theorem fenceOpening?_of_run (marks : mark = '\x60' ∨ mark = '~') (long : 3 ≤ count)
    (noTicks : '\x60' ∉ info) {content : Text} (begins : content.head? = some mark)
    (run : Text.runLength mark content = count) (behind : content.drop count = info) :
    fenceOpening? content = some (mark, count, info) := by
  obtain ⟨rest, rfl⟩ := List.head?_eq_some_iff.mp begins
  rw [fenceOpening?, run, behind, if_pos (by rcases marks with rfl | rfl <;> simp [long, noTicks])]

theorem fenceOpening?_fence (marks : mark = '\x60' ∨ mark = '~') (long : 3 ≤ count)
    (apart : '\x60' ∉ info ∧ '~' ∉ info) :
    fenceOpening? (List.replicate count mark ++ info) = some (mark, count, info) := by
  have ends : info.head? ≠ some mark := fun begins => by
    have member := List.mem_of_mem_head? begins
    rcases marks with rfl | rfl
    · exact apart.1 member
    · exact apart.2 member
  exact fenceOpening?_of_run marks long apart.1 (head?_fence long info)
    ((Text.runLength_append ends _).trans (Text.runLength_replicate mark count))
    (List.drop_left' List.length_replicate)

theorem closesFence_fence (mark : Char) (count : Nat) :
    closesFence mark count (List.replicate count mark) = true := by
  rw [closesFence, Text.runLength_replicate, List.drop_eq_nil_of_le (by simp)]
  simp

variable (ended : Bool) (marks : mark = '\x60' ∨ mark = '~') (long : 3 ≤ count)
  (single : IsLine info) (each : ∀ line ∈ lines, IsLine line)

include marks single each in
theorem isLine_fencedLines : ∀ line ∈ fencedLines mark count info lines, IsLine line := by
  have fence : IsLine (List.replicate count mark) :=
    isLine_replicate (by rcases marks with rfl | rfl <;> decide) count
  simpa [fencedLines, or_imp, forall_and, isLine_append, fence, single] using each

include marks long single each

theorem unplaced_fencedDocument {number : Nat} {text : Text}
    (found : (fencedLines mark count info lines)[number]? = some text) :
    ((fencedDocument ended mark count info lines).line number).unplaced =
      Line.ofText 0 text (ended || decide (number + 1 < lines.length + 2)) := by
  obtain ⟨inText, rfl⟩ := List.getElem?_eq_some_iff.mp found
  rw [fencedDocument, unplaced_line_lineText ended (fun line member =>
    (isLine_fencedLines marks single each line member).noFeed) (filled_fencedLines long) inText,
    length_fencedLines]

theorem openingLine_fencedDocument :
    ((fencedDocument ended mark count info lines).line 0).unplaced =
      ⟨0, [], List.replicate count mark ++ info, 0, true⟩ := by
  have found : (fencedLines mark count info lines)[0]? =
      some (List.replicate count mark ++ info) := rfl
  rw [unplaced_fencedDocument ended marks long single each found,
    ofText_shown 0 (head?_fence long info) (visible_mark marks), decide_eq_true (by omega),
    Bool.or_true]

theorem closingLine_fencedDocument :
    ((fencedDocument ended mark count info lines).line (1 + lines.length)).unplaced =
      ⟨0, [], List.replicate count mark, 0, ended⟩ := by
  have begins : (List.replicate count mark ++ []).head? = some mark := head?_fence long []
  have found : (fencedLines mark count info lines)[1 + lines.length]? =
      some (List.replicate count mark) := by simp [fencedLines, Nat.add_comm]
  rw [List.append_nil] at begins
  rw [unplaced_fencedDocument ended marks long single each found,
    ofText_shown 0 begins (visible_mark marks), decide_eq_false (by omega), Bool.or_false]

theorem line_fencedDocument {i : Nat} (inText : i < lines.length) :
    ((fencedDocument ended mark count info lines).line (1 + i)).unplaced =
      Line.ofText 0 lines[i] true := by
  have found : (fencedLines mark count info lines)[1 + i]? = some lines[i] := by
    rw [fencedLines, Nat.add_comm, List.getElem?_cons_succ, List.getElem?_append_left inText,
      List.getElem?_eq_getElem inText]
  rw [unplaced_fencedDocument ended marks long single each found, decide_eq_true (by omega),
    Bool.or_true]

/-- No line before the last one closes the fence. -/
theorem fenceEnd_fencedDocument (inside : ∀ line ∈ lines, ¬ClosesFence mark count line) :
    fenceEnd (fencedDocument ended mark count info lines) mark count (lines.length + 2)
      (lines.length + 2) 1 = (1 + lines.length, true) := by
  let scope := fencedDocument ended mark count info lines
  have closing := closingLine_fencedDocument ended marks long single each
  refine fenceEnd_eq (isDedented_ofSource _) ?opened ?shallow ?closes (by omega) (by omega)
    (by omega)
  case opened =>
    intro number behind inFront
    obtain ⟨i, rfl⟩ : ∃ i, number = 1 + i := ⟨number - 1, by omega⟩
    have inText : i < lines.length := by omega
    have here := line_fencedDocument ended marks long single each inText
    have columns : (scope.line (1 + i)).columns =
        columnBehind 0 (lines[i].takeWhile isSpaceOrTab) := congrArg Line.columns here
    have content : scope.content (1 + i) = lines[i].dropWhile isSpaceOrTab :=
      congrArg Line.content here
    by_cases shallow : columnBehind 0 (lines[i].takeWhile isSpaceOrTab) ≤ 3
    · right
      rw [← Bool.not_eq_true, content]
      exact fun closes => inside _ (List.getElem_mem inText)
        ((closesFence_iff (visible_mark marks) (by omega)).mpr ⟨shallow, closes⟩)
    · left
      rw [Scope.isDeeplyIndented, columns, show scope.indent = 0 from rfl, decide_eq_true_iff]
      omega
  case shallow => exact Scope.not_isDeeplyIndented (congrArg Line.columns closing :)
  case closes =>
    have content : scope.content (1 + lines.length) = List.replicate count mark :=
      congrArg Line.content closing
    rw [content]
    exact closesFence_fence mark count

theorem fence?_fencedDocument (apart : '\x60' ∉ info ∧ '~' ∉ info)
    (inside : ∀ line ∈ lines, ¬ClosesFence mark count line) :
    fence? (fencedDocument ended mark count info lines) 0 (lines.length + 2) =
      some (.fence (List.replicate count mark) info.trim (document lines)
        (0, lines.length + 2)) := by
  let scope := fencedDocument ended mark count info lines
  have opening := openingLine_fencedDocument ended marks long single each
  have body := fun i => @line_fencedDocument mark count info lines ended marks long single each i
  have columns : (scope.line 0).columns = 0 := congrArg Line.columns opening
  have shallow : scope.isDeeplyIndented 0 = false := Scope.not_isDeeplyIndented columns
  have isFence : scope.content 0 = List.replicate count mark ++ info :=
    congrArg Line.content opening
  have opens : fenceOpening? (scope.content 0) = some (mark, count, info) :=
    isFence ▸ fenceOpening?_fence marks long apart
  have search := fenceEnd_fencedDocument ended marks long single each inside
  have content : scope.source 1 (1 + lines.length) 0 true = document lines := by
    refine source_document (fun i inText => ?_) fun i inText => congrArg Line.ended (body i inText)
    exact (congrArg (Line.strip 0) (body i inText)).trans (strip_ofText_zero _ _ _)
  rw [fence?_eq shallow opens search, columns]
  show some (Block.fence _ _ (scope.source 1 (1 + lines.length) 0 true) _) = _
  rw [content, show 1 + lines.length + 1 = lines.length + 2 by omega]

end

/-! ## Indented code -/

/-- The line behind four spaces. -/
def codeLine (line : Text) : Text :=
  Text.spaces 4 ++ line

theorem codeLine_eq (line : Text) : codeLine line = ' ' :: ' ' :: ' ' :: ' ' :: line := rfl

/-- What the blocks of a document with indented code see. -/
def indentedDocument (ended : Bool) (lines : List Text) : Scope :=
  Scope.ofSource (lineText ended (lines.map codeLine))

theorem isLine_codeLine {line : Text} (single : IsLine line) : IsLine (codeLine line) :=
  isLine_append.mpr ⟨isLine_replicate (by decide) 4, single⟩

theorem filled_codeLines (lines : List Text) : (lines.map codeLine).getLast? ≠ some [] := by
  rw [List.getLast?_map]
  cases lines.getLast? <;> simp [codeLine_eq]

/-- Four spaces in front of a line are four columns. -/
theorem strip_codeLine (start : Nat) (line : Text) (ended : Bool) :
    (Line.ofText start (codeLine line) ended).strip 4 = line := by
  have behind : Line.stripColumns 4 0 ((codeLine line).takeWhile isSpaceOrTab) =
      (4, line.takeWhile isSpaceOrTab) := stripColumns_of_le (Nat.le_refl 4) _
  simp only [Line.strip, Line.ofText, behind]
  exact List.takeWhile_append_dropWhile

section

variable (ended : Bool) {lines : List Text} (each : ∀ line ∈ lines, IsLine line)
include each

theorem unplaced_indentedDocument {number : Nat} (inText : number < lines.length) :
    ((indentedDocument ended lines).line number).unplaced =
      Line.ofText 0 (codeLine lines[number]) (ended || decide (number + 1 < lines.length)) := by
  have oneLine : ∀ line ∈ lines.map codeLine, '\n' ∉ line :=
    List.forall_mem_map.mpr fun line member => (isLine_codeLine (each line member)).noFeed
  have here := unplaced_line_lineText ended oneLine (filled_codeLines lines)
    (by rwa [List.length_map] : number < (lines.map codeLine).length)
  simpa only [indentedDocument, List.getElem_map, List.length_map] using here

/-- All lines are indented like code. -/
theorem isDeeplyIndented_indentedDocument {number : Nat} (inText : number < lines.length) :
    (indentedDocument ended lines).isDeeplyIndented number = true := by
  have here := unplaced_indentedDocument ended each inText
  have columns : ((indentedDocument ended lines).line number).columns =
      columnBehind 4 (lines[number].takeWhile isSpaceOrTab) := congrArg Line.columns here
  have deep := le_columnBehind 4 (lines[number].takeWhile isSpaceOrTab)
  rw [Scope.isDeeplyIndented, columns, show (indentedDocument ended lines).indent = 0 from rfl,
    decide_eq_true_iff]
  omega

theorem isEmpty_indentedDocument {number : Nat} (inText : number < lines.length)
    (shown : ∃ c ∈ lines[number], isSpaceOrTab c = false) :
    (indentedDocument ended lines).isEmpty number = false := by
  have here := unplaced_indentedDocument ended each inText
  have content : (indentedDocument ended lines).content number =
      lines[number].dropWhile isSpaceOrTab := congrArg Line.content here
  obtain ⟨c, member, visible⟩ := shown
  show ((indentedDocument ended lines).content number).isEmpty = false
  rw [content, List.isEmpty_eq_false_iff, ne_eq, List.dropWhile_eq_nil_iff]
  intro blank
  rw [blank c member] at visible
  cases visible

/-- All lines are code if there is content on the last one. -/
theorem indentedCode?_indentedDocument
    (ends : ∃ line, lines.getLast? = some line ∧ ∃ c ∈ line, isSpaceOrTab c = false) :
    indentedCode? (indentedDocument ended lines) 0 lines.length =
      some (.code (Text.join ['\n'] lines) (0, lines.length)) := by
  let scope := indentedDocument ended lines
  have deep := fun number => @isDeeplyIndented_indentedDocument ended lines each number
  have placed := fun number => @unplaced_indentedDocument ended lines each number
  obtain ⟨line, isLast, shown⟩ := ends
  rw [List.getLast?_eq_getElem?] at isLast
  obtain ⟨inText, rfl⟩ := List.getElem?_eq_some_iff.mp isLast
  have search : codeEnd scope lines.length (lines.length - 0) (0 + 1) (0 + 1) = lines.length :=
    codeEnd_eq (fun number _ inText => deep number inText)
      (isEmpty_indentedDocument ended each inText shown) (by omega) (by omega) (by omega)
  have content : scope.source 0 (0 + lines.length) 4 false = Text.join ['\n'] lines := by
    refine source_join (fun i inText => ?_) fun i more => ?_
    · rw [Nat.zero_add]
      exact (congrArg (Line.strip 4) (placed i inText)).trans (strip_codeLine _ _ _)
    · rw [Nat.zero_add]
      have lineEnds : (scope.line i).ended = (ended || decide (i + 1 < lines.length)) :=
        congrArg Line.ended (placed i (by omega))
      rw [lineEnds, decide_eq_true more, Bool.or_true]
  rw [indentedCode?_eq (deep 0 (by omega)) search]
  rw [Nat.zero_add] at content
  rw [← content]
  rfl

end

/-! ## The result -/

section

variable {md : Markdown} (chain : md.blockChain RuleTable.mainChain = BlockRule.all)
  (keeps : md.KeepsChains) (room : 1 ≤ md.maxNesting) (ended : Bool) {lines : List Text}
  (each : ∀ line ∈ lines, IsLine line)
include chain keeps room each

theorem parse_fencedLines {mark : Char} {count : Nat} {info : Text}
    (marks : mark = '\x60' ∨ mark = '~') (long : 3 ≤ count) (single : IsLine info)
    (apart : '\x60' ∉ info ∧ '~' ∉ info) (inside : ∀ line ∈ lines, ¬ClosesFence mark count line) :
    md.parse (lineText ended (fencedLines mark count info lines)) =
      [{ blockToken .fence "code".toList 0 (0, lines.length + 2) with
         markup := List.replicate count mark, info := info.trim, content := document lines }] := by
  let scope := fencedDocument ended mark count info lines
  let block : Block :=
    .fence (List.replicate count mark) info.trim (document lines) (0, lines.length + 2)
  have opening := openingLine_fencedDocument ended marks long single each
  have columns : (scope.line 0).columns = 0 := congrArg Line.columns opening
  have content : scope.content 0 = List.replicate count mark ++ info :=
    congrArg Line.content opening
  have shown : scope.isEmpty 0 = false := by
    show (scope.content 0).isEmpty = false
    have begins : (List.replicate count mark ++ info).head? = some mark := head?_fence long info
    rw [content, List.isEmpty_eq_false_iff]
    intro nothing
    rw [nothing] at begins
    cases begins
  have code : runRule md (parseBlocks md md.maxNesting) .code scope {} 0 (lines.length + 2) =
      none := by
    rw [runRule, indentedCode?, Scope.not_isDeeplyIndented columns]
    rfl
  have fence : runRule md (parseBlocks md md.maxNesting) .fence scope {} 0 (lines.length + 2) =
      some (block.made {}) := by
    rw [runRule, fence?_fencedDocument ended marks long single each apart inside]
    rfl
  have made : (BlockRule.all.findSome? fun rule =>
      runRule md (parseBlocks md md.maxNesting) rule scope {} 0 (lines.length + 2)) =
        some (block.made {}) := by
    rw [BlockRule.all, List.findSome?_cons, code, List.findSome?_cons, fence]
  have length : (fencedLines mark count info lines).length = lines.length + 2 := length_fencedLines
  rw [← length] at made
  rw [parse_lineText chain keeps room ended (isLine_fencedLines marks single each)
    (filled_fencedLines long) shown made length.symm]
  rfl

theorem parse_codeLines
    (begins : ∃ line, lines.head? = some line ∧ ∃ c ∈ line, isSpaceOrTab c = false)
    (ends : ∃ line, lines.getLast? = some line ∧ ∃ c ∈ line, isSpaceOrTab c = false) :
    md.parse (lineText ended (lines.map codeLine)) =
      [{ blockToken .codeBlock "code".toList 0 (0, lines.length) with
         content := Text.join ['\n'] lines }] := by
  let block : Block := .code (Text.join ['\n'] lines) (0, lines.length)
  have code := indentedCode?_indentedDocument ended each ends
  obtain ⟨line, isFirst, visible⟩ := begins
  obtain ⟨more, rfl⟩ := List.head?_eq_some_iff.mp isFirst
  have inText : 0 < (line :: more).length := Nat.succ_pos _
  have shown := isEmpty_indentedDocument ended each inText visible
  have made : (BlockRule.all.findSome? fun rule => runRule md (parseBlocks md md.maxNesting) rule
      (indentedDocument ended (line :: more)) {} 0 (line :: more).length) =
        some (block.made {}) := by
    rw [BlockRule.all, List.findSome?_cons, runRule, code]
    rfl
  have same : ((line :: more).map codeLine).length = (line :: more).length := List.length_map _
  rw [← same] at made
  rw [parse_lineText chain keeps room ended
    (List.forall_mem_map.mpr fun line member => isLine_codeLine (each line member))
    (filled_codeLines _) shown made same.symm]
  rfl

end

/-- Any lines are the content of fenced code if none of them closes the fence, and of indented code
if there is content on the first and the last one. This holds for any grammar of tags, any
transformer and any rules for inline content. -/
theorem parse_verbatim (md : Markdown) (room : 1 ≤ md.maxNesting) {lines : List Text}
    (each : ∀ line ∈ lines, IsLine line) (ended : Bool) :
    let usual : Markdown := { md with blockRules := ⟨BlockRule.all.map BlockRule.entry⟩ }
    (∀ mark count info, mark = '\x60' ∨ mark = '~' → 3 ≤ count → IsLine info →
        '\x60' ∉ info ∧ '~' ∉ info → (∀ line ∈ lines, ¬ClosesFence mark count line) →
      usual.parse (lineText ended (fencedLines mark count info lines)) =
        [{ blockToken .fence "code".toList 0 (0, lines.length + 2) with
           markup := List.replicate count mark, info := info.trim, content := document lines }]) ∧
    ((∃ line, lines.head? = some line ∧ ∃ c ∈ line, isSpaceOrTab c = false) →
        (∃ line, lines.getLast? = some line ∧ ∃ c ∈ line, isSpaceOrTab c = false) →
      usual.parse (lineText ended (lines.map codeLine)) =
        [{ blockToken .codeBlock "code".toList 0 (0, lines.length) with
           content := Text.join ['\n'] lines }]) := by
  intro usual
  have keeps : usual.KeepsChains := keepsChains_entries md BlockRule.all
  exact ⟨fun _ _ _ marks long single apart inside =>
      parse_fencedLines rfl keeps room ended each marks long single apart inside,
    fun begins ends => parse_codeLines rfl keeps room ended each begins ends⟩

/-- Lines with fences that are too short or indented too far, a tab and an empty line. -/
theorem parse_verbatim_fences :
    let md : Markdown := { transform := .ok }
    md.parse "~~~~ a b \n\t~~~~\n\n  ~~~  \n~~~~\n".toList =
        [{ blockToken .fence "code".toList 0 (0, 5) with
           markup := "~~~~".toList, info := "a b".toList,
           content := "\t~~~~\n\n  ~~~  \n".toList }] ∧
      md.parse "    \t~~~~\n    \n      ~~~  \n".toList =
        [{ blockToken .codeBlock "code".toList 0 (0, 3) with
           content := "\t~~~~\n\n  ~~~  ".toList }] := by
  intro md
  let lines := ["\t~~~~".toList, [], "  ~~~  ".toList]
  have each : ∀ line ∈ lines, IsLine line := by decide
  have inside : ∀ line ∈ lines, ¬ClosesFence '~' 4 line := by
    intro line member
    rw [closesFence_iff rfl (by decide)]
    revert line
    decide
  have parsed := parse_verbatim md (by decide) each true
  exact ⟨parsed.1 '~' 4 " a b ".toList (.inr rfl) (by decide) (by decide) (by decide) inside,
    parsed.2 ⟨_, rfl, '~', by decide, rfl⟩ ⟨_, rfl, '~', by decide, rfl⟩⟩

end ComponentMarkdown
