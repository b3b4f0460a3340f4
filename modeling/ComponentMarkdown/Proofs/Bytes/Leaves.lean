import ComponentMarkdown.Proofs.Block.Spans
import ComponentMarkdown.Proofs.Bytes.Lines
import ComponentMarkdown.Proofs.Bytes.Tags

/-!
# Leaf blocks by bytes

The rules for blocks without blocks in them, with every access to the text and to the marks checked.
The file has:

* the rules: `code`, `fence`, `hr`, `heading`, `embedded` and `paragraph`;
* `code_eq` and so on: with marks for lines, a rule does what it does on lines.
-/

namespace ComponentMarkdown

open Text Checked

/-- Is there a blank or the end of the window at an index? -/
def Checked.blankAt (b : Text) (max i : Nat) : Checked Bool :=
  if i < max then do return isSpaceOrTab (← byteAt b i) else return true

namespace ByteRun

/-- Runs a rule on the lines from the first number up to the second one: did it match? -/
abbrev Step := Nat → Nat → ByteRun → Checked (Bool × ByteRun)

/-! ## Code -/

/-- The line behind the last indented one. -/
def codeEnd (run : ByteRun) (stop next last : Nat) : Checked Nat :=
  if next < stop then do
    if ← run.isEmpty next then run.codeEnd stop (next + 1) last
    else if ← run.isDeeplyIndented next then run.codeEnd stop (next + 1) (next + 1)
    else return last
  else return last
termination_by stop - next

def code : Step := fun first stop run => do
  if !(← run.isDeeplyIndented first) then return (false, run)
  else
    let last ← run.codeEnd stop (first + 1) (first + 1)
    let content ← run.getLines first last (4 + run.indent) false
    return (true, (run.moveTo last).add
      { kind := .codeBlock, tag := "code".toList, nesting := .selfClosing, content,
        map := some (first, last) })

/-! ## Fences -/

/-- The line that opens a fence: its mark, the marks, and what follows them. -/
def fenceOpening (run : ByteRun) (first : Nat) : Checked (Option (Char × Nat × Text × Text)) := do
  let b := run.source.bytes
  let start ← run.contentStart first
  let max ← run.lineEnd first
  if max < start + 3 then return none
  else
    let mark ← byteAt b start
    if mark != '\x60' && mark != '~' then return none
    else
      let stop ← skipWhile (· == mark) b max start
      let length ← minus stop start
      if length < 3 then return none
      else
        let markup ← slice run.source start stop
        let info ← slice run.source stop max
        if mark == '\x60' && info.contains '\x60' then return none
        else return some (mark, length, markup, info)

/-- Does the line close a fence of `length` marks? -/
def closesFence (run : ByteRun) (mark : Char) (length number : Nat) : Checked Bool := do
  let b := run.source.bytes
  let start ← run.contentStart number
  let max ← run.lineEnd number
  if max ≤ start then return false
  else if (← byteAt b start) != mark then return false
  else
    let stop ← skipWhile (· == mark) b max start
    if (← minus stop start) < length then return false
    else return max ≤ (← skipWhile isSpaceOrTab b max stop)

/-- The line behind the content of a fence, and whether a closing line follows there. -/
def fenceEnd (run : ByteRun) (mark : Char) (length stop next : Nat) : Checked (Nat × Bool) :=
  if next < stop then do
    if !(← run.isEmpty next) && (← run.isDedented next) then return (next, false)
    else if !(← run.isDeeplyIndented next) && (← run.closesFence mark length next) then
      return (next, true)
    else run.fenceEnd mark length stop (next + 1)
  else return (next, false)
termination_by stop - next

def fence (silent : Bool) : Step := fun first stop run => do
  if ← run.isDeeplyIndented first then return (false, run)
  else
    match ← run.fenceOpening first with
    | none => return (false, run)
    | some (mark, length, markup, info) =>
      if silent then return (true, run)
      else
        let found ← run.fenceEnd mark length stop (first + 1)
        let line := if found.2 then found.1 + 1 else found.1
        let indent := (← member run.marks.columns first).toNat
        let content ← run.getLines (first + 1) found.1 indent true
        return (true, (run.moveTo line).add
          { kind := .fence, tag := "code".toList, nesting := .selfClosing, info := info.trim,
            content, markup, map := some (first, line) })

/-! ## Breaks and headings -/

def hr (silent : Bool) : Step := fun first _ run => do
  if ← run.isDeeplyIndented first then return (false, run)
  else
    let text ← run.lineText first
    match breakMarks? text.bytes with
    | none => return (false, run)
    | some markup =>
      if silent then return (true, run)
      else
        return (true, (run.moveTo (first + 1)).add
          { kind := .hr, tag := "hr".toList, nesting := .selfClosing, markup,
            map := some (first, first + 1) })

/-- Adds an inline token between an opening and a closing one. -/
def addText (run : ByteRun) (kinds : TokenKind × TokenKind) (tag markup content : Text)
    (span : LineSpan) : ByteRun :=
  let run := run.add { kind := kinds.1, tag, nesting := .opening, markup, map := some span }
  let run := run.add
    { kind := .inline, tag := [], nesting := .selfClosing, content, map := some span }
  run.add { kind := kinds.2, tag, nesting := .closing, markup }

def heading (silent : Bool) : Step := fun first _ run => do
  if ← run.isDeeplyIndented first then return (false, run)
  else
    let text ← run.lineText first
    let depth := runLength '#' text.bytes
    if depth == 0 || 6 < depth || !(← blankAt text.bytes text.size depth) then return (false, run)
    else if silent then return (true, run)
    else
      let rest ← slice text depth text.size
      return (true, (run.moveTo (first + 1)).addText (.headingOpen, .headingClose)
        ('h' :: Text.ofNat depth) (List.replicate depth '#') (headingContent rest)
        (first, first + 1))

/-! ## Embedded markup -/

/-- The first line from `next` on with a close tag up to which the lines are embedded markup: the
line behind it and the code, or else the line at which the search ended. -/
def findBlockClose (md : Markdown) (name : Text) (first stop : Nat) (run : ByteRun) (next : Nat) :
    Checked (Nat × Option Text) :=
  if next < stop then do
    if ← run.isDedented next then return (next, none)
    else
      let tag ← closeTag (← run.lineText next)
      if tag.any (·.name == name) then
        match md.transform.embed? (← run.getLines first (next + 1) run.indent true) with
        | some code => return (next + 1, some code)
        | none => findBlockClose md name first stop run (next + 1)
      else findBlockClose md name first stop run (next + 1)
  else return (next, none)
termination_by stop - next

/-- The line behind an element and its code, if it is embedded markup. -/
def embeddedCode (md : Markdown) (name : Text) (isSelfClosing : Bool) (first stop : Nat)
    (run : ByteRun) : Checked (Nat × Option Text) := do
  let found ←
    (if isSelfClosing then return (first + 1, none)
    else findBlockClose md name first stop run (first + 1) : Checked (Nat × Option Text))
  match found.2 with
  | some code => return (found.1, some code)
  | none => return (found.1, md.transform.embed? (← run.getLines first found.1 run.indent true))

def embedded (md : Markdown) (silent : Bool) : Step := fun first stop run => do
  let start ← run.contentStart first
  if run.source.bytes[start]? != some '<' then return (false, run)
  else
    let line := (← run.lineText first).trim
    match ← openTag .block line with
    | none => return (false, run)
    | some tag =>
      if silent then return (true, run)
      else
        let closed ← selfClosing .block line
        let found ← run.embeddedCode md tag.name closed.isSome first stop
        match found.2 with
        | none => return (false, run)
        | some content =>
          return (true, (run.moveTo found.1).add
            { kind := .embeddedBlock, tag := [], nesting := .selfClosing, content,
              map := some (first, found.1) })

/-! ## Paragraphs -/

/-- The line behind a paragraph that has come as far as `next`. -/
def seekParagraphEnd (ends : Step) (stop next : Nat) (run : ByteRun) : Checked (Nat × ByteRun) :=
  if next < stop then do
    if ← run.isEmpty next then return (next, run)
    else if (← run.isDeeplyIndented next) || (← member run.marks.columns next) < 0 then
      seekParagraphEnd ends stop (next + 1) run
    else
      let asked ← ends next stop run
      if asked.1 then return (next, asked.2) else seekParagraphEnd ends stop (next + 1) asked.2
  else return (next, run)
termination_by stop - next

/-- A paragraph goes on until `ends` says that something else begins. -/
def paragraph (ends : Step) : Step := fun first stop run => do
  let parent := run.parent
  let found ← seekParagraphEnd ends stop (first + 1) (run.setParent .paragraph)
  let run := found.2
  let content := (← run.getLines first found.1 run.indent false).trim
  let run := (run.moveTo found.1).addText (.paragraphOpen, .paragraphClose) ['p'] [] content
    (first, found.1)
  return (true, run.setParent parent)

/-! ## What the rules do -/

/-- What a step has come to, with marks for lines. -/
def ofStep (source : Text) (tried : Bool × BlockRun) : Bool × ByteRun :=
  (tried.1, ofRun source tried.2)

/-- With marks for lines, a step does what it does on lines. -/
def Agrees (source : Text) (checked : Step) (step : BlockRun.Step) : Prop :=
  ∀ first stop run, first < stop → stop ≤ run.lineCount → run.scope.LiesIn source →
    checked first stop (ofRun source run) = .ok (ofStep source (step first stop run))

variable {source : Text} {run : BlockRun} {first next stop : Nat}

theorem codeEnd_eq (lies : run.scope.LiesIn source) (inText : stop ≤ run.lineCount) (fuel : Nat)
    (enough : stop ≤ next + fuel) (last : Nat) :
    (ofRun source run).codeEnd stop next last =
      .ok (ComponentMarkdown.codeEnd run.scope stop fuel next last) := by
  induction fuel generalizing next last with
  | zero =>
    rw [codeEnd, if_neg (show ¬ next < stop from Nat.not_lt.mpr enough)]
    rfl
  | succ fuel ih =>
    rw [codeEnd, ComponentMarkdown.codeEnd]
    by_cases inWindow : next < stop
    · have inLines : next < run.lineCount := Nat.lt_of_lt_of_le inWindow inText
      rw [if_pos inWindow, if_neg (Nat.not_le_of_lt inWindow), isEmpty_eq lies inLines, ok_bind,
        isDeeplyIndented_eq inLines, ok_bind]
      cases run.scope.isEmpty next with
      | true => exact ih (by omega) last
      | false =>
        cases run.scope.isDeeplyIndented next with
        | true => exact ih (by omega) (next + 1)
        | false => rfl
    · rw [if_neg inWindow, if_pos (Nat.le_of_not_lt inWindow)]
      rfl

theorem code_eq (lies : run.scope.LiesIn source) (inWindow : first < stop)
    (inText : stop ≤ run.lineCount) :
    code first stop (ofRun source run) = .ok (ofStep source (BlockRun.code first stop run)) := by
  have ⟨behind, upTo⟩ := codeEnd_bounds run.scope (stop - first) (Nat.le_refl (first + 1)) inWindow
  unfold code BlockRun.code
  rw [isDeeplyIndented_eq (Nat.lt_of_lt_of_le inWindow inText), ok_bind]
  cases run.scope.isDeeplyIndented first with
  | false => rfl
  | true =>
    rw [if_neg (by decide), if_neg (by decide),
      codeEnd_eq lies inText (stop - first) (by omega), ok_bind,
      getLines_eq lies (by omega) (by omega), ok_bind]
    rfl

theorem fenceOpening_eq (lies : run.scope.LiesIn source) (inText : first < run.lineCount) :
    (ofRun source run).fenceOpening first =
      .ok ((fenceOpening? (run.scope.content first)).map fun opening =>
        (opening.1, opening.2.1, List.replicate opening.2.1 opening.1, opening.2.2)) := by
  have inLine := lies first inText
  unfold fenceOpening Scope.content
  rw [contentStart_eq inText, ok_bind, lineEnd_eq inText, ok_bind]
  generalize run.scope.line first = line at *
  have ahead := inLine.ahead_content
  have size_content := inLine.offset_stop
  rw [source_ofRun]
  cases isContent : line.content with
  | nil =>
    rw [isContent, size_nil] at size_content
    rw [if_pos (by omega)]
    rfl
  | cons mark rest =>
    rw [isContent] at ahead size_content
    unfold fenceOpening?
    dsimp only
    by_cases isMark : (mark == '\x60' || mark == '~') = true
    · have isAscii : mark.toNat < 128 := by
        simp only [Bool.or_eq_true, beq_iff_eq] at isMark
        rcases isMark with rfl | rfl <;> decide
      have notOther : ¬ (mark != '\x60' && mark != '~') = true := by
        simpa only [bne, ← Bool.not_or, Bool.not_eq_true', Bool.not_eq_false] using isMark
      obtain ⟨skipped, -, -, ends⟩ := skipWhile_run isAscii ahead
      have whole := replicate_append_drop mark (mark :: rest)
      have front := @Line.LiesIn.slice_part _ _ inLine [] _ _ (isContent.trans whole.symm)
      have back := inLine.slice_rest (isContent.trans whole.symm)
      have long : size (List.replicate (runLength mark (mark :: rest)) mark) =
          runLength mark (mark :: rest) := by
        rw [size, bytes_replicate isAscii, List.length_replicate]
      rw [long] at front back
      rw [size_nil, Nat.add_zero] at front
      rw [bytes_cons_of_ascii isAscii] at ahead
      rw [isMark, Bool.true_and]
      generalize runLength mark (mark :: rest) = length at *
      by_cases short : length < 3
      · have notLong : (decide (3 ≤ length)) = false := decide_eq_false (Nat.not_le_of_lt short)
        rw [notLong, Bool.false_and]
        split
        · rfl
        · rw [ahead.byteAt, ok_bind, if_neg notOther, skipped, ok_bind,
            minus_of_le (Nat.le_add_right ..), ok_bind, Nat.add_sub_cancel_left, if_pos short]
          rfl
      · rw [if_neg (by omega), ahead.byteAt, ok_bind, if_neg notOther, skipped, ok_bind,
          minus_of_le (Nat.le_add_right ..), ok_bind, Nat.add_sub_cancel_left, if_neg short,
          decide_eq_true (Nat.le_of_not_lt short), Bool.true_and]
        rw [front, ok_bind, back, ok_bind]
        cases mark == '\x60' && List.contains (List.drop length (mark :: rest)) '\x60' <;> rfl
    · have other : (mark != '\x60' && mark != '~') = true := by
        simpa only [bne, ← Bool.not_or, Bool.not_eq_true'] using Bool.eq_false_iff.mpr isMark
      rw [bytes_cons_eq] at ahead
      rw [Bool.eq_false_iff.mpr isMark, Bool.false_and, Bool.false_and]
      split
      · rfl
      · rw [ahead.byteAt, ok_bind]
        simp only [bne, @lead_beq '\x60' (by decide), @lead_beq '~' (by decide)]
        rw [← bne, ← bne, if_pos other]
        rfl

theorem closesFence_eq (lies : run.scope.LiesIn source) (inText : next < run.lineCount)
    {mark : Char} (isAscii : mark.toNat < 128) {length : Nat} (positive : 0 < length) :
    (ofRun source run).closesFence mark length next =
      .ok (ComponentMarkdown.closesFence mark length (run.scope.content next)) := by
  have inLine := lies next inText
  unfold closesFence ComponentMarkdown.closesFence Scope.content
  rw [contentStart_eq inText, ok_bind, lineEnd_eq inText, ok_bind, source_ofRun]
  generalize run.scope.line next = line at *
  have ahead := inLine.ahead_content
  obtain ⟨skipped, behind⟩ := skipWhile_run isAscii ahead
  have blanks := skipWhile_atEnd asciiOnly_isSpaceOrTab.uniform behind
  dsimp only
  cases isContent : line.content with
  | nil =>
    rw [isContent] at ahead
    rw [if_pos (Nat.le_of_eq ahead.nil)]
    show _ = Except.ok (decide (length ≤ 0) && _)
    rw [decide_eq_false (Nat.not_le_of_lt positive)]
    rfl
  | cons c rest =>
    rw [isContent] at ahead skipped blanks
    rw [bytes_cons_eq] at ahead
    rw [if_neg (Nat.not_le_of_lt ahead.lt), ahead.byteAt, ok_bind, bne, lead_beq isAscii]
    by_cases isMark : (c == mark) = true
    · have notOther : ¬ (!(c == mark)) = true := by rw [isMark]; exact Bool.false_ne_true
      rw [if_neg notOther, skipped, ok_bind, minus_of_le (Nat.le_add_right ..), ok_bind,
        Nat.add_sub_cancel_left]
      generalize runLength mark (c :: rest) = count at *
      by_cases short : count < length
      · rw [if_pos short, decide_eq_false (Nat.not_le_of_lt short)]
        rfl
      · rw [if_neg short, decide_eq_true (Nat.le_of_not_lt short), Bool.true_and]
        exact blanks
    · have other : (!(c == mark)) = true := by rw [Bool.eq_false_iff.mpr isMark]; rfl
      rw [if_pos other, runLength_of_ne isMark, decide_eq_false (Nat.not_le_of_lt positive)]
      rfl

theorem fenceEnd_eq (lies : run.scope.LiesIn source) (inText : stop ≤ run.lineCount)
    {mark : Char} (isAscii : mark.toNat < 128) {length : Nat} (positive : 0 < length) (fuel : Nat)
    (enough : stop ≤ next + fuel) :
    (ofRun source run).fenceEnd mark length stop next =
      .ok (ComponentMarkdown.fenceEnd run.scope mark length stop fuel next) := by
  induction fuel generalizing next with
  | zero =>
    rw [fenceEnd, if_neg (show ¬ next < stop from Nat.not_lt.mpr enough)]
    rfl
  | succ fuel ih =>
    rw [fenceEnd, ComponentMarkdown.fenceEnd]
    by_cases inWindow : next < stop
    · have inLines : next < run.lineCount := Nat.lt_of_lt_of_le inWindow inText
      rw [if_pos inWindow, if_neg (Nat.not_le_of_lt inWindow), isEmpty_eq lies inLines, ok_bind,
        isDedented_eq inLines, ok_bind, isDeeplyIndented_eq inLines, ok_bind,
        closesFence_eq lies inLines isAscii positive, ok_bind]
      cases !run.scope.isEmpty next && run.scope.isDedented next with
      | true => rfl
      | false =>
        cases !run.scope.isDeeplyIndented next &&
            ComponentMarkdown.closesFence mark length (run.scope.content next) with
        | true => rfl
        | false => exact ih (by omega)
    · rw [if_neg inWindow, if_pos (Nat.le_of_not_lt inWindow)]
      rfl

/-- What a fence begins with. -/
theorem fenceOpening_bounds {content info : Text} {mark : Char} {length : Nat}
    (opens : fenceOpening? content = some (mark, length, info)) :
    mark.toNat < 128 ∧ 0 < length := by
  unfold fenceOpening? at opens
  split at opens
  · cases opens
  · dsimp only at opens
    split at opens
    · next holds =>
      cases opens
      simp only [Bool.and_eq_true, Bool.or_eq_true, beq_iff_eq, decide_eq_true_eq] at holds
      refine ⟨?_, by omega⟩
      rcases holds.1.1 with rfl | rfl <;> decide
    · cases opens

theorem fence_eq (lies : run.scope.LiesIn source) (silent : Bool) (inWindow : first < stop)
    (inText : stop ≤ run.lineCount) :
    fence silent first stop (ofRun source run) =
      .ok (ofStep source (BlockRun.fence silent first stop run)) := by
  have inLines : first < run.lineCount := Nat.lt_of_lt_of_le inWindow inText
  unfold fence BlockRun.fence
  rw [isDeeplyIndented_eq inLines, ok_bind, fenceOpening_eq lies inLines]
  cases run.scope.isDeeplyIndented first with
  | true => rfl
  | false =>
    rw [if_neg Bool.false_ne_true, if_neg Bool.false_ne_true, ok_bind]
    cases opens : fenceOpening? (run.scope.content first) with
    | none => rfl
    | some opening =>
      obtain ⟨mark, length, info⟩ := opening
      obtain ⟨isAscii, positive⟩ := fenceOpening_bounds opens
      have ⟨behind, upTo, _⟩ :=
        fenceEnd_bounds run.scope mark length (stop - first) (show first + 1 ≤ stop from inWindow)
      cases silent with
      | true => rfl
      | false =>
        show ((ofRun source run).fenceEnd mark length stop (first + 1) >>= _) = _
        rw [fenceEnd_eq lies inText isAscii positive (stop - first) (by omega), ok_bind,
          columns_eq inLines, ok_bind]
        dsimp only
        rw [getLines_eq lies behind (by omega), ok_bind]
        rfl

/-! ## Breaks and headings -/

theorem breakMarks?_bytes (content : Text) : breakMarks? (bytes content) = breakMarks? content := by
  cases content with
  | nil => rfl
  | cons c rest =>
    unfold breakMarks?
    rw [bytes_cons_eq]
    dsimp only
    rw [← bytes_cons_eq]
    simp only [@lead_beq '*' (by decide), @lead_beq '-' (by decide), @lead_beq '_' (by decide)]
    cases isMark : c == '*' || c == '-' || c == '_' with
    | false => rfl
    | true =>
      have isAscii : c.toNat < 128 := by
        simp only [Bool.or_eq_true, beq_iff_eq] at isMark
        rcases isMark with (rfl | rfl) | rfl <;> decide
      have only := asciiOnly_beq isAscii
      rw [lead_of_ascii isAscii, only.filter_bytes,
        all_bytes (only.or asciiOnly_isSpaceOrTab).uniform]

theorem hr_eq (lies : run.scope.LiesIn source) (silent : Bool) (stop : Nat)
    (inText : first < run.lineCount) :
    hr silent first stop (ofRun source run) =
      .ok (ofStep source (BlockRun.hr silent first stop run)) := by
  unfold hr BlockRun.hr
  rw [isDeeplyIndented_eq inText, ok_bind, lineText_eq lies inText, ok_bind, breakMarks?_bytes]
  cases run.scope.isDeeplyIndented first with
  | true => rfl
  | false =>
    cases breakMarks? (run.scope.content first) with
    | none => rfl
    | some markup => cases silent <;> rfl

theorem blankAt_eq {b w : Text} {max i : Nat} (ahead : Ahead b i max (bytes w)) :
    blankAt b max i = .ok (w.head?.all isSpaceOrTab) := by
  unfold blankAt
  cases w with
  | nil =>
    rw [if_neg (Nat.not_lt.mpr (Nat.le_of_eq ahead.nil))]
    rfl
  | cons c w =>
    rw [bytes_cons_eq] at ahead
    rw [if_pos ahead.lt, ahead.byteAt, ok_bind, asciiOnly_isSpaceOrTab.uniform.lead]
    rfl

theorem heading_eq (lies : run.scope.LiesIn source) (silent : Bool) (stop : Nat)
    (inText : first < run.lineCount) :
    heading silent first stop (ofRun source run) =
      .ok (ofStep source (BlockRun.heading silent first stop run)) := by
  unfold heading BlockRun.heading
  rw [isDeeplyIndented_eq inText, ok_bind, lineText_eq lies inText, ok_bind]
  dsimp only
  rw [runLength_bytes (by decide)]
  cases run.scope.isDeeplyIndented first with
  | true => rfl
  | false =>
    generalize run.scope.content first = content
    have whole := replicate_append_drop '#' content
    have all : Ahead content.bytes 0 content.size (bytes content) := Ahead.whole content.bytes
    obtain ⟨-, behind⟩ := skipWhile_run (show '#'.toNat < 128 by decide) all
    rw [Nat.zero_add] at behind
    have sliced : slice content (runLength '#' content) content.size =
        .ok (content.drop (runLength '#' content)) := by
      have length : size (List.replicate (runLength '#' content) '#') = runLength '#' content := by
        rw [size, bytes_replicate (by decide), List.length_replicate]
      have parts : content = List.replicate (runLength '#' content) '#' ++
          (content.drop (runLength '#' content) ++ []) := by
        rw [List.append_nil, whole]
      refine slice_of_eq parts length.symm ?_
      · rw [← size_append, whole]
    rw [if_neg Bool.false_ne_true, if_neg Bool.false_ne_true, blankAt_eq behind, ok_bind]
    unfold headingDepth?
    dsimp only
    generalize runLength '#' content = depth at *
    have range : (depth == 0 || decide (6 < depth)) =
        !(decide (1 ≤ depth) && decide (depth ≤ 6)) := by
      rw [Bool.eq_iff_iff]
      simp only [Bool.or_eq_true, beq_iff_eq, decide_eq_true_eq, Bool.not_eq_true',
        Bool.and_eq_false_iff, decide_eq_false_iff_not]
      omega
    rw [range, ← Bool.not_and]
    cases decide (1 ≤ depth) && decide (depth ≤ 6) &&
        (content.drop depth).head?.all isSpaceOrTab with
    | false => rfl
    | true =>
      cases silent with
      | true => rfl
      | false =>
        show (slice content depth content.size >>= _) = _
        rw [sliced, ok_bind]
        rfl

/-! ## Embedded markup -/

section

variable {md : Markdown} (isJsx : md.grammar = TagGrammar.jsx)
include isJsx

theorem findBlockClose_eq (lies : run.scope.LiesIn source) (inText : stop ≤ run.lineCount)
    (name : Text) (ordered : first ≤ next) (fuel : Nat) (enough : stop ≤ next + fuel) :
    findBlockClose md name first stop (ofRun source run) next =
      .ok (ComponentMarkdown.findBlockClose md run.scope name first stop fuel next) := by
  induction fuel generalizing next with
  | zero =>
    rw [findBlockClose, if_neg (show ¬ next < stop from Nat.not_lt.mpr enough)]
    rfl
  | succ fuel ih =>
    rw [findBlockClose, ComponentMarkdown.findBlockClose]
    by_cases inWindow : next < stop
    · have inLines : next < run.lineCount := Nat.lt_of_lt_of_le inWindow inText
      rw [if_pos inWindow, isDedented_eq inLines, ok_bind, lineText_eq lies inLines, ok_bind,
        closeTag_eq .block, ok_bind, getLines_eq lies (by omega) (by omega), ok_bind,
        decide_eq_false (Nat.not_le_of_lt inWindow), Bool.false_or, isJsx]
      cases run.scope.isDedented next with
      | true => rfl
      | false =>
        have named : ((TagGrammar.jsx.closeTag .block (run.scope.content next)).map fun tag =>
            FoundTag.mk tag.name (offset (run.scope.content next) tag.length)).any
              (·.name == name) =
            (TagGrammar.jsx.closeTag .block (run.scope.content next)).any (·.name == name) := by
          cases TagGrammar.jsx.closeTag .block (run.scope.content next) <;> rfl
        rw [if_neg Bool.false_ne_true, if_neg Bool.false_ne_true, named]
        cases (TagGrammar.jsx.closeTag .block (run.scope.content next)).any (·.name == name) with
        | false => exact ih (by omega) (by omega)
        | true =>
          rw [if_pos rfl, if_pos rfl]
          show (match embedLines? md run.scope first (next + 1) with
            | some code => pure (next + 1, some code)
            | none => findBlockClose md name first stop (ofRun source run) (next + 1)) = _
          cases embedLines? md run.scope first (next + 1) with
          | some code => rfl
          | none => exact ih (by omega) (by omega)
    · rw [if_neg inWindow, decide_eq_true (Nat.le_of_not_lt inWindow)]
      rfl

theorem embeddedCode_eq (lies : run.scope.LiesIn source) (inWindow : first < stop)
    (inText : stop ≤ run.lineCount) (name : Text) (isSelfClosing : Bool) :
    let found :=
      if isSelfClosing then (first + 1, none)
      else ComponentMarkdown.findBlockClose md run.scope name first stop (stop - first) (first + 1)
    (ofRun source run).embeddedCode md name isSelfClosing first stop =
      .ok (found.1, found.2 <|> embedLines? md run.scope first found.1) := by
  have ⟨behind, upTo⟩ :=
    findBlockClose_bounds md run.scope name first (stop - first)
      (show first + 1 ≤ stop from inWindow)
  unfold embeddedCode
  rw [findBlockClose_eq isJsx lies inText name (Nat.le_succ first) (stop - first) (by omega)]
  cases isSelfClosing with
  | true =>
    show ((ofRun source run).getLines first (first + 1) run.scope.indent true >>= _) = _
    rw [getLines_eq lies (by omega) (by omega), ok_bind]
    rfl
  | false =>
    rw [if_neg Bool.false_ne_true, if_neg Bool.false_ne_true, ok_bind]
    generalize ComponentMarkdown.findBlockClose md run.scope name first stop (stop - first)
      (first + 1) = found at *
    obtain ⟨next, code⟩ := found
    cases code with
    | some code => rfl
    | none =>
      show ((ofRun source run).getLines first next run.scope.indent true >>= _) = _
      rw [getLines_eq lies (show first ≤ next from Nat.le_of_lt behind)
        (show next ≤ run.lineCount from Nat.le_trans upTo inText), ok_bind]
      rfl

theorem embedded_eq (lies : run.scope.LiesIn source) (silent : Bool) (inWindow : first < stop)
    (inText : stop ≤ run.lineCount) :
    embedded md silent first stop (ofRun source run) =
      .ok (ofStep source (BlockRun.embedded md silent first stop run)) := by
  have inLines : first < run.lineCount := Nat.lt_of_lt_of_le inWindow inText
  have begins := (lies first inLines).getElem?_content (show '<'.toNat < 128 by decide)
    (by decide)
  have code := embeddedCode_eq isJsx lies inWindow inText
  unfold embedded BlockRun.embedded openTagAt?
  rw [contentStart_eq inLines, ok_bind, lineText_eq lies inLines, ok_bind, source_ofRun, bne,
    show _ = ((run.scope.content first).head? == some '<') from begins]
  dsimp only at code ⊢
  rw [openTag_eq, ok_bind, selfClosing_eq, isJsx]
  cases (run.scope.content first).head? == some '<' with
  | false => rfl
  | true =>
    have goesOn : ¬ (!true) = true := Bool.false_ne_true
    rw [if_neg goesOn, if_pos rfl]
    cases TagGrammar.jsx.openTag .block (run.scope.content first).trim with
    | none => rfl
    | some tag =>
      cases silent with
      | true => rfl
      | false =>
        dsimp only [Option.map_some]
        rw [if_neg Bool.false_ne_true, if_neg Bool.false_ne_true, ok_bind, code, ok_bind,
          Option.isSome_map]
        dsimp only
        generalize (if (TagGrammar.jsx.selfClosing .block (run.scope.content first).trim).isSome =
          true then (first + 1, none)
          else ComponentMarkdown.findBlockClose md run.scope tag.name first stop (stop - first)
            (first + 1)) = found
        cases found.2 <|> embedLines? md run.scope first found.1 <;> rfl

end

/-! ## Paragraphs -/

theorem seekParagraphEnd_eq {md : Markdown} {chain : String} {ends : BlockRun.Step}
    {checkedEnds : Step} (answers : BlockRun.Answers md chain ends)
    (agrees : Agrees source checkedEnds ends) (lies : run.scope.LiesIn source)
    (inText : stop ≤ run.lineCount) (fuel : Nat) (enough : stop ≤ next + fuel) :
    seekParagraphEnd checkedEnds stop next (ofRun source run) =
      .ok ((BlockRun.seekParagraphEnd ends stop fuel next run).1,
        ofRun source (BlockRun.seekParagraphEnd ends stop fuel next run).2) := by
  induction fuel generalizing next with
  | zero =>
    rw [seekParagraphEnd, if_neg (show ¬ next < stop from Nat.not_lt.mpr enough)]
    rfl
  | succ fuel ih =>
    rw [seekParagraphEnd, BlockRun.seekParagraphEnd]
    by_cases inWindow : next < stop
    · have inLines : next < run.lineCount := Nat.lt_of_lt_of_le inWindow inText
      have stays : (ends next stop run).2 = run := congrArg Prod.snd (answers next stop run)
      rw [if_pos inWindow, isEmpty_eq lies inLines, ok_bind, isDeeplyIndented_eq inLines, ok_bind,
        columns_eq inLines, ok_bind, agrees next stop run inWindow inText lies, ok_bind,
        decide_eq_false (Nat.not_le_of_lt inWindow), Bool.false_or, ofStep, stays]
      cases run.scope.isEmpty next with
      | true => rfl
      | false =>
        rw [if_neg Bool.false_ne_true, if_neg Bool.false_ne_true]
        cases run.scope.isDeeplyIndented next || decide ((run.scope.line next).columns < 0) with
        | true => exact ih (by omega)
        | false =>
          dsimp only
          rw [if_neg Bool.false_ne_true, if_neg Bool.false_ne_true, stays]
          cases (ends next stop run).1 with
          | true => rfl
          | false => exact ih (by omega)
    · rw [if_neg inWindow, decide_eq_true (Nat.le_of_not_lt inWindow)]
      rfl

theorem paragraph_eq {md : Markdown} {ends : BlockRun.Step} {checkedEnds : Step}
    (answers : BlockRun.Answers md "paragraph" ends) (agrees : Agrees source checkedEnds ends)
    (lies : run.scope.LiesIn source) (inWindow : first < stop) (inText : stop ≤ run.lineCount) :
    paragraph checkedEnds first stop (ofRun source run) =
      .ok (ofStep source (BlockRun.paragraph ends first stop run)) := by
  have sought :=
    @seekParagraphEnd_eq source (run.setParent .paragraph) _ _ _ _ _ _ answers agrees lies
    inText (stop - first) (show stop ≤ first + 1 + (stop - first) by omega)
  have same := BlockRun.seekParagraphEnd_eq answers run.scope stop (stop - first) (first + 1)
    (show (run.setParent .paragraph).scope = { run.scope with parent := .paragraph } from rfl)
  have ⟨behind, upTo⟩ :=
    paragraphEnd_bounds md run.scope (stop - first) (show first + 1 ≤ stop from inWindow)
  unfold paragraph BlockRun.paragraph
  dsimp only
  rw [same] at sought ⊢
  rw [setParent_ofRun, sought, ok_bind]
  dsimp only
  rw [@getLines_eq source (run.setParent .paragraph) lies _ _ (by omega)
    (show _ ≤ run.lineCount by omega), ok_bind]
  rfl

end ByteRun

end ComponentMarkdown
