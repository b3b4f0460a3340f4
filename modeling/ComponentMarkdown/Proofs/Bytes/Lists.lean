import ComponentMarkdown.Proofs.Bytes.Quotes

/-!
# Lists by bytes

The marker of an item counts as indentation while the blocks of the item are parsed. The file has:

* the markers of lists, `listItem`, `listItems` and `list`, with every access checked;
* `orderedMarker_eq` and `bulletMarker_eq`: the markers that are found are those of the lines;
* `list_eq`: with marks for lines, a list is what it is on lines.
-/

namespace ComponentMarkdown

open Text Checked

namespace ByteRun

/-! ## Markers -/

/-- The index behind the marker of a bullet list. -/
def bulletMarker (run : ByteRun) (number : Nat) : Checked (Option Nat) := do
  let b := run.source.bytes
  let start ← run.contentStart number
  let max ← run.lineEnd number
  if max ≤ start then return none
  else
    let mark ← byteAt b start
    if !(mark == '*' || mark == '-' || mark == '+') then return none
    else if ← blankAt b max (start + 1) then return some (start + 1)
    else return none

/-- The index behind the marker of an ordered list, and its number. -/
def orderedMarker (run : ByteRun) (number : Nat) : Checked (Option (Nat × Nat)) := do
  let b := run.source.bytes
  let start ← run.contentStart number
  let max ← run.lineEnd number
  let count := ((← bytesIn b start max).takeWhile Char.isDigit).length
  if count == 0 || 9 < count then return none
  else
    let pos := start + count
    if max ≤ pos then return none
    else
      let mark ← byteAt b pos
      if !(mark == '.' || mark == ')') then return none
      else if ← blankAt b max (pos + 1) then
        let digits ← slice run.source start pos
        return some (pos + 1, digits.foldl (fun n c => n * 10 + (c.toNat - '0'.toNat)) 0)
      else return none

/-- The marker of a list: is the list ordered, the index behind the marker, and the number. -/
def listMarker (run : ByteRun) (number : Nat) : Checked (Option (Bool × Nat × Nat)) := do
  match ← run.orderedMarker number with
  | some (after, value) => return some (true, after, value)
  | none => return (← run.bulletMarker number).map fun after => (false, after, 1)

/-- The index behind a marker that goes on with the list. -/
def nextMarker (run : ByteRun) (isOrdered : Bool) (mark : Char) (number : Nat) :
    Checked (Option Nat) := do
  let found ←
    (if isOrdered then do return (← run.orderedMarker number).map (·.1)
    else run.bulletMarker number : Checked (Option Nat))
  match found with
  | none => return none
  | some after =>
    let last ← minus after 1
    if (← byteAt run.source.bytes last) == mark then return some after else return none

/-! ## Items -/

/-- The column behind a blank, of a column that may be below zero. -/
def columnBehind (column : Int) (c : Char) : Checked Int :=
  return if c == '\t' then column + (4 - column.tmod 4) else column + 1

/-- The number of an item, as it is written. -/
def itemNumber (run : ByteRun) (isOrdered : Bool) (start after : Nat) : Checked Text := do
  if isOrdered then slice run.source start (← minus after 1) else return []

/-- Parses the blocks of an item. An item without content has no blocks if the line behind it is
empty. -/
def itemBody (parse : Parse) (stop next : Nat) (hasContent : Bool) (run : ByteRun) :
    Checked ByteRun := do
  if !hasContent && (← run.isEmpty (next + 1)) then return run.moveTo (min (next + 2) stop)
  else parse next stop run

/-- Is the last line of an item that takes several lines empty? -/
def gapBehind (run : ByteRun) (next : Nat) : Checked Bool := do
  if 1 < (← minus run.progress.line next) then run.isEmpty (← minus run.progress.line 1)
  else return false

/-- The item of a list at line `next`: was it tight, did an empty line end it, and the run. -/
def listItem (parse : Parse) (stop next : Nat) (isOrdered : Bool) (mark : Char) (after : Nat)
    (run : ByteRun) : Checked (Bool × Bool × ByteRun) := do
  let max ← run.lineEnd next
  let start ← run.contentStart next
  let saved ← run.lineMarks next
  let first := saved.2.2 + (← minus after start)
  let (behind, column) ← skipColumns columnBehind run.source.bytes max after first
  let gap := if max ≤ behind then 1 else column - first
  let indent := (first + if 4 < gap then 1 else gap).toNat
  let info ← run.itemNumber isOrdered start after
  let opened := run.add
    { kind := .listItemOpen, tag := "li".toList, nesting := .opening, markup := [mark], info }
  let entered ← ((opened.setIndent indent).setTight true).setMarks next saved.1
    (← minus behind saved.1) column
  let parsed ← itemBody parse stop next (behind < max) entered
  let hasGap ← parsed.gapBehind next
  let line := Nat.max parsed.progress.line (next + 1)
  let restored ← (parsed.setIndent run.indent).setMarks next saved.1 saved.2.1 saved.2.2
  let closed := (restored.setTight run.progress.tight).add
    { kind := .listItemClose, tag := "li".toList, nesting := .closing, markup := [mark] }
  let mapped ← closed.setMap run.tokens.length (next, line)
  return (parsed.progress.tight, hasGap, mapped.moveTo line)

/-- The items of a list from `next` on, where a marker ends at `after`: are all of them tight? -/
def listItems (parse : Parse) (ends : Step) (stop : Nat) (isOrdered : Bool) (mark : Char) :
    Nat → Nat → Nat → Bool → ByteRun → Checked (Bool × Nat × ByteRun)
  | 0, _, _, _, _ => throw .depth
  | fuel + 1, next, after, gapBefore, run => do
    if stop ≤ next then return (true, next, run)
    else
      let made ← listItem parse stop next isOrdered mark after run
      let tight := made.1 && !gapBefore
      let line := made.2.2.progress.line
      if stop ≤ line then return (tight, line, made.2.2)
      else if (← made.2.2.isDedented line) || (← made.2.2.isDeeplyIndented line) then
        return (tight, line, made.2.2)
      else
        let asked ← ends line stop made.2.2
        if asked.1 then return (tight, line, asked.2)
        else
          match ← asked.2.nextMarker isOrdered mark line with
          | none => return (tight, line, asked.2)
          | some after =>
            let others ← listItems parse ends stop isOrdered mark fuel line after made.2.1 asked.2
            return (tight && others.1, others.2)

/-! ## Lists -/

/-- The token at an index. -/
def tokenAt (tokens : List Token) (index : Nat) : Checked Token :=
  match tokens[index]? with
  | some token => return token
  | none => throw .index

/-- Hides the token at an index. -/
def hideToken (tokens : List Token) (index : Nat) : Checked (List Token) :=
  if index < tokens.length then return tokens.modify index ({ · with hidden := true })
  else throw .index

/-- Hides the paragraphs of a level among `count` tokens, from an index on. -/
def hideFrom (level count : Nat) (tokens : List Token) (index : Nat) : Checked (List Token) :=
  if index + 2 < count then do
    let token ← tokenAt tokens index
    if token.level == level && token.kind == .paragraphOpen then
      let hidden ← hideToken tokens index
      hideFrom level count (← hideToken hidden (index + 2)) (index + 3)
    else hideFrom level count tokens (index + 1)
  else return tokens
termination_by count - index

/-- Hides the paragraphs that belong to the items of the list whose first token has the index. -/
def hideItemParagraphs (run : ByteRun) (index : Nat) : Checked ByteRun := do
  return { run with
    tokens := ← hideFrom (run.level + 2) run.tokens.length run.tokens (index + 2) }

/-- A list. If it is tight, the paragraphs of its items are hidden. -/
def list (parse : Parse) (ends : Step) (silent : Bool) : Step := fun first stop run => do
  if ← run.isDeeplyIndented first then return (false, run)
  else
    let isDedented ← run.isDedented first
    let endsParagraph := silent && run.parent = .paragraph && !isDedented
    match ← run.listMarker first with
    | none => return (false, run)
    | some (isOrdered, after, value) =>
      if endsParagraph && value != 1 then return (false, run)
      else
        let rest ← slice run.source after (← run.lineEnd first)
        if endsParagraph && rest.trim.isEmpty then return (false, run)
        else if silent then return (true, run)
        else
          let mark ← byteAt run.source.bytes (← minus after 1)
          let kinds := listKinds isOrdered
          let tag := (if isOrdered then "ol" else "ul").toList
          let opened := run.add
            { kind := kinds.1, tag, nesting := .opening, markup := [mark],
              attrs := startAttributes (if isOrdered then some value else none) }
          let found ← listItems parse ends stop isOrdered mark (stop - first + 1) first after false
            (opened.setParent .list)
          let closed :=
            found.2.2.add { kind := kinds.2, tag, nesting := .closing, markup := [mark] }
          let mapped ← closed.setMap run.tokens.length (first, found.2.1)
          let left := (mapped.moveTo found.2.1).setParent run.parent
          if found.1 then return (true, ← left.hideItemParagraphs run.tokens.length)
          else return (true, left)

end ByteRun

/-! ## The marker of a line -/

/-- The content begins with the marker, which is ASCII. -/
structure Marker.Begins (marker : Marker) (content : Text) : Prop where
  content : content = marker.text ++ marker.rest
  ascii : ∀ c ∈ marker.text, c.toNat < 128

/-- Only white space is left of nothing but white space. -/
theorem Text.isEmpty_trim (s : Text) : s.trim.isEmpty = isAllBlank s := by
  rw [Bool.eq_iff_iff, List.isEmpty_iff, isAllBlank, List.all_eq_true]
  unfold trim trimWhile dropEndWhile
  rw [List.reverse_eq_nil_iff, List.dropWhile_eq_nil_iff]
  constructor
  · intro blank c member
    rw [← List.takeWhile_append_dropWhile (p := isBlank) (l := s)] at member
    rcases List.mem_append.mp member with front | behind
    · exact List.mem_takeWhile_imp front
    · exact blank c (List.mem_reverse.mpr behind)
  · intro blank c member
    exact blank c ((List.dropWhile_suffix isBlank).mem (List.mem_reverse.mp member))

theorem Text.asciiOnly_isDigit : AsciiOnly Char.isDigit :=
  fun c holds => asciiOnly_isAlphanum c (Bool.or_eq_true_iff.mpr (.inr holds))

namespace Marker

variable {content : Text} {marker : Marker}

theorem length_text (marker : Marker) : marker.text.length = marker.width := by
  unfold text width
  rw [List.length_append]
  rfl

theorem bullet?_eq_some (found : bullet? content = some marker) :
    marker.number = none ∧ marker.Begins content := by
  cases content with
  | nil => cases found
  | cons mark rest =>
    rw [bullet?] at found
    split at found
    · next holds =>
      cases found
      simp only [Bool.and_eq_true, Bool.or_eq_true, beq_iff_eq] at holds
      refine ⟨rfl, rfl, ?_⟩
      show ∀ c ∈ [mark], _
      rw [List.forall_mem_singleton]
      rcases holds.1 with (rfl | rfl) | rfl <;> decide
    · cases found

theorem ordered?_eq_some (found : ordered? content = some marker) :
    (∃ digits, marker.number = some digits) ∧ marker.Begins content := by
  unfold ordered? at found
  dsimp only at found
  split at found
  · next mark rest others =>
    split at found
    · next holds =>
      cases found
      simp only [Bool.and_eq_true, Bool.or_eq_true, beq_iff_eq] at holds
      have whole := List.takeWhile_append_dropWhile (p := Char.isDigit) (l := content)
      rw [others] at whole
      refine ⟨⟨_, rfl⟩, ?_, ?_⟩
      · show content = content.takeWhile Char.isDigit ++ [mark] ++ rest
        rw [List.append_assoc]
        exact whole.symm
      · intro c member
        rcases List.mem_append.mp member with member | member
        · exact asciiOnly_isDigit c (List.mem_takeWhile_imp member)
        · obtain rfl : c = mark := List.mem_singleton.mp member
          rcases holds.1.2 with rfl | rfl <;> decide
    · cases found
  · cases found

theorem nextMarker?_eq_some {scope : Scope} {next : Nat} {other : Marker}
    (found : nextMarker? scope marker next = some other) :
    other.Begins (scope.content next) ∧ other.number.isSome = marker.number.isSome ∧
      other.mark = marker.mark := by
  obtain ⟨isFound, continues⟩ := Option.filter_eq_some_iff.mp found
  simp only [Marker.continues, Bool.and_eq_true, beq_iff_eq] at continues
  refine ⟨?_, continues.1.symm, continues.2.symm⟩
  split at isFound
  · exact (ordered?_eq_some isFound).2
  · exact (bullet?_eq_some isFound).2

theorem of?_eq_some (found : of? content = some marker) : marker.Begins content := by
  unfold of? at found
  cases ordered : ordered? content with
  | some other =>
    rw [ordered] at found
    cases found
    exact (ordered?_eq_some ordered).2
  | none =>
    rw [ordered] at found
    exact (bullet?_eq_some found).2

end Marker

theorem Checked.Ahead.length_le {b w : Text} {i max : Nat} (ahead : Ahead b i max w) :
    i + w.length = max := by
  obtain ⟨-, -, ends⟩ := ahead
  exact ends.symm

namespace ByteRun

variable {source : Text} {run : BlockRun} {first next stop number : Nat}

/-- The byte at which the content of a line begins. -/
abbrev contentOffset (source : Text) (line : Line) : Nat :=
  offset source line.start + line.indentation.length

theorem bulletMarker_eq (lies : run.scope.LiesIn source) (inText : number < run.lineCount) :
    (ofRun source run).bulletMarker number =
      .ok ((Marker.bullet? (run.scope.content number)).map fun marker =>
        contentOffset source (run.scope.line number) + marker.width) := by
  have ahead := (lies number inText).ahead_content
  unfold bulletMarker Scope.content
  rw [contentStart_eq inText, ok_bind, lineEnd_eq inText, ok_bind, source_ofRun]
  cases content : (run.scope.line number).content with
  | nil =>
    rw [content] at ahead
    rw [if_pos (Nat.le_of_eq ahead.nil)]
    rfl
  | cons mark rest =>
    rw [content] at ahead
    have atMark := ahead
    rw [bytes_cons_eq] at atMark
    rw [if_neg (Nat.not_le_of_lt atMark.lt), atMark.byteAt, ok_bind, Marker.bullet?,
      lead_beq (by decide), lead_beq (by decide), lead_beq (by decide)]
    cases isMark : mark == '*' || mark == '-' || mark == '+' with
    | false => rfl
    | true =>
      have isAscii : mark.toNat < 128 := by
        simp only [Bool.or_eq_true, beq_iff_eq] at isMark
        rcases isMark with (rfl | rfl) | rfl <;> decide
      rw [bytes_cons_of_ascii isAscii] at ahead
      simp only [Bool.not_true, Bool.false_eq_true, if_false, Bool.true_and]
      rw [blankAt_eq ahead.tail, ok_bind, Marker.endsMarker]
      cases rest.head?.all isSpaceOrTab <;> rfl

theorem orderedMarker_eq (lies : run.scope.LiesIn source) (inText : number < run.lineCount) :
    (ofRun source run).orderedMarker number =
      .ok ((Marker.ordered? (run.scope.content number)).map fun marker =>
        (contentOffset source (run.scope.line number) + marker.width, marker.value.getD 0)) := by
  have inLine := lies number inText
  have ahead := inLine.ahead_content
  unfold orderedMarker Scope.content Marker.ordered?
  rw [contentStart_eq inText, ok_bind, lineEnd_eq inText, ok_bind, source_ofRun]
  generalize run.scope.line number = line at *
  have inBytes : offset source line.start + line.indentation.length ≤ source.bytes.length := by
    have upTo : offset source line.stop ≤ offset source source.length :=
      offset_le.mpr inLine.stop_le
    rw [offset_length] at upTo
    exact Nat.le_trans (ahead.length_le ▸ Nat.le_add_right ..) upTo
  dsimp only
  rw [ahead.bytesIn inBytes, ok_bind, asciiOnly_isDigit.takeWhile_bytes]
  have whole := List.takeWhile_append_dropWhile (p := Char.isDigit) (l := line.content)
  have isAscii : ∀ c ∈ line.content.takeWhile Char.isDigit, c.toNat < 128 :=
    fun c member => asciiOnly_isDigit c (List.mem_takeWhile_imp member)
  rw [← whole, bytes_append, bytes_of_ascii isAscii] at ahead
  have atMark := ahead.append
  have sliced := @Line.LiesIn.slice_part _ _ inLine [] _ _ whole.symm
  rw [size_nil, Nat.add_zero, size_of_ascii isAscii] at sliced
  generalize line.content.takeWhile Char.isDigit = digits at *
  have range : (digits.length == 0 || decide (9 < digits.length)) =
      !(decide (1 ≤ digits.length) && decide (digits.length ≤ 9)) := by
    rw [Bool.eq_iff_iff]
    simp only [Bool.or_eq_true, beq_iff_eq, decide_eq_true_eq, Bool.not_eq_true',
      Bool.and_eq_false_iff, decide_eq_false_iff_not]
    omega
  rw [range]
  cases decide (1 ≤ digits.length) && decide (digits.length ≤ 9) with
  | false => cases line.content.dropWhile Char.isDigit <;> rfl
  | true =>
    simp only [Bool.not_true, Bool.false_eq_true, if_false, Bool.true_and]
    cases others : line.content.dropWhile Char.isDigit with
    | nil =>
      rw [others] at atMark
      rw [if_pos (Nat.le_of_eq atMark.nil)]
      rfl
    | cons mark rest =>
      rw [others] at atMark
      have atByte := atMark
      rw [bytes_cons_eq] at atByte
      rw [if_neg (Nat.not_le_of_lt atByte.lt), atByte.byteAt, ok_bind, lead_beq (by decide),
        lead_beq (by decide)]
      dsimp only
      cases isMark : mark == '.' || mark == ')' with
      | false => rfl
      | true =>
        have isAscii : mark.toNat < 128 := by
          simp only [Bool.or_eq_true, beq_iff_eq] at isMark
          rcases isMark with rfl | rfl <;> decide
        rw [bytes_cons_of_ascii isAscii] at atMark
        simp only [Bool.not_true, Bool.false_eq_true, if_false, Bool.true_and]
        rw [blankAt_eq atMark.tail, ok_bind, Marker.endsMarker]
        cases rest.head?.all isSpaceOrTab with
        | false => rfl
        | true =>
          rw [if_pos rfl, if_pos rfl, sliced, ok_bind]
          rfl

/-- The marker that a line begins with. -/
theorem listMarker_eq (lies : run.scope.LiesIn source) (inText : number < run.lineCount) :
    (ofRun source run).listMarker number =
      .ok ((Marker.of? (run.scope.content number)).map fun marker =>
        (marker.number.isSome, contentOffset source (run.scope.line number) + marker.width,
          marker.value.getD 1)) := by
  unfold listMarker Marker.of?
  rw [orderedMarker_eq lies inText, ok_bind]
  cases ordered : Marker.ordered? (run.scope.content number) with
  | some marker =>
    obtain ⟨⟨digits, number⟩, -⟩ := Marker.ordered?_eq_some ordered
    show Except.ok (some (true, _, _)) = Except.ok (some (marker.number.isSome, _, _))
    unfold Marker.value
    rw [number]
    rfl
  | none =>
    show ((ofRun source run).bulletMarker number >>= _) = _
    rw [bulletMarker_eq lies inText, ok_bind]
    cases bullet : Marker.bullet? (run.scope.content number) with
    | none => rfl
    | some marker =>
      obtain ⟨number, -⟩ := Marker.bullet?_eq_some bullet
      show Except.ok (some (false, _, _)) = Except.ok (some (marker.number.isSome, _, _))
      unfold Marker.value
      rw [number]
      rfl

end ByteRun

/-! ## The line of an item -/

namespace Line.LiesIn

variable {source : Text} {line : Line} {marker : Marker}

/-- The bytes behind a marker. -/
theorem ahead_rest (lies : line.LiesIn source) (begins : marker.Begins line.content) :
    Ahead source.bytes (ByteRun.contentOffset source line + marker.width)
      (offset source line.stop) (bytes marker.rest) := by
  have ahead := lies.ahead_content
  rw [begins.content, bytes_append, bytes_of_ascii begins.ascii] at ahead
  have behind := ahead.append
  rwa [marker.length_text] at behind

/-- The line of an item lies in the text, with the marker as indentation. -/
theorem itemLine (lies : line.LiesIn source) (begins : marker.Begins line.content) :
    (itemLine line marker).LiesIn source ∧
      (ComponentMarkdown.itemLine line marker).stop = line.stop := by
  obtain ⟨before, behind, isStart, isSource, atEnd⟩ := lies.place
  have whole := List.takeWhile_append_dropWhile (p := isSpaceOrTab) (l := marker.rest)
  refine ⟨⟨⟨before, behind, isStart, ?_, atEnd⟩, ?_, isSpaceOrTab_dropWhile _⟩, ?_⟩
  · rw [isSource, begins.content]
    conv => lhs; rw [← whole]
    show _ = before ++ (line.indentation ++ marker.text ++ marker.rest.takeWhile isSpaceOrTab ++
      (marker.rest.dropWhile isSpaceOrTab ++ _))
    simp only [List.append_assoc]
    rfl
  · intro c member
    rcases List.mem_append.mp member with member | member
    · rcases List.mem_append.mp member with member | member
      · exact lies.ascii c member
      · exact begins.ascii c member
    · exact asciiOnly_isSpaceOrTab c (List.mem_takeWhile_imp member)
  · have lengths := congrArg List.length whole
    rw [List.length_append] at lengths
    unfold Line.stop
    rw [begins.content]
    show line.start + (line.indentation ++ marker.text ++
      marker.rest.takeWhile isSpaceOrTab).length + (marker.rest.dropWhile isSpaceOrTab).length = _
    simp only [List.length_append]
    omega

/-- The indentation of the line of an item ends where the blanks behind the marker end. -/
theorem length_itemLine (source : Text) (line : Line) (marker : Marker) :
    ByteRun.contentOffset source line + marker.width +
        (marker.rest.takeWhile isSpaceOrTab).length =
      offset source line.start + (ComponentMarkdown.itemLine line marker).indentation.length := by
  unfold ByteRun.contentOffset
  show _ = _ + (line.indentation ++ marker.text ++ marker.rest.takeWhile isSpaceOrTab).length
  rw [List.length_append, List.length_append, marker.length_text]
  omega

/-- The mark is the last byte of the marker. -/
theorem byteAt_mark (lies : line.LiesIn source) (begins : marker.Begins line.content) :
    byteAt source.bytes (ByteRun.contentOffset source line + marker.width - 1) =
      .ok marker.mark := by
  have ahead := lies.ahead_content
  have digitsAscii : ∀ c ∈ marker.number.getD [], c.toNat < 128 := fun c member =>
    begins.ascii c (List.mem_append_left _ member)
  have markAscii : marker.mark.toNat < 128 :=
    begins.ascii _ (List.mem_append_right _ (List.mem_singleton_self _))
  rw [begins.content, Marker.text, List.append_assoc, bytes_append, bytes_of_ascii digitsAscii,
    List.singleton_append, bytes_cons_of_ascii markAscii] at ahead
  exact ahead.append.byteAt

/-- The number in front of the mark. -/
theorem slice_number (lies : line.LiesIn source) (begins : marker.Begins line.content)
    {digits : Text} (number : marker.number = some digits) :
    slice source (ByteRun.contentOffset source line)
      (ByteRun.contentOffset source line + digits.length) = .ok digits := by
  have text : marker.text = digits ++ [marker.mark] := by
    unfold Marker.text
    rw [number]
    rfl
  have isAscii : ∀ c ∈ digits, c.toNat < 128 := fun c member =>
    begins.ascii c (text ▸ List.mem_append_left _ member)
  have sliced := @Line.LiesIn.slice_part _ _ lies [] digits (marker.mark :: marker.rest)
    (begins.content.trans (by rw [text, List.append_assoc]; rfl))
  rw [size_nil, Nat.add_zero, size_of_ascii isAscii] at sliced
  exact sliced

end Line.LiesIn

namespace ByteRun

variable {source : Text} {run : BlockRun} {first next stop number : Nat}

/-! ## Items -/

theorem columnBehind_eq (column : Int) (c : Char) :
    columnBehind column c =
      .ok (if c == '\t' then column + (4 - column.tmod 4) else column + 1) := rfl

variable {marker : Marker}

theorem itemNumber_eq {line : Line} (lies : line.LiesIn source)
    (begins : marker.Begins line.content) (run : BlockRun) :
    (ofRun source run).itemNumber marker.number.isSome (contentOffset source line)
        (contentOffset source line + marker.width) = .ok (marker.number.getD []) := by
  unfold itemNumber
  cases number : marker.number with
  | none => rfl
  | some digits =>
    have width : contentOffset source line + marker.width - 1 =
        contentOffset source line + digits.length := by
      unfold Marker.width
      rw [number]
      rfl
    have positive : 1 ≤ contentOffset source line + marker.width :=
      Nat.le_trans (Nat.le_add_left 1 _) (Nat.le_add_left _ _)
    show (minus _ 1 >>= _) = _
    rw [minus_of_le positive, ok_bind, width]
    exact lies.slice_number begins number

/-- A marker is as long as it is wide. -/
theorem minus_indentation (line : Line) (marker : Marker) :
    minus (contentOffset source line + marker.width)
      (offset source line.start + line.indentation.length) = .ok marker.width := by
  rw [minus_of_le (Nat.le_add_right ..)]
  exact congrArg Except.ok (Nat.add_sub_cancel_left ..)

/-- The blanks behind the marker lead to the content as the blocks in the item see it. -/
theorem skipColumns_itemLine (lies : run.scope.LiesIn source) (inText : next < run.lineCount)
    (begins : marker.Begins (run.scope.content next)) :
    let line := run.scope.line next
    let inner := itemLine line marker
    let after := contentOffset source line + marker.width
    let behind := after + (marker.rest.takeWhile isSpaceOrTab).length
    skipColumns columnBehind source.bytes (offset source line.stop) after
        (line.columns + marker.width) = .ok (behind, inner.columns) ∧
      (offset source line.stop ≤ behind ↔ inner.isEmpty = true) ∧
      minus behind (offset source line.start) = .ok inner.indentation.length := by
  intro line inner after behind
  have inLine := lies next inText
  obtain ⟨inside, sameStop⟩ := inLine.itemLine begins
  have place : behind = _ := Line.LiesIn.length_itemLine source line marker
  have counted := skipColumns_eq columnBehind_eq (inLine.ahead_rest begins)
    (line.columns + marker.width)
  rw [asciiOnly_isSpaceOrTab.takeWhile_bytes] at counted
  refine ⟨counted, ?_, ?_⟩
  · rw [← inside.isEmpty_eq, sameStop, place, decide_eq_true_iff]
    rfl
  · rw [place, minus_of_le (Nat.le_add_right ..), Nat.add_sub_cancel_left]

/-- With marks for lines, the line of an item is set as it is on lines. -/
theorem setMarks_itemLine (lies : run.scope.LiesIn source) (inText : next < run.lineCount)
    (begins : marker.Begins (run.scope.content next)) (token : Token) (indent : Nat) :
    let inner := itemLine (run.scope.line next) marker
    let opened := ((run.add token).setIndent indent).setTight true
    ((((ofRun source run).add token).setIndent indent).setTight true).setMarks next
        (offset source (run.scope.line next).start) inner.indentation.length inner.columns =
      .ok (ofRun source (opened.setLine next inner)) := by
  intro inner opened
  have marks := @setMarks_eq source opened _ inText _ ((lies next inText).itemLine begins).2
  exact marks

theorem level_enterItem (next : Nat) (marker : Marker) (run : BlockRun) :
    (run.enterItem next marker).scope.level = run.scope.level + 1 := by
  unfold BlockRun.enterItem
  rw [BlockRun.add_opening _ rfl]
  rfl

theorem keeps_enterItem (lies : run.scope.LiesIn source) (inText : next < run.lineCount)
    (begins : marker.Begins (run.scope.content next)) :
    Keeps source run (run.enterItem next marker) := by
  obtain ⟨inItem, sameStop⟩ := (lies next inText).itemLine begins
  have keeps := keeps_setLine lies inItem inText sameStop
  exact ⟨keeps.lies, keeps.count, keeps.stops⟩

theorem gapBehind_eq (lies : run.scope.LiesIn source) (behind : next ≤ run.progress.line)
    (inText : run.progress.line ≤ run.lineCount) :
    (ofRun source run).gapBehind next =
      .ok (1 < run.progress.line - next && run.scope.isEmpty (run.progress.line - 1)) := by
  unfold gapBehind
  show (minus run.progress.line next >>= _) = _
  rw [minus_of_le behind, ok_bind]
  by_cases far : 1 < run.progress.line - next
  · rw [if_pos far, decide_eq_true far, Bool.true_and]
    show (minus run.progress.line 1 >>= _) = _
    rw [minus_of_le (by omega), ok_bind, isEmpty_of_le lies (by omega)]
  · rw [if_neg far, decide_eq_false far, Bool.false_and]
    rfl

section

variable {md : Markdown} {parse : Nat → Nat → BlockRun → BlockRun} {checkedParse : Parse}
  {tree : ParseBlocks} {depth : Nat} {scope : Scope}

theorem itemBody_eq (like : ParsesLike md depth source checkedParse parse)
    (lies : run.scope.LiesIn source) (levels : md.maxNesting ≤ run.scope.level + depth)
    (inWindow : next < stop) (inText : stop ≤ run.lineCount) (line : Line) :
    itemBody checkedParse stop next (!line.isEmpty) (ofRun source run) =
      .ok (ofRun source (BlockRun.itemBody parse stop next line run)) := by
  unfold itemBody BlockRun.itemBody
  rw [isEmpty_of_le lies (Nat.le_trans inWindow inText), ok_bind, Bool.not_not]
  cases line.isEmpty && run.scope.isEmpty (next + 1) with
  | true => rfl
  | false => exact like next stop run inText lies levels

/-- What holds of a run behind the blocks of an item at line `next`. -/
structure BehindItem (source : Text) (next : Nat) (marker : Marker) (run parsed : BlockRun) :
    Prop where
  keeps : Keeps source run parsed
  behind : next ≤ parsed.progress.line
  inText : parsed.progress.line ≤ run.lineCount
  tokens : run.tokens.length < parsed.tokens.length

theorem behindItem_itemBody (parses : BlockRun.ParsesAs parse tree)
    (anew : BlockRun.StartsAnew tree) (takes : TakesLines md depth tree)
    (levels : md.maxNesting ≤ scope.level + (depth + 1)) (lies : scope.LiesIn source)
    (begins : marker.Begins (scope.content next)) (inWindow : next < stop)
    (inText : stop ≤ scope.lines.size) (inside : run.scope = BlockRun.itemScope scope) :
    BehindItem source next marker run
      (BlockRun.itemBody parse stop next (itemLine (run.scope.line next) marker)
        (run.enterItem next marker)) := by
  obtain ⟨runScope, progress, tokens⟩ := run
  obtain rfl : runScope = BlockRun.itemScope scope := inside
  have line : (BlockRun.itemScope scope).line next = scope.line next := rfl
  have inLines : next < scope.lines.size := Nat.lt_of_lt_of_le inWindow inText
  obtain ⟨inItem, sameStop⟩ := (lies next inLines).itemLine begins
  have keeps := @keeps_setLine _ ⟨BlockRun.itemScope scope, progress, tokens⟩ _ lies _ inItem
    inLines sameStop
  have taken := takesAll_itemBlocks takes levels inWindow inText marker
  dsimp only
  rw [line, BlockRun.enterItem_eq,
    BlockRun.itemBody_eq parses anew scope marker inWindow inText]
  refine ⟨⟨Scope.liesIn_of_lines rfl keeps.lies, keeps.count, fun number inScope => ?_⟩,
    taken.inOrder.first_le_stop, taken.inText, ?_⟩
  · exact keeps.stops number inScope
  · show tokens.length < List.length (_ ++ _ ++ _)
    rw [List.append_assoc, List.length_append]
    exact Nat.lt_add_of_pos_right (Nat.succ_pos _)

/-- With marks for lines, the item is left as it is on lines: its line is restored and its first
token gets the lines of the item. -/
theorem leaveItem_eq {parsed : BlockRun} (behind : BehindItem source next marker run parsed)
    (inText : next < run.lineCount) (token : Token) (span : LineSpan) :
    let line := run.scope.line next
    let restored := (parsed.setIndent run.scope.indent).setLine next line
    let closed := (restored.setTight run.progress.tight).add token
    ((ofRun source parsed).setIndent (ofRun source run).indent).setMarks next
        (offset source line.start) line.indentation.length line.columns =
      .ok (ofRun source restored) ∧
      (ofRun source closed).setMap run.tokens.length span =
        .ok (ofRun source (closed.setMap run.tokens.length span)) := by
  intro line restored closed
  refine ⟨@setMarks_eq source (parsed.setIndent run.scope.indent) _
    (show next < parsed.lineCount from behind.keeps.count.symm ▸ inText) _
    (behind.keeps.stops next inText).symm, setMap_eq ?_ span⟩
  show _ < List.length (parsed.tokens ++ _)
  rw [List.length_append]
  exact Nat.lt_add_right _ behind.tokens

/-- With marks for lines, an item is what it is on lines. -/
theorem listItem_eq (parses : BlockRun.ParsesAs parse tree) (anew : BlockRun.StartsAnew tree)
    (takes : TakesLines md depth tree) (like : ParsesLike md depth source checkedParse parse)
    (levels : md.maxNesting ≤ scope.level + (depth + 1)) (lies : scope.LiesIn source)
    (begins : marker.Begins (scope.content next)) (inWindow : next < stop)
    (inText : stop ≤ scope.lines.size) (inside : run.scope = BlockRun.itemScope scope) :
    listItem checkedParse stop next marker.number.isSome marker.mark
        (contentOffset source (scope.line next) + marker.width) (ofRun source run) =
      .ok ((BlockRun.listItem parse stop next marker run).1,
        (BlockRun.listItem parse stop next marker run).2.1,
        ofRun source (BlockRun.listItem parse stop next marker run).2.2) := by
  have behind := behindItem_itemBody parses anew takes levels lies begins inWindow inText inside
  have runLies : run.scope.LiesIn source := Scope.liesIn_of_lines (by rw [inside]; rfl) lies
  have line : run.scope.line next = scope.line next := by rw [inside]; rfl
  have runText : stop ≤ run.lineCount := by rw [BlockRun.lineCount, inside]; exact inText
  have inLines : next < run.lineCount := Nat.lt_of_lt_of_le inWindow runText
  have marked : marker.Begins (run.scope.content next) := by
    rw [Scope.content, line]
    exact begins
  rw [← line]
  obtain ⟨counted, isEmpty, long⟩ := skipColumns_itemLine runLies inLines marked
  have hasContent : decide (contentOffset source (run.scope.line next) + marker.width +
      (marker.rest.takeWhile isSpaceOrTab).length < offset source (run.scope.line next).stop) =
        !(itemLine (run.scope.line next) marker).isEmpty := by
    rw [decide_eq_decide.mpr (Nat.not_le.symm.trans (not_congr isEmpty)), decide_not,
      Bool.decide_eq_true]
  have entered := keeps_enterItem runLies inLines marked
  have enteredLevel : (run.enterItem next marker).scope.level = scope.level + 2 := by
    rw [level_enterItem, inside]
    rfl
  unfold listItem BlockRun.listItem
  rw [lineEnd_eq inLines, ok_bind, contentStart_eq inLines, ok_bind, lineMarks_eq inLines, ok_bind]
  unfold markLine
  dsimp only
  rw [minus_indentation, ok_bind, source_ofRun, counted, ok_bind]
  dsimp only
  rw [show (ofRun source run).itemNumber marker.number.isSome _ _ = _ from
    itemNumber_eq (runLies next inLines) marked run, ok_bind, long, ok_bind,
    if_congr isEmpty rfl rfl, setMarks_itemLine runLies inLines marked, ok_bind, hasContent]
  show (itemBody checkedParse stop next _ (ofRun source (run.enterItem next marker)) >>= _) = _
  rw [itemBody_eq like entered.lies (by omega) inWindow (entered.count ▸ runText), ok_bind]
  generalize BlockRun.itemBody parse stop next (itemLine (run.scope.line next) marker)
    (run.enterItem next marker) = parsed at behind ⊢
  obtain ⟨restored, mapped⟩ := leaveItem_eq behind inLines
    { kind := .listItemClose, tag := "li".toList, nesting := .closing, markup := [marker.mark] }
    (next, max parsed.progress.line (next + 1))
  rw [gapBehind_eq behind.keeps.lies behind.behind (behind.keeps.count.symm ▸ behind.inText),
    ok_bind, restored, ok_bind]
  show (ByteRun.setMap (add (setTight (ofRun source _) run.progress.tight) _) run.tokens.length
    (next, max parsed.progress.line (next + 1)) >>= _) = _
  rw [setTight_ofRun, add_ofRun, mapped, ok_bind]
  rfl

end

theorem minus_width (line : Line) (marker : Marker) :
    minus (contentOffset source line + marker.width) 1 =
      .ok (contentOffset source line + marker.width - 1) :=
  minus_of_le (Nat.le_trans (Nat.le_add_left 1 _) (Nat.le_add_left _ _))

/-- The marker that goes on with a list. -/
theorem nextMarker_eq (lies : run.scope.LiesIn source) (inText : next < run.lineCount)
    (marker : Marker) :
    (ofRun source run).nextMarker marker.number.isSome marker.mark next =
      .ok ((nextMarker? run.scope marker next).map fun other =>
        contentOffset source (run.scope.line next) + other.width) := by
  have goOn : ∀ found : Option Marker,
      (∀ other ∈ found, other.Begins (run.scope.content next) ∧
        other.number.isSome = marker.number.isSome) →
      (match found.map fun other => contentOffset source (run.scope.line next) + other.width with
        | none => return none
        | some after => do
          let last ← minus after 1
          if (← byteAt source.bytes last) == marker.mark then return some after
          else return none : Checked (Option Nat)) =
        .ok ((found.filter marker.continues).map fun other =>
          contentOffset source (run.scope.line next) + other.width) := by
    intro found facts
    cases found with
    | none => rfl
    | some other =>
      obtain ⟨begins, same⟩ := facts other rfl
      show (minus _ 1 >>= _) = _
      rw [minus_width, ok_bind, (lies next inText).byteAt_mark begins, ok_bind, Option.filter_some,
        Marker.continues, same, beq_self_eq_true, Bool.true_and]
      have symm : (other.mark == marker.mark) = (marker.mark == other.mark) := by
        rw [Bool.eq_iff_iff, beq_iff_eq, beq_iff_eq]
        exact eq_comm
      rw [symm]
      cases marker.mark == other.mark <;> rfl
  unfold nextMarker nextMarker?
  rw [orderedMarker_eq lies inText, bulletMarker_eq lies inText]
  cases ordered : marker.number.isSome with
  | true =>
    have facts := goOn (Marker.ordered? (run.scope.content next)) fun other isFound => by
      obtain ⟨⟨digits, number⟩, begins⟩ := Marker.ordered?_eq_some isFound
      exact ⟨begins, by rw [number, ordered]; rfl⟩
    cases found : Marker.ordered? (run.scope.content next) with
    | none => rfl
    | some other =>
      rw [found] at facts
      exact facts
  | false =>
    have facts := goOn (Marker.bullet? (run.scope.content next)) fun other isFound => by
      obtain ⟨number, begins⟩ := Marker.bullet?_eq_some isFound
      exact ⟨begins, by rw [number, ordered]; rfl⟩
    cases found : Marker.bullet? (run.scope.content next) with
    | none => rfl
    | some other =>
      rw [found] at facts
      exact facts

section

variable {md : Markdown} {parse : Nat → Nat → BlockRun → BlockRun} {checkedParse : Parse}
  {tree : ParseBlocks} {depth : Nat} {scope : Scope} {ends : BlockRun.Step} {checkedEnds : Step}

/-- What a run of items leaves behind, with marks for lines. -/
def ofItems (source : Text) (made : Bool × Nat × BlockRun) : Bool × Nat × ByteRun :=
  (made.1, made.2.1, ofRun source made.2.2)

/-- An item leaves the scope of the list as it was, and moves on. -/
theorem scope_listItem (parses : BlockRun.ParsesAs parse tree) (anew : BlockRun.StartsAnew tree)
    (marker : Marker) (inWindow : next < stop) (inText : stop ≤ scope.lines.size)
    (inside : run.scope = BlockRun.itemScope scope) :
    let made := (BlockRun.listItem parse stop next marker run).2.2
    made.scope = BlockRun.itemScope scope ∧ next < made.progress.line := by
  obtain ⟨runScope, progress, tokens⟩ := run
  obtain rfl : runScope = BlockRun.itemScope scope := inside
  rw [BlockRun.listItem_eq parses anew scope marker inWindow inText]
  exact ⟨rfl, Nat.lt_of_lt_of_le (Nat.lt_succ_self next) (Nat.le_max_right ..)⟩

/-- With marks for lines, the items of a list are what they are on lines. -/
theorem listItems_eq (answers : BlockRun.Answers md "list" ends)
    (agrees : Agrees source checkedEnds ends) (parses : BlockRun.ParsesAs parse tree)
    (anew : BlockRun.StartsAnew tree) (takes : TakesLines md depth tree)
    (like : ParsesLike md depth source checkedParse parse)
    (levels : md.maxNesting ≤ scope.level + (depth + 1)) (lies : scope.LiesIn source)
    (inText : stop ≤ scope.lines.size) (fuel : Nat) (inWindow : next < stop)
    (enough : stop < next + fuel) (begins : marker.Begins (scope.content next)) (gapBefore : Bool)
    (inside : run.scope = BlockRun.itemScope scope) :
    listItems checkedParse checkedEnds stop marker.number.isSome marker.mark fuel next
        (contentOffset source (scope.line next) + marker.width) gapBefore (ofRun source run) =
      .ok (ofItems source
        (BlockRun.listItems parse ends stop fuel next marker gapBefore run)) := by
  induction fuel generalizing next marker gapBefore run with
  | zero => exact absurd enough (Nat.lt_asymm inWindow)
  | succ fuel ih =>
    rw [listItems, BlockRun.listItems]
    rw [if_neg (Nat.not_le_of_lt inWindow), if_neg (Nat.not_le_of_lt inWindow),
      listItem_eq parses anew takes like levels lies begins inWindow inText inside, ok_bind]
    obtain ⟨madeScope, moves⟩ := scope_listItem parses anew marker inWindow inText inside
    generalize BlockRun.listItem parse stop next marker run = made at *
    obtain ⟨tight, gap, run⟩ := made
    dsimp only at madeScope moves ⊢
    have runLies : run.scope.LiesIn source := Scope.liesIn_of_lines (by rw [madeScope]; rfl) lies
    have runText : stop ≤ run.lineCount := by
      unfold BlockRun.lineCount
      rw [madeScope]
      exact inText
    rw [show (ofRun source run).progress.line = run.progress.line from rfl]
    rcases Nat.lt_or_ge run.progress.line stop with goesOn | ended
    case inr =>
      rw [if_pos ended, decide_eq_true ended]
      rfl
    have inLines : run.progress.line < run.lineCount := Nat.lt_of_lt_of_le goesOn runText
    have stays : (ends run.progress.line stop run).2 = run :=
      congrArg Prod.snd (answers run.progress.line stop run)
    rw [if_neg (Nat.not_le_of_lt goesOn), decide_eq_false (Nat.not_le_of_lt goesOn), Bool.false_or,
      isDedented_eq inLines, ok_bind, isDeeplyIndented_eq inLines, ok_bind,
      agrees _ stop run goesOn runText runLies, ok_bind, ofStep, stays]
    cases run.scope.isDedented run.progress.line ||
      run.scope.isDeeplyIndented run.progress.line with
    | true => rfl
    | false =>
      dsimp only
      rw [if_neg Bool.false_ne_true, if_neg Bool.false_ne_true, nextMarker_eq runLies inLines,
        ok_bind]
      cases (ends run.progress.line stop run).1 with
      | true => rfl
      | false =>
        rw [if_neg Bool.false_ne_true, if_neg Bool.false_ne_true]
        cases found : nextMarker? run.scope marker run.progress.line with
        | none => rfl
        | some other =>
          obtain ⟨begins, isSome, mark⟩ := Marker.nextMarker?_eq_some found
          have content : run.scope.content run.progress.line = scope.content run.progress.line := by
            rw [madeScope]
            rfl
          have line : run.scope.line run.progress.line = scope.line run.progress.line := by
            rw [madeScope]
            rfl
          have others := ih goesOn (by omega) (content ▸ begins) gap madeScope
          rw [isSome, mark] at others
          dsimp only [Option.map_some]
          rw [line, others, ok_bind]
          rfl

end

/-! ## Hidden paragraphs -/

theorem tokenAt_append (front : List Token) (token : Token) (behind : List Token) :
    tokenAt (front ++ token :: behind) front.length = .ok token := by
  unfold tokenAt
  rw [List.getElem?_append_right (Nat.le_refl _), Nat.sub_self]
  rfl

theorem hideToken_append (front : List Token) (token : Token) (behind : List Token) :
    hideToken (front ++ token :: behind) front.length =
      .ok (front ++ { token with hidden := true } :: behind) := by
  have inTokens : front.length < (front ++ token :: behind).length := by
    rw [List.length_append, List.length_cons]
    exact Nat.lt_add_of_pos_right (Nat.succ_pos _)
  unfold hideToken
  rw [if_pos inTokens, BlockRun.modify_length_append]
  rfl

theorem hideFrom_eq (level : Nat) (front tokens : List Token) {count : Nat}
    (isCount : count = front.length + tokens.length) :
    hideFrom level count (front ++ tokens) front.length =
      .ok (front ++ BlockRun.hideParagraphs level tokens) := by
  induction tokens using BlockRun.hideParagraphs.induct level generalizing front count with
  | case1 opening text closing tokens hides ih =>
    rw [List.length_cons, List.length_cons, List.length_cons] at isCount
    have others := ih (front ++ [{ opening with hidden := true }, text,
      { closing with hidden := true }]) (show count = _ by simp; omega)
    have second :=
      hideToken_append (front ++ [{ opening with hidden := true }, text]) closing tokens
    rw [List.append_assoc, List.length_append] at second
    rw [List.append_assoc, List.length_append] at others
    rw [hideFrom, if_pos (by omega), tokenAt_append, ok_bind, if_pos hides, hideToken_append,
      ok_bind, BlockRun.hideParagraphs, if_pos hides]
    show (hideToken (front ++ ([{ opening with hidden := true }, text] ++ closing :: tokens))
      (front.length + 2) >>= _) = _
    rw [show hideToken _ (front.length + 2) = _ from second, ok_bind, List.append_assoc]
    exact others.trans (congrArg Except.ok (List.append_assoc ..))
  | case2 opening text closing tokens stays ih =>
    rw [List.length_cons, List.length_cons, List.length_cons] at isCount
    have others := ih (front ++ [opening]) (show count = _ by simp; omega)
    rw [List.append_assoc, List.length_append] at others
    rw [hideFrom, if_pos (by omega), tokenAt_append, ok_bind, if_neg stays,
      BlockRun.hideParagraphs, if_neg stays]
    exact others.trans (congrArg Except.ok (List.append_assoc ..))
  | case3 tokens few =>
    rw [hideFrom]
    rcases tokens with _ | ⟨opening, _ | ⟨text, _ | ⟨closing, tokens⟩⟩⟩
    · rw [if_neg (by rw [isCount]; exact Nat.not_lt.mpr (Nat.le_add_right ..))]
      rfl
    · rw [if_neg (by rw [isCount]; exact Nat.not_lt.mpr (Nat.le_succ _))]
      rfl
    · rw [if_neg (by rw [isCount]; exact Nat.lt_irrefl _)]
      rfl
    · exact absurd rfl (few opening text closing tokens)

theorem hideItemParagraphs_eq {index : Nat} (inTokens : index + 2 ≤ run.tokens.length) :
    (ofRun source run).hideItemParagraphs index =
      .ok (ofRun source (run.hideItemParagraphs index)) := by
  have length : (run.tokens.take (index + 2)).length = index + 2 := List.length_take_of_le inTokens
  have hidden := hideFrom_eq (run.scope.level + 2) (run.tokens.take (index + 2))
    (run.tokens.drop (index + 2)) (show run.tokens.length = _ by
      rw [length, List.length_drop, Nat.add_sub_cancel' inTokens])
  rw [List.take_append_drop, length] at hidden
  unfold hideItemParagraphs
  show (hideFrom (run.scope.level + 2) run.tokens.length run.tokens (index + 2) >>= _) = _
  rw [hidden, ok_bind]
  rfl

/-! ## Lists -/

section

variable {md : Markdown} {parse : Nat → Nat → BlockRun → BlockRun} {checkedParse : Parse}
  {tree : ParseBlocks} {depth : Nat} {ends : BlockRun.Step} {checkedEnds : Step}

/-- The items of a list add their tokens to those before. -/
theorem length_listItems (answers : BlockRun.Answers md "list" ends)
    (parses : BlockRun.ParsesAs parse tree) (anew : BlockRun.StartsAnew tree) {scope : Scope}
    (inText : stop ≤ scope.lines.size) (fuel next : Nat) (marker : Marker) (gapBefore : Bool)
    (inside : run.scope = BlockRun.itemScope scope) :
    run.tokens.length ≤
      (BlockRun.listItems parse ends stop fuel next marker gapBefore run).2.2.tokens.length := by
  obtain ⟨runScope, progress, tokens⟩ := run
  obtain rfl : runScope = BlockRun.itemScope scope := inside
  obtain ⟨line, made⟩ := BlockRun.listItems_eq parses anew answers scope inText fuel next marker
    gapBefore progress tokens
  rw [made]
  show tokens.length ≤ List.length (tokens ++ _)
  rw [List.length_append]
  exact Nat.le_add_right ..

theorem value_eq (marker : Marker) :
    (if marker.number.isSome then some (marker.value.getD 1) else none) = marker.value := by
  unfold Marker.value
  cases marker.number <;> rfl

/-- Whether a marker may interrupt a paragraph, by what is left of the line. -/
theorem interrupts_eq (marker : Marker) :
    (marker.value.getD 1 != 1 || marker.rest.trim.isEmpty) = !marker.interrupts := by
  have number : (marker.value.getD 1 != 1) = !(marker.value.all (· == 1)) := by
    cases marker.value <;> rfl
  rw [number, isEmpty_trim, Marker.interrupts, Bool.not_and, Bool.not_not]

/-- What a list does behind its items. -/
theorem closeList_eq {found : Bool × Nat × BlockRun} {index : Nat} {token : Token} {parent : Parent}
    (inTokens : index < found.2.2.tokens.length) :
    (do
      let closed := (ofItems source found).2.2.add token
      let mapped ← closed.setMap index (first, (ofItems source found).2.1)
      let left := (mapped.moveTo (ofItems source found).2.1).setParent parent
      if (ofItems source found).1 then return (true, ← left.hideItemParagraphs index)
      else return (true, left) : Checked (Bool × ByteRun)) =
      .ok (ofStep source (true,
        let left := (((found.2.2.add token).setMap index (first, found.2.1)).moveTo
          found.2.1).setParent parent
        if found.1 then left.hideItemParagraphs index else left)) := by
  obtain ⟨isTight, after, run⟩ := found
  have closed : index + 2 ≤ (run.add token).tokens.length := by
    show _ ≤ List.length (run.tokens ++ _)
    rw [List.length_append]
    exact Nat.succ_le_succ inTokens
  show ((ofRun source (run.add token)).setMap index (first, after) >>= _) = _
  rw [setMap_eq (Nat.lt_of_succ_lt closed), ok_bind]
  cases isTight with
  | false => rfl
  | true =>
    have enough : index + 2 ≤ ((((run.add token).setMap index (first, after)).moveTo
        after).setParent parent).tokens.length := by
      show _ ≤ List.length (List.modify ..)
      rw [List.length_modify]
      exact closed
    show (hideItemParagraphs (ofRun source ((((run.add token).setMap index (first, after)).moveTo
      after).setParent parent)) index >>= _) = _
    rw [hideItemParagraphs_eq enough]
    rfl

/-- With marks for lines, a list is what it is on lines. -/
theorem list_eq (parses : BlockRun.ParsesAs parse tree) (anew : BlockRun.StartsAnew tree)
    (takes : TakesLines md depth tree) (like : ParsesLike md depth source checkedParse parse)
    (silent : Bool) (answers : silent = false → BlockRun.Answers md "list" ends)
    (agrees : silent = false → Agrees source checkedEnds ends)
    (levels : silent = false → md.maxNesting ≤ run.scope.level + (depth + 1))
    (lies : run.scope.LiesIn source) (inWindow : first < stop) (inText : stop ≤ run.lineCount) :
    list checkedParse checkedEnds silent first stop (ofRun source run) =
      .ok (ofStep source (BlockRun.list parse ends silent first stop run)) := by
  have inLines : first < run.lineCount := Nat.lt_of_lt_of_le inWindow inText
  unfold list BlockRun.list
  rw [isDeeplyIndented_eq inLines, ok_bind, isDedented_eq inLines, ok_bind,
    listMarker_eq lies inLines, ok_bind]
  cases run.scope.isDeeplyIndented first with
  | true => rfl
  | false =>
    rw [if_neg Bool.false_ne_true, if_neg Bool.false_ne_true]
    cases found : Marker.of? (run.scope.content first) with
    | none => rfl
    | some marker =>
      have begins := Marker.of?_eq_some found
      have rest : slice source (contentOffset source (run.scope.line first) + marker.width)
          (offset source (run.scope.line first).stop) = .ok marker.rest := by
        have sliced := (lies first inLines).slice_rest (show (run.scope.line first).content =
          marker.text ++ marker.rest from begins.content)
        rwa [size_of_ascii begins.ascii, marker.length_text] at sliced
      dsimp only [Option.map_some]
      rw [lineEnd_eq inLines, ok_bind, source_ofRun, rest, ok_bind]
      -- Either of the two checks of a silent run refuses what may not interrupt a paragraph.
      have parent : (ofRun source run).parent = run.scope.parent := rfl
      rw [parent, ← interrupts_eq]
      generalize decide (run.scope.parent = .paragraph) = inParagraph
      cases silent with
      | true =>
        rw [Bool.true_and]
        cases inParagraph && !run.scope.isDedented first <;>
          cases marker.value.getD 1 != 1 <;> cases marker.rest.trim.isEmpty <;> rfl
      | false =>
        simp only [Bool.false_and, Bool.false_eq_true, if_false]
        rw [minus_width, ok_bind, (lies first inLines).byteAt_mark begins, ok_bind, value_eq,
          add_ofRun, setParent_ofRun]
        -- The items see the scope of the list, one level further in.
        have inside : ((run.add
              { kind := (listKinds marker.number.isSome).1,
                tag := (if marker.number.isSome then "ol" else "ul").toList, nesting := .opening,
                markup := [marker.mark], attrs := startAttributes marker.value }).setParent
              .list).scope = BlockRun.itemScope run.scope := by
          rw [BlockRun.add_opening _ rfl]
          rfl
        have opened : run.tokens.length < ((run.add
              { kind := (listKinds marker.number.isSome).1,
                tag := (if marker.number.isSome then "ol" else "ul").toList, nesting := .opening,
                markup := [marker.mark], attrs := startAttributes marker.value }).setParent
              .list).tokens.length := by
          show _ < List.length (run.tokens ++ _)
          rw [List.length_append]
          exact Nat.lt_succ_self _
        have items := listItems_eq (answers rfl) (agrees rfl) parses anew takes like (levels rfl)
          lies inText (stop - first + 1) inWindow (by omega) begins false inside
        have grows := length_listItems (answers rfl) parses anew inText (stop - first + 1) first
          marker false inside
        rw [show (ofRun source run).tokens.length = run.tokens.length from rfl, items, ok_bind]
        exact closeList_eq (Nat.lt_of_lt_of_le opened grows)

end

end ByteRun

end ComponentMarkdown
