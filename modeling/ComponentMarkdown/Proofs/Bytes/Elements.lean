import ComponentMarkdown.Proofs.Bytes.Searches
import ComponentMarkdown.Proofs.Bytes.Tags

/-!
# Embedded markup in text by bytes

Embedded markup is looked at by its first bytes before it is scanned. The close tag of an element is
looked for past whole constructs. The file has:

* embedded markup, with every access checked;
* where it may begin, in bytes and in characters (`mayEmbed_eq`);
* `embedded_eq`: with bytes for characters, the rule does what it does on characters.
-/

namespace ComponentMarkdown

open Text Checked

namespace InlineByteRun

/-- Where the close tag of that name begins and where it ends. -/
def seekCloseTag (skip : Step) (name : Text) :
    Nat → InlineByteRun → Checked (Option (Nat × Nat) × InlineByteRun)
  | 0, _ => throw .depth
  | fuel + 1, run => do
    if run.pos < run.posMax then
      let start := run.pos
      let tag ← closeTag (← run.ahead)
      let skipped ← skip run
      match tag with
      | some tag =>
        if tag.name = name ∧ skipped.1 = false then
          return (some (start, start + tag.length), skipped.2)
        else seekCloseTag skip name fuel skipped.2
      | none => seekCloseTag skip name fuel skipped.2
    else return (none, run)

/-- Can embedded markup begin at the position? It takes three bytes at least. -/
def mayEmbed (run : InlineByteRun) : Checked Bool :=
  match run.source.bytes[run.pos]? with
  | none => return false
  | some first => do
    if (first != '<' && first != '{') || run.posMax ≤ run.pos + 2 then return false
    else if first == '<' then
      let second ← byteAt run.source.bytes (run.pos + 1)
      return second.isAlpha || second == '!' || second == '?' || second == '/'
    else return true

/-- Adds embedded code as a single token. -/
def addEmbedded (run : InlineByteRun) (code : Text) : InlineByteRun :=
  run.add { kind := .embeddedInline, tag := [], nesting := .selfClosing, content := code }

/-- An element: a single token without a body, or else two around it, which share the code. -/
def writeElement (parse : InlineByteRun → Checked InlineByteRun) (code : Text) (start stop : Nat)
    (run : InlineByteRun) : Checked InlineByteRun := do
  let body ← slice run.source start stop
  if body.all isBlank then return run.addEmbedded code
  else
    let split := offset code (code.length - 1)
    let front ← slice code 0 split
    let last ← slice code split code.size
    run.wrap parse
      { kind := .embeddedInline, tag := [], nesting := .opening, content := front }
      { kind := .embeddedInline, tag := [], nesting := .closing, content := last }
      start stop

/-- What an element comes to, once its close tag was looked for: the run is back at `start`, and the
code is made from the open tag. -/
def endElement (md : Markdown) (parse : InlineByteRun → Checked InlineByteRun) (silent : Bool)
    (start inner : Nat) (found : Option (Nat × Nat) × InlineByteRun) :
    Checked (Bool × InlineByteRun) := do
  let run := { found.2 with pos := start }
  match found.1 with
  | none => return (false, run)
  | some (bodyEnd, stop) =>
    match md.transform.embed? (selfClosed (← slice run.source start inner)) with
    | none => return (false, run)
    | some code => finish silent (writeElement parse code inner bodyEnd) stop run

def embedded (md : Markdown) (skip : Step) (parse : InlineByteRun → Checked InlineByteRun)
    (silent : Bool) : Step := fun run => do
  if !(← run.mayEmbed) then return (false, run)
  else
    let text ← run.ahead
    match ← openTag .inline text with
    | none => return (false, run)
    | some tag =>
      match ← selfClosing .inline text with
      | some length =>
        match md.transform.embed? (← slice text 0 length) with
        | none => return (false, run)
        | some code => finish silent (fun run => pure (run.addEmbedded code)) (run.pos + length) run
      | none =>
        let inner := run.pos + tag.length
        let found ← seekCloseTag skip tag.name (run.posMax - inner + 1) { run with pos := inner }
        endElement md parse silent run.pos inner found

section

variable {run : InlineRun} {level : Nat} {checked : Step} {step : InlineRun.Step}
  {checkedParse : InlineByteRun → Checked InlineByteRun} {parse : InlineRun → InlineRun}

/-! ## Where embedded markup may begin -/

theorem asciiOnly_opens : AsciiOnly fun c => c.isAlpha || c == '!' || c == '?' || c == '/' :=
  ((asciiOnly_isAlpha.or (asciiOnly_beq (by decide))).or (asciiOnly_beq (by decide))).or
    (asciiOnly_beq (by decide))

/-- In a window of two bytes no embedded markup begins. -/
theorem mayEmbed_short (ready : run.Ready) (short : size run.cursor.rest ≤ 2) :
    (ofRun run).mayEmbed = .ok false := by
  have ends : (ofRun run).posMax ≤ (ofRun run).pos + 2 := by
    rw [posMax_ofRun, pos_ofRun, posMax_eq ready]
    exact Nat.add_le_add_left short _
  unfold mayEmbed
  split
  · rfl
  · rw [decide_eq_true ends, Bool.or_true]
    rfl

/-- No embedded markup begins with another mark. -/
theorem mayEmbed_other (ready : run.Ready) {c : Char} {others : Text}
    (begins : run.cursor.rest = c :: others) (notAngle : c ≠ '<') (notBrace : c ≠ '{') :
    (ofRun run).mayEmbed = .ok false := by
  have here := ahead_ofRun ready
  rw [begins, bytes_cons_eq] at here
  have notMark : (lead c != '<' && lead c != '{') = true := by
    rw [bne, lead_beq (by decide), bne, lead_beq (by decide)]
    simp [notAngle, notBrace]
  unfold mayEmbed
  rw [show (ofRun run).source.bytes[(ofRun run).pos]? = _ from here.getElem?_head]
  dsimp only
  rw [notMark, Bool.true_or]
  rfl

/-- In a longer window a brace is enough, and the byte behind an angle bracket decides. -/
theorem mayEmbed_long (ready : run.Ready) {c d : Char} {others : Text}
    (begins : run.cursor.rest = c :: d :: others) (isMark : c = '<' ∨ c = '{')
    (long : 2 < size run.cursor.rest) :
    (ofRun run).mayEmbed =
      .ok (c == '{' || d.isAlpha || d == '!' || d == '?' || d == '/') := by
  have ends : ¬ (ofRun run).posMax ≤ (ofRun run).pos + 2 := by
    rw [posMax_ofRun, pos_ofRun, posMax_eq ready]
    omega
  have isAscii : c.toNat < 128 := by rcases isMark with rfl | rfl <;> decide
  have here := ahead_ofRun ready
  rw [begins, bytes_cons_of_ascii isAscii, bytes_cons_eq] at here
  have second : byteAt (ofRun run).source.bytes ((ofRun run).pos + 1) = .ok (lead d) :=
    here.tail.byteAt
  have uniform : ((lead d).isAlpha || lead d == '!' || lead d == '?' || lead d == '/') =
      (d.isAlpha || d == '!' || d == '?' || d == '/') := asciiOnly_opens.uniform.lead d
  unfold mayEmbed
  rw [show (ofRun run).source.bytes[(ofRun run).pos]? = _ from here.getElem?_head]
  dsimp only
  rw [decide_eq_false ends, second, ok_bind, uniform]
  rcases isMark with rfl | rfl <;> rfl

/-- Text of at most two bytes begins no embedded markup. -/
theorem lt_size_of_mayEmbed {s : Text} (may : ComponentMarkdown.mayEmbed s = true) :
    2 < size s := by
  unfold ComponentMarkdown.mayEmbed at may
  split at may
  · next c behind =>
    rw [size_cons, size_cons, charBytes_of_ascii (by decide), List.length_singleton]
    cases behind with
    | nil =>
      have long := charBytes_length_high (of_decide_eq_true may)
      omega
    | cons d others =>
      have first := charBytes_length_pos c
      have second := charBytes_length_pos d
      rw [size_cons]
      omega
  · exact Nat.lt_of_lt_of_le (by simp) (length_le_size _)
  · cases may

/-- In longer text a brace is enough, and the character behind an angle bracket decides. -/
theorem mayEmbed_of_long {c d : Char} {others : Text} (isMark : c = '<' ∨ c = '{')
    (long : 2 < size (c :: d :: others)) : ComponentMarkdown.mayEmbed (c :: d :: others) =
      (c == '{' || d.isAlpha || d == '!' || d == '?' || d == '/') := by
  have isAscii : c.toNat < 128 := by rcases isMark with rfl | rfl <;> decide
  cases others with
  | cons e more => rcases isMark with rfl | rfl <;> rfl
  | nil =>
    have high : 128 ≤ d.toNat := Nat.le_of_not_lt fun isAscii' => by
      rw [size_cons, size_cons, charBytes_of_ascii isAscii, charBytes_of_ascii isAscii'] at long
      exact absurd long (show ¬ 2 < 2 by decide)
    rcases isMark with rfl | rfl
    · exact (asciiOnly_opens.of_high high).symm
    · exact decide_eq_true high

theorem mayEmbed_eq (ready : run.Ready) :
    (ofRun run).mayEmbed = .ok (ComponentMarkdown.mayEmbed run.cursor.rest) := by
  by_cases long : 2 < size run.cursor.rest
  · cases begins : run.cursor.rest with
    | nil =>
      rw [begins] at long
      exact absurd long (by decide)
    | cons c others =>
      by_cases isMark : c = '<' ∨ c = '{'
      · cases others with
        | nil =>
          rw [begins, size_cons, charBytes_of_ascii (by rcases isMark with rfl | rfl <;> decide)]
            at long
          exact absurd long (show ¬ 2 < 1 by decide)
        | cons d more =>
          rw [mayEmbed_long ready begins isMark long, mayEmbed_of_long isMark (begins ▸ long)]
      · rw [not_or] at isMark
        rw [mayEmbed_other ready begins isMark.1 isMark.2]
        unfold ComponentMarkdown.mayEmbed
        split
        · next same => exact absurd (List.cons.inj same).1 isMark.2
        · next same => exact absurd (List.cons.inj same).1 isMark.1
        · rfl
  · rw [mayEmbed_short ready (Nat.le_of_not_lt long),
      Bool.eq_false_iff.mpr (mt lt_size_of_mayEmbed long)]

/-! ## Close tags -/

/-- Where a close tag begins and ends, with bytes for characters. -/
def ofPlaces (source : Text) (places : Nat × Nat) : Nat × Nat :=
  (offset source places.1, offset source places.2)

/-- The body that a close tag ends lies in the window, behind where the search began. -/
theorem seekCloseTag_sought (alike : SkipsAlike level checked step) {source name : Text}
    {fuel charFuel : Nat} (ready : run.Ready) (same : run.level = level)
    (isSource : run.source = source)
    (enough : offset run.source run.posMax - offset run.source run.pos < fuel)
    (enoughChars : run.posMax - run.pos < charFuel) :
    Sought (ofPlaces source) (seekCloseTag checked name fuel (ofRun run)) run
      (InlineRun.seekCloseTag TagGrammar.jsx step name charFuel run) fun places =>
        run.pos ≤ places.1 ∧ places.1 ≤ run.posMax := by
  induction fuel generalizing run charFuel with
  | zero => exact absurd enough (Nat.not_lt_zero _)
  | succ fuel ih =>
    obtain ⟨charFuel, rfl⟩ := Nat.exists_eq_succ_of_ne_zero (Nat.ne_zero_of_lt enoughChars)
    subst isSource
    rw [seekCloseTag, InlineRun.seekCloseTag]
    by_cases inWindow : run.pos < run.posMax
    · have shorter := alike.shorter ready same inWindow
      have follows := alike.follows run ready same inWindow
      have goesOn : Sought (ofPlaces run.source)
          (seekCloseTag checked name fuel (ofStep (step run)).2) run
          (InlineRun.seekCloseTag TagGrammar.jsx step name charFuel (step run).2) fun places =>
            run.pos ≤ places.1 ∧ places.1 ≤ run.posMax := by
        refine (ih follows.ready (follows.level.trans same) follows.source
          (Nat.lt_of_lt_of_le shorter.2 (Nat.le_of_lt_succ enough))
          (Nat.lt_of_lt_of_le shorter.1 (Nat.le_of_lt_succ enoughChars))).behind follows ?_
        intro places bounds
        have further := alike.further run ready same inWindow
        exact ⟨Nat.le_trans (Nat.le_of_lt further) bounds.1, follows.posMax ▸ bounds.2⟩
      rw [if_pos (show (ofRun run).pos < (ofRun run).posMax from offset_lt.mpr inWindow),
        ahead_eq ready, ok_bind, closeTag_eq .inline, ok_bind,
        alike.agrees run ready same inWindow, ok_bind, if_neg (Nat.not_le_of_lt inWindow)]
      dsimp only
      cases closes : TagGrammar.jsx.closeTag .inline run.cursor.rest with
      | none => exact goesOn
      | some tag =>
        have inside := (TagGrammar.jsx_lawful.closeTag closes).2
        dsimp only [Option.map_some]
        split
        · next counts =>
          rw [if_pos (show tag.name = name ∧ (step run).1 = false from counts),
            show (ofRun run).pos + _ = _ from offset_within ready inside]
          have inBody : run.pos ≤ run.pos ∧ run.pos ≤ run.posMax :=
            ⟨Nat.le_refl _, ready.ordered⟩
          exact @Sought.found run _ _ (ofPlaces run.source) _ (run.pos, run.pos + tag.length) _
            follows inBody
        · next counts =>
          rw [if_neg (show ¬ (tag.name = name ∧ (step run).1 = false) from counts)]
          exact goesOn
    · rw [if_neg (show ¬ (ofRun run).pos < (ofRun run).posMax from fun less =>
        inWindow (offset_lt.mp less)), if_pos (Nat.not_lt.mp inWindow)]
      exact .nothing ready

/-! ## Elements -/

theorem addEmbedded_ofRun (run : InlineRun) (code : Text) :
    (ofRun run).addEmbedded code = ofRun (run.write (.embedded code)) ∧
      (run.write (.embedded code)).source = run.source :=
  ⟨add_ofRun run _, source_add run _⟩

theorem writeElement_eq (alike : ParsesAlike run.source (level + 1) checkedParse parse)
    (code : Text) (ready : run.Ready) (same : run.level = level) {start stop : Nat}
    (ordered : start ≤ stop) (inWindow : stop ≤ run.posMax) :
    writeElement checkedParse code (offset run.source start) (offset run.source stop) (ofRun run) =
        .ok (ofRun (InlineRun.writeElement parse code start stop run)) ∧
      (InlineRun.writeElement parse code start stop run).source = run.source := by
  have front : slice code 0 (offset code (code.length - 1)) = .ok code.dropLast := by
    have sliced := @slice_offset code 0 (code.length - 1) (Nat.zero_le _) (Nat.sub_le _ _)
    rwa [offset_zero, List.drop_zero, ← List.dropLast_eq_take] at sliced
  have last : slice code (offset code (code.length - 1)) code.size = .ok code.getLast?.toList := by
    have sliced := @slice_offset code (code.length - 1) code.length (Nat.sub_le _ _) (Nat.le_refl _)
    rw [offset_length, List.take_length] at sliced
    rw [sliced]
    rcases List.eq_nil_or_concat code with rfl | ⟨front, c, rfl⟩ <;> simp
  unfold writeElement InlineRun.writeElement
  rw [source_ofRun, slice_offset ordered (Nat.le_trans inWindow ready.inText), ok_bind]
  split
  · obtain ⟨written, kept⟩ := addEmbedded_ofRun run code
    exact ⟨congrArg Except.ok written, kept⟩
  · dsimp only
    rw [front, ok_bind, last, ok_bind]
    exact wrap_ofRun alike rfl ready same ordered inWindow

/-- What an element comes to by characters, once its close tag was looked for. -/
def foundElement (md : Markdown) (parse : InlineRun → InlineRun) (silent : Bool)
    (start length : Nat) (rest : Text) (found : Option (Nat × Nat) × InlineRun) :
    Bool × InlineRun :=
  let run := { found.2 with pos := start }
  match found.1 with
  | none => (false, run)
  | some (bodyEnd, stop) =>
    match md.transform.embed? (selfClosed (rest.take length)) with
    | none => (false, run)
    | some code =>
      let run :=
        if silent then run else InlineRun.writeElement parse code (start + length) bodyEnd run
      (true, { run with pos := stop })

theorem endElement_eq {md : Markdown} {silent : Bool}
    (parses : silent = false → ParsesAlike run.source (level + 1) checkedParse parse)
    (ready : run.Ready) (same : run.level = level) {length : Nat}
    (inTag : length ≤ run.cursor.rest.length) {found : Option (Nat × Nat) × InlineRun}
    (follows : Follows run found.2)
    (bounds : ∀ places, found.1 = some places →
      run.pos + length ≤ places.1 ∧ places.1 ≤ run.posMax) :
    endElement md checkedParse silent (offset run.source run.pos)
        (offset run.source (run.pos + length))
        (found.1.map (ofPlaces run.source), ofRun found.2) =
      .ok (ofStep (foundElement md parse silent run.pos length run.cursor.rest found)) := by
  have back := follows.back ready
  obtain ⟨places, source, pos, posMax, pending, deep, tokens, memo⟩ := found
  obtain ⟨rfl, rfl, sameLevel, atEnd⟩ := follows
  rcases places with - | ⟨bodyEnd, stop⟩
  · rfl
  · obtain ⟨behind, inWindow⟩ := bounds (bodyEnd, stop) rfl
    refine (congrArg (· >>= _) (slice_ahead ready inTag)).trans ?_
    unfold foundElement
    dsimp only
    rw [ok_bind]
    cases md.transform.embed? (selfClosed (run.cursor.rest.take length)) with
    | none => rfl
    | some code =>
      have written := fun loud => @writeElement_eq
        ⟨run.source, run.pos, run.posMax, pending, deep, tokens, memo⟩ level _ _ (parses loud) code
        back.ready (back.level.trans same) _ _ behind inWindow
      exact finish_eq written stop

theorem embedded_eq {md : Markdown} (isJsx : md.grammar = TagGrammar.jsx)
    (alike : SkipsAlike level checked step) {silent : Bool}
    (parses : silent = false → ParsesAlike run.source (level + 1) checkedParse parse)
    (ready : run.Ready) (same : run.level = level) :
    embedded md checked checkedParse silent (ofRun run) =
      .ok (ofStep (InlineRun.embedded md step parse silent run)) := by
  unfold embedded InlineRun.embedded
  rw [mayEmbed_eq ready, ok_bind, ahead_eq ready, ok_bind, openTag_eq, selfClosing_eq, isJsx,
    ok_bind]
  dsimp only
  split
  · rfl
  · cases opens : TagGrammar.jsx.openTag .inline run.cursor.rest with
    | none => rfl
    | some tag =>
      dsimp only [Option.map_some]
      rw [ok_bind]
      have inTag := (TagGrammar.jsx_lawful.openTag opens).2
      cases closes : TagGrammar.jsx.selfClosing .inline run.cursor.rest with
      | some length =>
        have inside := (TagGrammar.jsx_lawful.selfClosing closes).2
        have sliced := slice_offset (Nat.zero_le length) inside
        rw [offset_zero, List.drop_zero] at sliced
        dsimp only [Option.map_some]
        rw [sliced, ok_bind]
        cases md.transform.embed? (run.cursor.rest.take length) with
        | none => rfl
        | some code =>
          dsimp only
          rw [show (ofRun run).pos + _ = _ from offset_within ready inside]
          have written := addEmbedded_ofRun run code
          exact @finish_eq run silent (fun run => pure (run.addEmbedded code))
            (InlineRun.write · (.embedded code))
            (fun _ => ⟨congrArg Except.ok written.1, written.2⟩) _
      | none =>
        dsimp only [Option.map_none]
        have fits : run.pos + tag.length ≤ run.posMax := by
          rw [InlineRun.cursor_rest_length ready] at inTag
          exact Nat.add_le_of_le_sub' ready.ordered inTag
        let moved := { run with pos := run.pos + tag.length }
        have inside : moved.Ready := ready.advance fits
        have sought := @seekCloseTag_sought moved level _ _ alike run.source tag.name _ _ inside
          same rfl (Nat.lt_succ_self _) (Nat.lt_succ_self _)
        rw [show (ofRun run).pos + _ = _ from offset_within ready inTag]
        refine (congrArg (· >>= _) sought.agrees).trans ?_
        exact endElement_eq parses ready same inTag
          ⟨sought.follows.source, sought.follows.posMax, sought.follows.level,
            sought.follows.ready⟩ sought.bounds

end

end InlineByteRun

end ComponentMarkdown
