import ComponentMarkdown.Proofs.Bytes.Scan
import ComponentMarkdown.Proofs.TagGrammar.Scanners

/-!
# Tags by bytes

The scanners for the tags of JSX look at bytes, and a backslash in a string jumps over two of them
wherever it stands. The file has:

* the scanners, with every access checked: `scanName`, `skipString`, `skipBraces`, `scanAttribute`,
  `scanTagEnd`;
* `openTag`, `closeTag` and `selfClosing`, which find what the grammar finds.
-/

namespace ComponentMarkdown

namespace Checked

open Text

/-! ## The scanners -/

/-- The index behind white space. -/
def skipBlanks (b : Text) (i : Nat) : Checked Nat :=
  skipWhile isAsciiBlank b b.length i

/-- The index behind a name. -/
def scanName (b : Text) (i : Nat) : Checked (Option Nat) := do
  match b[i]? with
  | none => return none
  | some c =>
    if Jsx.beginsName c then
      let behind ← skipWhile Jsx.continuesName b b.length (i + 1)
      return some behind
    else return none

/-- The index behind a string, from behind its opening quote on. -/
def skipString (b : Text) (quote : Char) (i : Nat) : Checked (Option Nat) :=
  if i < b.length then do
    let c ← byteAt b i
    if c == '\\' then skipString b quote (i + 2)
    else if c == quote then return some (i + 1)
    else skipString b quote (i + 1)
  else return none
termination_by b.length - i

/-- The index behind the brace that closes the first one, of which `depth` are open. Each of `fuel`
turns moves on by a byte at least. -/
def skipBraces (b : Text) : Nat → Nat → Nat → Checked (Option Nat)
  | 0, _, _ => return none
  | fuel + 1, depth, i =>
    if i < b.length then do
      let c ← byteAt b i
      if c == '{' then skipBraces b fuel (depth + 1) (i + 1)
      else if c == '}' then
        let depth ← minus depth 1
        if depth == 0 then return some (i + 1) else skipBraces b fuel depth (i + 1)
      else if Jsx.isQuote c then
        match ← skipString b c (i + 1) with
        | none => return none
        | some behind => skipBraces b fuel depth behind
      else skipBraces b fuel depth (i + 1)
    else return none

/-- The index behind a braced group. -/
def skipGroup (b : Text) (i : Nat) : Checked (Option Nat) :=
  skipBraces b (b.length - i) 0 i

/-- The index behind the value of an attribute. -/
def scanValue (b : Text) (i : Nat) : Checked (Option Nat) := do
  match b[i]? with
  | none => return none
  | some c =>
    if c == '"' || c == '\'' then
      let value ← bytesIn b (i + 1) b.length
      let length := (value.takeWhile (· != c)).length
      if length < value.length then return some (i + 1 + length + 1) else return none
    else if c == '{' then skipGroup b i
    else return none

/-- The index behind an attribute. -/
def scanAttribute (b : Text) (i : Nat) : Checked (Option Nat) := do
  match ← scanName b i with
  | none => return none
  | some behind =>
    let i ← skipBlanks b behind
    if b[i]? != some '=' then return some behind
    else
      let i ← skipBlanks b (i + 1)
      scanValue b i

/-- The end of an open tag: does it close itself, and the index behind it? -/
def scanTagEnd (b : Text) : Nat → Nat → Checked (Option (Bool × Nat))
  | 0, _ => return none
  | fuel + 1, before => do
    let i ← skipBlanks b before
    match b[i]? with
    | none => return none
    | some c =>
      if c == '>' then return some (false, i + 1)
      else if c == '/' then
        if b[i + 1]? == some '>' then return some (true, i + 2) else return none
      else if i == before then return none
      else if c == '{' then
        match ← skipGroup b i with
        | none => return none
        | some behind => scanTagEnd b fuel behind
      else
        match ← scanAttribute b i with
        | none => return none
        | some behind => scanTagEnd b fuel behind

/-- A tag that opens an element or a braced expression: its name, does it close itself, and the
index behind it? -/
def scanOpen (context : TagContext) (text : Text) : Checked (Option (Text × Bool × Nat)) := do
  let b := text.bytes
  match b.head? with
  | none => return none
  | some c =>
    if c == '{' && context = .inline then
      return (← skipGroup b 0).map fun stop => ([], true, stop)
    else if c == '<' then
      match ← scanName b 1 with
      | none => return none
      | some nameEnd =>
        let name ← bytesIn b 1 nameEnd
        return (← scanTagEnd b (b.length + 1) nameEnd).map fun (closes, stop) =>
          (name, closes, stop)
    else return none

def openTag (context : TagContext) (text : Text) : Checked (Option FoundTag) := do
  return (← scanOpen context text).map fun (name, _, stop) => ⟨name, stop⟩

def selfClosing (context : TagContext) (text : Text) : Checked (Option Nat) := do
  return ((← scanOpen context text).filter (·.2.1)).map (·.2.2)

def closeTag (text : Text) : Checked (Option FoundTag) := do
  let b := text.bytes
  if (Text.dropPrefix? ['<', '/'] text).isNone then return none
  else
    let nameStart ← skipBlanks b 2
    match ← scanName b nameStart with
    | none => return none
    | some nameEnd =>
      let name ← slice text nameStart nameEnd
      let i ← skipBlanks b nameEnd
      if b[i]? != some '>' then return none
      else return some ⟨name, i + 1⟩

end Checked

namespace Text

theorem asciiOnly_isAsciiBlank : AsciiOnly isAsciiBlank := by
  intro c holds
  simp only [isAsciiBlank, Bool.or_eq_true, beq_iff_eq] at holds
  rcases holds with (((rfl | rfl) | rfl) | rfl) | rfl <;> decide

theorem asciiOnly_isAlphanum : AsciiOnly Char.isAlphanum :=
  fun _ holds => Nat.lt_of_le_of_lt (toNat_of_isAlphanum holds).2 (by decide)

theorem asciiOnly_isAlpha : AsciiOnly Char.isAlpha :=
  fun c holds => asciiOnly_isAlphanum c (Bool.or_eq_true_iff.mpr (.inl holds))

theorem asciiOnly_beginsName : AsciiOnly Jsx.beginsName :=
  (asciiOnly_isAlpha.or (asciiOnly_beq (by decide))).or (asciiOnly_beq (by decide))

theorem asciiOnly_continuesName : AsciiOnly Jsx.continuesName :=
  ((((asciiOnly_isAlphanum.or (asciiOnly_beq (by decide))).or (asciiOnly_beq (by decide))).or
    (asciiOnly_beq (by decide))).or (asciiOnly_beq (by decide))).or (asciiOnly_beq (by decide))

theorem asciiOnly_isQuote : AsciiOnly Jsx.isQuote :=
  ((asciiOnly_beq (by decide)).or (asciiOnly_beq (by decide))).or (asciiOnly_beq (by decide))

theorem ascii_of_name {s name rest : Text} (found : Jsx.name? s = some (name, rest)) :
    ∀ c ∈ name, c.toNat < 128 := by
  cases s with
  | nil => cases found
  | cons c s =>
    rw [Jsx.name?] at found
    split at found
    · next begins =>
      cases found
      exact List.forall_mem_cons.mpr ⟨asciiOnly_beginsName c begins, fun d member =>
        asciiOnly_continuesName d (List.mem_takeWhile_imp member)⟩
    · cases found

theorem size_le_of_suffix {s rest : Text} (isSuffix : rest <:+ s) : size rest ≤ size s := by
  obtain ⟨front, rfl⟩ := isSuffix
  rw [size_append]
  exact Nat.le_add_left ..

/-- The end of what was taken away from a text. -/
theorem offset_sub {s rest : Text} (isSuffix : rest <:+ s) :
    offset s (s.length - rest.length) = size s - size rest := by
  obtain ⟨front, rfl⟩ := isSuffix
  rw [List.length_append, Nat.add_sub_cancel, offset_append, size_append, Nat.add_sub_cancel]

end Text

namespace Checked

open Text

variable {b s rest : Text} {i : Nat}

/-- What stands in front of an end of a text. -/
theorem slice_sub {front : Text} (isSuffix : front ++ rest <:+ s) :
    slice s (size s - size (front ++ rest)) (size s - size rest) = .ok front := by
  obtain ⟨before, rfl⟩ := isSuffix
  refine slice_of_eq rfl ?_ ?_
  · rw [size_append]
    exact Nat.add_sub_cancel ..
  · rw [size_append, size_append, ← Nat.add_assoc]
    exact Nat.add_sub_cancel ..

theorem skipBlanks_eq (ahead : Ahead b i b.length (bytes s)) :
    skipBlanks b i = .ok (b.length - size (Jsx.skipBlanks s)) :=
  skipWhile_text asciiOnly_isAsciiBlank.uniform ahead

theorem scanName_eq (ahead : Ahead b i b.length (bytes s)) :
    scanName b i = .ok ((Jsx.name? s).map fun found => b.length - size found.2) := by
  unfold scanName
  rw [ahead.getElem?, head?_bytes]
  cases s with
  | nil => rfl
  | cons c s =>
    show (if Jsx.beginsName (lead c) then _ else _ : Checked (Option Nat)) = _
    rw [asciiOnly_beginsName.uniform.lead, Jsx.name?]
    cases begins : Jsx.beginsName c with
    | false => rfl
    | true =>
      have isAscii := asciiOnly_beginsName c begins
      rw [bytes_cons_of_ascii isAscii] at ahead
      rw [if_pos rfl, if_pos rfl, skipWhile_text asciiOnly_continuesName.uniform ahead.tail]
      rfl

/-- A string ends where it ends when it is read by characters. Bytes of a character that was not
read as a whole are passed by. -/
theorem skipString_eq {quote : Char} (isQuote : Jsx.isQuote quote = true) {high : Text}
    (isHigh : ∀ byte ∈ high, 128 ≤ byte.toNat) (ahead : Ahead b i b.length (high ++ bytes s)) :
    skipString b quote i = .ok ((Jsx.stringEnd? quote s).map (b.length - size ·)) := by
  have isAscii := asciiOnly_isQuote quote isQuote
  obtain ⟨bound, enough⟩ : ∃ bound, high.length + size s < bound := ⟨_, Nat.lt_succ_self _⟩
  induction bound generalizing i high s with
  | zero => cases enough
  | succ bound ih =>
    match high, s with
    | byte :: high, s =>
      obtain ⟨first, others⟩ := List.forall_mem_cons.mp isHigh
      rw [skipString, if_pos ahead.lt, ahead.byteAt]
      show (if byte == '\\' then _ else _) = _
      rw [(asciiOnly_beq (by decide)).of_high first, (asciiOnly_beq isAscii).of_high first]
      exact ih others ahead.tail (by rw [List.length_cons] at enough; omega)
    | [], [] =>
      rw [skipString, if_neg (Nat.not_lt.mpr (Nat.le_of_eq ahead.nil))]
      rfl
    | [], c :: s =>
      rw [List.nil_append, bytes_cons_eq] at ahead
      rw [skipString, if_pos ahead.lt, ahead.byteAt]
      show (if lead c == '\\' then _ else _) = _
      rw [lead_beq (by decide), lead_beq isAscii]
      have positive := charBytes_length_pos c
      rw [charBytes_eq, List.length_cons] at positive
      rw [List.length_nil, size_cons, charBytes_eq, List.length_cons] at enough
      by_cases isEscape : c = '\\'
      · rw [isEscape, trail_of_ascii (by decide)] at ahead
        rw [isEscape, if_pos (beq_self_eq_true _)]
        cases s with
        | nil =>
          have ends := ahead.tail.nil
          have notQuote : ¬ ('\\' == quote) = true := by
            rintro same
            rw [← beq_iff_eq.mp same] at isQuote
            cases isQuote
          rw [skipString, if_neg (by omega), Jsx.stringEnd?, if_neg notQuote]
          · rfl
          · exact fun _ _ _ same => by cases same
        | cons d s =>
          rw [List.nil_append, bytes_cons_eq] at ahead
          rw [Jsx.stringEnd?]
          refine ih (trail_high d) ahead.tail.tail ?_
          rw [size_cons, charBytes_eq, List.length_cons] at enough
          omega
      · rw [if_neg (by simpa using isEscape), Jsx.stringEnd?]
        · by_cases ends : c = quote
          · rw [ends, trail_of_ascii isAscii] at ahead
            rw [if_pos (beq_iff_eq.mpr ends), if_pos (beq_iff_eq.mpr ends)]
            exact congrArg (fun found => Except.ok (some found)) ahead.tail.eq_sub
          · rw [if_neg (by simpa using ends), if_neg (by simpa using ends)]
            exact ih (trail_high c) ahead.tail (by omega)
        · exact fun _ _ same _ => isEscape same

/-- A braced group ends where it ends when it is read by characters. Inside it a brace is open, so
that the depth does not fall below zero. -/
theorem skipBraces_eq {fuel depth : Nat} (isOpen : 0 < depth) {high : Text}
    (isHigh : ∀ byte ∈ high, 128 ≤ byte.toNat) (ahead : Ahead b i b.length (high ++ bytes s))
    (enough : high.length + size s ≤ fuel) :
    skipBraces b fuel depth i = .ok ((Jsx.afterBraces? depth s).map (b.length - size ·)) := by
  induction fuel generalizing i high s depth with
  | zero =>
    have nothing : s = [] := size_eq_zero.mp (by omega)
    rw [nothing, Jsx.afterBraces?]
    rfl
  | succ fuel ih =>
    match high, s with
    | byte :: high, s =>
      obtain ⟨first, others⟩ := List.forall_mem_cons.mp isHigh
      rw [skipBraces, if_pos ahead.lt, ahead.byteAt]
      show (if byte == '{' then _ else _) = _
      rw [(asciiOnly_beq (by decide)).of_high first, (asciiOnly_beq (by decide)).of_high first,
        asciiOnly_isQuote.of_high first]
      exact ih isOpen others ahead.tail (by rw [List.length_cons] at enough; omega)
    | [], [] =>
      rw [skipBraces, if_neg (Nat.not_lt.mpr (Nat.le_of_eq ahead.nil)), Jsx.afterBraces?]
      rfl
    | [], c :: s =>
      rw [List.nil_append, bytes_cons_eq] at ahead
      rw [List.length_nil, size_cons, charBytes_eq, List.length_cons] at enough
      rw [skipBraces, if_pos ahead.lt, ahead.byteAt, Jsx.afterBraces?]
      show (if lead c == '{' then _ else _) = _
      rw [lead_beq (by decide), lead_beq (by decide), asciiOnly_isQuote.uniform.lead]
      by_cases opens : (c == '{') = true
      · rw [if_pos opens, if_pos opens]
        exact ih (Nat.succ_pos _) (trail_high c) ahead.tail (by omega)
      rw [if_neg opens, if_neg opens]
      by_cases closes : (c == '}') = true
      · rw [if_pos closes, if_pos closes, minus_of_le isOpen]
        rw [beq_iff_eq.mp closes, trail_of_ascii (by decide)] at ahead
        show (if depth - 1 == 0 then _ else _) = _
        by_cases last : depth ≤ 1
        · rw [if_pos (beq_iff_eq.mpr (Nat.sub_eq_zero_of_le last)), if_pos last]
          exact congrArg (fun found => Except.ok (some found)) ahead.tail.eq_sub
        · rw [if_neg (by rw [beq_iff_eq]; omega), if_neg last]
          exact ih (by omega) (List.forall_mem_nil _) ahead.tail
            (by rw [List.length_nil]; omega)
      rw [if_neg closes, if_neg closes]
      by_cases quotes : Jsx.isQuote c = true
      · have isAscii := asciiOnly_isQuote c quotes
        rw [trail_of_ascii isAscii] at ahead
        rw [if_pos quotes, if_pos quotes, lead_of_ascii isAscii,
          skipString_eq quotes (List.forall_mem_nil _) ahead.tail, Jsx.afterQuote?_eq]
        cases ends : Jsx.stringEnd? c s with
        | none => rfl
        | some rest =>
          have isSuffix := Jsx.stringEnd_suffix ends
          have shorter := size_le_of_suffix isSuffix
          exact ih isOpen (List.forall_mem_nil _) (ahead.tail.suffix isSuffix)
            (by rw [List.length_nil]; omega)
      · rw [if_neg quotes, if_neg quotes]
        exact ih isOpen (trail_high c) ahead.tail (by omega)

theorem skipGroup_eq (ahead : Ahead b i b.length (bytes ('{' :: s))) :
    skipGroup b i = .ok ((Jsx.afterBraces? 1 s).map (b.length - size ·)) := by
  have room := ahead.eq_sub
  have inText : size ('{' :: s) ≤ b.length := by
    obtain ⟨-, -, ends⟩ := ahead
    rw [ends]
    exact Nat.le_add_left ..
  rw [bytes_cons_of_ascii (by decide)] at ahead
  rw [size_cons, charBytes_of_ascii (by decide), List.length_singleton] at room inText
  obtain ⟨fuel, enough⟩ : ∃ fuel, b.length - i = fuel + 1 := ⟨size s, by omega⟩
  rw [skipGroup, enough, skipBraces, if_pos ahead.lt, ahead.byteAt]
  exact skipBraces_eq (by decide) (List.forall_mem_nil _) ahead.tail
    (by rw [List.length_nil]; omega)

theorem scanValue_eq (ahead : Ahead b i b.length (bytes s)) :
    scanValue b i = .ok ((Jsx.afterValue? s).map (b.length - size ·)) := by
  unfold scanValue
  rw [ahead.getElem?, head?_bytes]
  cases s with
  | nil => rfl
  | cons c s =>
    have atGroup := ahead
    rw [bytes_cons_eq] at ahead
    show (if lead c == '"' || lead c == '\'' then _ else _ : Checked (Option Nat)) = _
    rw [lead_beq (by decide), lead_beq (by decide), lead_beq (by decide), Jsx.afterValue?]
    by_cases quotes : (c == '"' || c == '\'') = true
    · have isAscii : c.toNat < 128 := by
        rcases Bool.or_eq_true_iff.mp quotes with same | same <;> rw [beq_iff_eq.mp same] <;> decide
      rw [trail_of_ascii isAscii, List.nil_append] at ahead
      have inText : i + 1 ≤ b.length := ahead.lt
      rw [if_pos quotes, if_pos quotes, lead_of_ascii isAscii, ahead.tail.bytesIn inText]
      show (if ((bytes s).takeWhile (· != c)).length < (bytes s).length then _ else _) = _
      have whole := List.takeWhile_append_dropWhile (p := (· != c)) (l := s)
      have uniform : Uniform (· != c) := (asciiOnly_beq isAscii).not
      rw [takeWhile_bytes uniform, Jsx.afterString?]
      cases found : s.dropWhile (· != c) with
      | nil =>
        rw [found, List.append_nil] at whole
        rw [whole, if_neg (Nat.lt_irrefl _)]
        rfl
      | cons d rest =>
        rw [found] at whole
        have isQuote : d = c := by
          have stops := List.head?_dropWhile_not (· != c) s
          rw [found] at stops
          simpa using stops
        rw [isQuote] at whole
        have ends := ahead.tail
        rw [← whole, bytes_append, bytes_cons_of_ascii isAscii] at ends
        have shorter : (bytes (s.takeWhile (· != c))).length < (bytes s).length := by
          conv => rhs; rw [← whole, bytes_append, List.length_append, bytes_cons_of_ascii isAscii]
          exact Nat.lt_add_of_pos_right (Nat.succ_pos _)
        rw [if_pos shorter]
        exact congrArg (fun found => Except.ok (some found)) ends.append.tail.eq_sub
    rw [if_neg quotes, if_neg quotes]
    by_cases opens : (c == '{') = true
    · rw [if_pos opens, if_pos opens]
      rw [beq_iff_eq.mp opens] at atGroup
      exact skipGroup_eq atGroup
    · rw [if_neg opens, if_neg opens]
      rfl

theorem scanAttribute_eq (ahead : Ahead b i b.length (bytes s)) :
    scanAttribute b i = .ok ((Jsx.afterAttribute? s).map (b.length - size ·)) := by
  unfold scanAttribute Jsx.afterAttribute?
  rw [scanName_eq ahead]
  cases named : Jsx.name? s with
  | none => rfl
  | some found =>
    obtain ⟨name, behind⟩ := found
    have atName := ahead.suffix (Jsx.name_behind named).suffix
    have atBlanks := atName.suffix (Jsx.skipBlanks_suffix behind)
    show (skipBlanks b (b.length - size behind) >>= _) = _
    rw [skipBlanks_eq atName]
    show (if (b[b.length - size (Jsx.skipBlanks behind)]? != some '=') = true then _ else _) = _
    rw [atBlanks.getElem?, head?_bytes]
    dsimp only
    cases blanks : Jsx.skipBlanks behind with
    | nil => rfl
    | cons c value =>
      rw [blanks] at atBlanks
      show (if (some (lead c) != some '=') = true then _ else _) = _
      by_cases equals : c = '='
      · rw [equals, bytes_cons_of_ascii (by decide)] at atBlanks
        have atValue := atBlanks.tail.suffix (Jsx.skipBlanks_suffix value)
        rw [equals, lead_of_ascii (by decide), if_neg (by decide), skipBlanks_eq atBlanks.tail]
        exact scanValue_eq atValue
      · have notEquals : (some (lead c) != some '=') = true := by
          simpa [lead_eq (show '='.toNat < 128 by decide)] using equals
        rw [if_pos notEquals]
        split
        · next same => exact absurd (List.cons.inj same).1 equals
        · rfl

/-- White space was skipped just if the text begins with some. -/
theorem sub_skipBlanks {c : Char} (ahead : Ahead b i b.length (bytes s))
    (blanks : Jsx.skipBlanks s = c :: rest) :
    (b.length - size (Jsx.skipBlanks s) == i) = !isAsciiBlank (s.headD c) := by
  cases s with
  | nil => cases blanks
  | cons d s =>
    have place := ahead.eq_sub
    rw [List.headD_cons, place]
    unfold Jsx.skipBlanks
    rw [List.dropWhile_cons]
    cases isBlank : isAsciiBlank d with
    | false =>
      rw [if_neg Bool.false_ne_true]
      exact beq_self_eq_true _
    | true =>
      have shorter := size_le_of_suffix (List.dropWhile_suffix (l := s) isAsciiBlank)
      have positive := charBytes_length_pos d
      have ends : b.length = i + size (d :: s) := by
        obtain ⟨-, -, ends⟩ := ahead
        exact ends
      rw [size_cons] at ends ⊢
      rw [if_pos rfl]
      exact beq_eq_false_iff_ne.mpr (by omega)

theorem scanTagEnd_eq (fuel : Nat) (ahead : Ahead b i b.length (bytes s)) :
    scanTagEnd b fuel i =
      .ok ((Jsx.tagEnd? fuel s).map fun found => (found.1, b.length - size found.2)) := by
  induction fuel generalizing i s with
  | zero => rfl
  | succ fuel ih =>
    have atBlanks := ahead.suffix (Jsx.skipBlanks_suffix s)
    rw [scanTagEnd, skipBlanks_eq ahead]
    show (match b[b.length - size (Jsx.skipBlanks s)]? with | none => _ | some c => _) = _
    rw [atBlanks.getElem?, head?_bytes]
    cases blanks : Jsx.skipBlanks s with
    | nil =>
      rw [Jsx.tagEnd?, blanks]
      rfl
    | cons c rest =>
      have moved := sub_skipBlanks ahead blanks
      rw [blanks] at moved atBlanks
      rw [Jsx.tagEnd?_of_skipBlanks blanks]
      show (if (lead c == '>') = true then _ else _) = _
      rw [moved, lead_beq (by decide), lead_beq (by decide), lead_beq (by decide)]
      by_cases ends : (c == '>') = true
      · rw [beq_iff_eq.mp ends, bytes_cons_of_ascii (by decide)] at atBlanks
        rw [if_pos ends, if_pos ends, beq_iff_eq.mp ends]
        exact congrArg (fun stop => Except.ok (some (false, stop))) atBlanks.tail.eq_sub
      rw [if_neg ends, if_neg ends]
      by_cases closes : (c == '/') = true
      · rw [beq_iff_eq.mp closes, bytes_cons_of_ascii (by decide)] at atBlanks
        rw [if_pos closes, if_pos closes, beq_iff_eq.mp closes, atBlanks.tail.getElem?, head?_bytes]
        cases rest with
        | nil => rfl
        | cons d rest =>
          have atEnd := atBlanks.tail
          show (if (some (lead d) == some '>') = true then _ else _) =
            Except.ok
              (Option.map _ (if (some d == some '>') = true then some (true, rest) else none))
          by_cases ends : d = '>'
          · rw [ends, bytes_cons_of_ascii (by decide)] at atEnd
            rw [ends, lead_of_ascii (by decide), if_pos (by decide), if_pos (by decide)]
            exact congrArg (fun stop => Except.ok (some (true, stop))) atEnd.tail.eq_sub
          · have notEnd : ¬ (some (lead d) == some '>') = true := by
              simpa [lead_eq (show '>'.toNat < 128 by decide)] using ends
            have notEnd' : ¬ (some d == some '>') = true := by simpa using ends
            rw [if_neg notEnd, if_neg notEnd']
            rfl
      rw [if_neg closes, if_neg closes]
      cases isAsciiBlank (s.headD c) with
      | false => rfl
      | true =>
        show (if (c == '{') = true then _ else _) =
          Except.ok (Option.map _ (if (c == '{') = true then _ else _))
        by_cases opens : (c == '{') = true
        · rw [if_pos opens, if_pos opens]
          rw [beq_iff_eq.mp opens] at atBlanks ⊢
          rw [skipGroup_eq atBlanks]
          cases group : Jsx.afterBraces? 1 rest with
          | none => rfl
          | some behind =>
            refine ih (atBlanks.suffix ?_)
            exact (Jsx.afterBraces_behind group).suffix.trans (List.suffix_cons _ _)
        · rw [if_neg opens, if_neg opens, scanAttribute_eq atBlanks]
          cases found : Jsx.afterAttribute? (c :: rest) with
          | none => rfl
          | some behind => exact ih (atBlanks.suffix (Jsx.afterAttribute_behind found).suffix)

/-! ## Tags -/

/-- The tag that opens an element, or a braced expression, is found by bytes. -/
theorem scanOpen_eq (context : TagContext) (text : Text) :
    scanOpen context text = .ok ((Jsx.openTag? context text).map fun tag =>
      (tag.name, tag.selfClosing, size text - size tag.rest)) := by
  have ahead : Ahead (bytes text) 0 (bytes text).length (bytes text) := Ahead.whole _
  unfold scanOpen
  dsimp only
  rw [head?_bytes]
  cases text with
  | nil => rfl
  | cons c s =>
    show (if (lead c == '{' && decide (context = .inline)) = true then _ else _) = _
    rw [lead_beq (by decide), lead_beq (by decide)]
    by_cases braced : c = '{'
    · subst braced
      cases context with
      | block => rfl
      | inline =>
        rw [if_pos (by decide), skipGroup_eq ahead]
        show _ = Except.ok (Option.map _ ((Jsx.afterBraces? 1 s).bind _))
        cases Jsx.afterBraces? 1 s with
        | none => rfl
        | some rest => rfl
    rw [if_neg (by simp [braced])]
    by_cases opens : c = '<'
    · subst opens
      rw [if_pos (by decide)]
      rw [bytes_cons_of_ascii (by decide)] at ahead ⊢
      rw [scanName_eq ahead.tail]
      show _ = Except.ok (Option.map _ ((Jsx.name? s).bind _))
      cases named : Jsx.name? s with
      | none => rfl
      | some found =>
        obtain ⟨name, rest⟩ := found
        have parts : bytes name ++ bytes rest = bytes s := by
          rw [← bytes_append, ← Jsx.name_append named]
        have atName : Ahead ('<' :: bytes s) 1 ('<' :: bytes s).length
            (bytes name ++ bytes rest) := by
          rw [parts]
          exact ahead.tail
        have atRest := atName.append
        have isAscii := ascii_of_name named
        show (bytesIn ('<' :: bytes s) 1 (('<' :: bytes s).length - size rest) >>= _) = _
        rw [← atRest.eq_sub, atName.front.bytesIn ahead.lt]
        show (scanTagEnd ('<' :: bytes s) _ (('<' :: bytes s).length - size rest) >>= _) = _
        rw [← atRest.eq_sub, scanTagEnd_eq _ atRest, bytes_of_ascii isAscii]
        have enough : rest.length < ('<' :: bytes s).length + 1 := by
          have shorter := List.IsSuffix.length_le (Jsx.name_behind named).suffix
          have inText := length_le_size s
          unfold size at inText
          rw [List.length_cons]
          omega
        rw [Jsx.tagEnd?_congr enough (Nat.lt_succ_self _)]
        show _ = Except.ok (Option.map _ ((Jsx.tagEnd? _ rest).bind _))
        cases Jsx.tagEnd? (rest.length + 1) rest with
        | none => rfl
        | some ends =>
          have isSize : size ('<' :: s) = ('<' :: bytes s).length := by
            rw [← bytes_cons_of_ascii (by decide)]
            rfl
          rw [isSize]
          rfl
    · rw [if_neg (by simp [opens])]
      unfold Jsx.openTag?
      split
      · next same => exact absurd (List.cons.inj same).1 opens
      · next same => exact absurd (List.cons.inj same).1 braced
      · rfl

theorem openTag_eq (context : TagContext) (text : Text) :
    openTag context text = .ok ((TagGrammar.jsx.openTag context text).map fun tag =>
      ⟨tag.name, offset text tag.length⟩) := by
  unfold openTag
  rw [scanOpen_eq]
  show _ = Except.ok (Option.map _ (Option.map _ (Jsx.openTag? context text)))
  cases found : Jsx.openTag? context text with
  | none => rfl
  | some tag =>
    show Except.ok (some (FoundTag.mk tag.name _)) = Except.ok (some (FoundTag.mk tag.name _))
    rw [offset_sub (Jsx.openTag_behind found).suffix]

theorem selfClosing_eq (context : TagContext) (text : Text) :
    selfClosing context text =
      .ok ((TagGrammar.jsx.selfClosing context text).map (offset text)) := by
  unfold selfClosing
  rw [scanOpen_eq]
  show _ = Except.ok (Option.map _ (Option.map _ ((Jsx.openTag? context text).filter _)))
  cases found : Jsx.openTag? context text with
  | none => rfl
  | some tag =>
    obtain ⟨name, closes, rest⟩ := tag
    cases closes with
    | false => rfl
    | true =>
      show Except.ok (some (_ : Nat)) = Except.ok (some (_ : Nat))
      rw [offset_sub (Jsx.openTag_behind found).suffix]

theorem closeTag_eq (context : TagContext) (text : Text) :
    closeTag text = .ok ((TagGrammar.jsx.closeTag context text).map fun tag =>
      ⟨tag.name, offset text tag.length⟩) := by
  show _ = Except.ok (Option.map _ (Option.map _ (Jsx.closeTag? text)))
  unfold closeTag
  dsimp only
  rcases Jsx.closeTag?_cases text with ⟨notPrefix, notTag⟩ | ⟨s, rfl⟩
  · rw [notPrefix, notTag]
    rfl
  have ahead : Ahead (bytes ('<' :: '/' :: s)) 2 (bytes ('<' :: '/' :: s)).length (bytes s) := by
    rw [bytes_cons_of_ascii (by decide), bytes_cons_of_ascii (by decide)]
    exact (Ahead.whole _).tail.tail
  have isPrefix : ¬ (dropPrefix? ['<', '/'] ('<' :: '/' :: s)).isNone = true := Bool.false_ne_true
  rw [if_neg isPrefix, skipBlanks_eq ahead]
  have atBlanks := ahead.suffix (Jsx.skipBlanks_suffix s)
  show (scanName _ (_ - size (Jsx.skipBlanks s)) >>= _) = _
  rw [scanName_eq atBlanks]
  rw [Jsx.closeTag?_eq]
  cases named : Jsx.name? (Jsx.skipBlanks s) with
  | none => rfl
  | some found =>
    obtain ⟨name, rest⟩ := found
    have atName := atBlanks.suffix (Jsx.name_behind named).suffix
    have atEnd := atName.suffix (Jsx.skipBlanks_suffix rest)
    have inText : Jsx.skipBlanks s <:+ '<' :: '/' :: s :=
      (Jsx.skipBlanks_suffix s).trans ((List.suffix_cons _ _).trans (List.suffix_cons _ _))
    have sliced := slice_sub (Jsx.name_append named ▸ inText)
    rw [← Jsx.name_append named] at sliced
    show (slice ('<' :: '/' :: s) (size ('<' :: '/' :: s) - size (Jsx.skipBlanks s))
      (size ('<' :: '/' :: s) - size rest) >>= _) = _
    rw [sliced]
    show (skipBlanks _ (_ - size rest) >>= _) = _
    rw [skipBlanks_eq atName]
    show (if ((bytes ('<' :: '/' :: s))[_ - size (Jsx.skipBlanks rest)]? != some '>') = true
      then _ else _) = _
    rw [atEnd.getElem?, head?_bytes]
    rw [Option.bind_some]
    dsimp only
    have behind : Jsx.skipBlanks rest <:+ '<' :: '/' :: s :=
      (Jsx.skipBlanks_suffix rest).trans ((Jsx.name_behind named).suffix.trans inText)
    generalize Jsx.skipBlanks rest = blanks at atEnd behind ⊢
    cases blanks with
    | nil => rfl
    | cons c more =>
      show (if (some (lead c) != some '>') = true then _ else _) = _
      by_cases ends : c = '>'
      · subst ends
        have atMore := atEnd
        rw [bytes_cons_of_ascii (c := '>') (by decide)] at atMore
        rw [lead_of_ascii (by decide), if_neg (by decide), atMore.tail.eq_sub]
        rw [List.head?_cons, if_pos rfl, Option.map_some, Option.map_some, List.tail_cons,
          offset_sub ((List.suffix_cons _ more).trans behind)]
        rfl
      · have notEnd : (some (lead c) != some '>') = true := by
          simpa [lead_eq (show '>'.toNat < 128 by decide)] using ends
        rw [if_pos notEnd, if_neg (by simpa using ends)]
        rfl

end Checked

end ComponentMarkdown
