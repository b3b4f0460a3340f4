import ComponentMarkdown.Proofs.Factory.Reader

/-!
# Texts around copied code

The factory puts names, keys, strings, brackets and commas around the code that it copies. The file
has:

* `Weaves`, a text made of copies and of characters of its own, none of them in a comment;
* `Composes`, an operand that is woven from copies, and what it takes to list and indent operands;
* names, keys and strings, which are operands without copies in them.
-/

namespace ComponentMarkdown.Factory

/-! ## Woven texts -/

/-- Between two readers, a text is made of copies in their order, each one read where an operand is
expected and hanging from its levels, and of characters of its own, of which none is read in a
comment. -/
inductive Weaves : Reader → List (Nat × Text) → Text → Reader → Prop
  | nil {r : Reader} : Weaves r [] [] r
  | own {r last : Reader} {c : Char} {copies : List (Nat × Text)} {s : Text}
      (inCode : r.spot.isComment = false) (notReturn : c ≠ '\r')
      (behind : Weaves (r.step c) copies s last) : Weaves r copies (c :: s) last
  | copy {last : Reader} {brackets : List Bracket} {level : Nat} {copied : Text}
      {copies : List (Nat × Text)} {s : Text} (solid : Solid copied)
      (behind : Weaves ((Reader.before brackets).read (hangBy level copied)) copies s last) :
      Weaves (.before brackets) ((level, copied) :: copies) (hangBy level copied ++ s) last

/-- The copies inside one more call with children. -/
def deeper (copies : List (Nat × Text)) : List (Nat × Text) :=
  copies.map fun (level, copied) => (level + 1, copied)

section

variable {r last : Reader} {copies others : List (Nat × Text)} {s more : Text}

theorem Weaves.append {between : Reader} (front : Weaves r copies s between)
    (behind : Weaves between others more last) : Weaves r (copies ++ others) (s ++ more) last := by
  induction front with
  | nil => exact behind
  | own inCode notReturn _ ih => exact .own inCode notReturn (ih behind)
  | copy solid _ ih =>
    rw [List.append_assoc]
    exact .copy solid (ih behind)

/-- A text without comments and without copies. -/
theorem Weaves.of_all (own : r.All (fun r c => r.spot.isComment = false ∧ c ≠ '\r') s) :
    Weaves r [] s (r.read s) := by
  induction s generalizing r with
  | nil => exact .nil
  | cons c s ih => exact .own own.1.1 own.1.2 (ih own.2)

theorem Weaves.read (woven : Weaves r copies s last) : r.read s = last := by
  induction woven with
  | nil => rfl
  | own _ _ _ ih => exact ih
  | copy _ _ ih => rw [Reader.read_append, ih]

theorem step_newline_inCode (inCode : r.spot.isComment = false) :
    (r.step '\n').spot.isComment = false := by
  obtain ⟨spot, brackets⟩ := r
  cases spot with
  | code | angle | closeTag | body | stray => rfl
  | slash before => cases before <;> rfl
  | lineComment | blockComment => cases inCode
  | string double escaped => cases double <;> cases escaped <;> rfl
  | template escaped dollar => cases escaped <;> cases dollar <;> rfl
  | pattern inClass escaped => cases escaped <;> rfl
  | tag closes => cases closes <;> rfl
  | quoted double => cases double <;> rfl

/-- The copies in a text that hangs hang from one level more. -/
theorem Weaves.hang (woven : Weaves r copies s last) : Weaves r (deeper copies) (hang s) last := by
  induction woven with
  | nil => exact .nil
  | @own r last c copies s inCode notReturn behind ih =>
    by_cases isLine : c = '\n'
    · subst isLine
      have inLine := step_newline_inCode inCode
      -- the two spaces behind the line feed are own characters too, and read as it was
      rw [hang_newline]
      refine .own inCode notReturn (.own inLine (by decide) ?_)
      rw [Reader.step_line_space]
      refine .own inLine (by decide) ?_
      rwa [Reader.step_line_space]
    · rw [hang_cons isLine fun same => absurd same notReturn]
      exact .own inCode notReturn ih
  | @copy last brackets level copied copies s solid behind ih =>
    rw [hang_append fun same => absurd same ((solid.hangBy level).ends_ne (by decide))]
    refine @Weaves.copy last brackets (level + 1) copied (deeper copies) _ solid ?_
    rwa [hangBy, Reader.read_hang]

end

/-! ## Operands -/

/-- Where `expected` comes next, the text is woven from the copies and is code at its end. -/
def OperatesFrom (expected : Expected) (copies : List (Nat × Text)) (s : Text) : Prop :=
  ∃ run before, ∀ brackets,
    Weaves ⟨.code [] expected, brackets⟩ copies s ⟨.code run before, brackets⟩

/-- Where an operand is expected, the text is woven from the copies and is code at its end. -/
def Operates (copies : List (Nat × Text)) (s : Text) : Prop :=
  OperatesFrom .operand copies s

/-- An operand that is woven from the copies. -/
structure Composes (copies : List (Nat × Text)) (s : Text) : Prop where
  solid : Solid s
  operates : Operates copies s

/-- Each item of a list has its part of the copies, one item after the other. -/
inductive Each {α : Type} (holds : List (Nat × Text) → α → Prop) :
    List (Nat × Text) → List α → Prop
  | nil : Each holds [] []
  | cons {copies others : List (Nat × Text)} {item : α} {items : List α}
      (first : holds copies item) (behind : Each holds others items) :
      Each holds (copies ++ others) (item :: items)

theorem Each.append {α : Type} {holds : List (Nat × Text) → α → Prop}
    {copies others : List (Nat × Text)} {items more : List α} (front : Each holds copies items)
    (behind : Each holds others more) : Each holds (copies ++ others) (items ++ more) := by
  induction front with
  | nil => exact behind
  | cons first _ ih =>
    rw [List.append_assoc]
    exact .cons first ih

theorem Each.of_append {α : Type} {holds : List (Nat × Text) → α → Prop}
    {copies : List (Nat × Text)} {items more : List α} (each : Each holds copies (items ++ more)) :
    ∃ front behind, copies = front ++ behind ∧ Each holds front items ∧ Each holds behind more := by
  induction items generalizing copies with
  | nil => exact ⟨[], copies, rfl, .nil, each⟩
  | cons item items ih =>
    obtain _ | ⟨first, others⟩ := each
    obtain ⟨front, behind, rfl, eachFront, eachBehind⟩ := ih others
    exact ⟨_, behind, (List.append_assoc ..).symm, .cons first eachFront, eachBehind⟩

theorem Each.map {α β : Type} {holds : List (Nat × Text) → α → Prop}
    {kept : List (Nat × Text) → β → Prop} {f : α → β}
    (implies : ∀ copies item, holds copies item → kept copies (f item))
    {copies : List (Nat × Text)} {items : List α} (each : Each holds copies items) :
    Each kept copies (items.map f) := by
  induction each with
  | nil => exact .nil
  | cons first _ ih => exact .cons (implies _ _ first) ih

theorem Each.exists_of_mem {α : Type} {holds : List (Nat × Text) → α → Prop}
    {copies : List (Nat × Text)} {items : List α} (each : Each holds copies items) {item : α}
    (member : item ∈ items) : ∃ own, holds own item := by
  induction each with
  | nil => cases member
  | cons first _ ih =>
    cases member with
    | head => exact ⟨_, first⟩
    | tail _ member => exact ih member

/-- A copied operand. -/
theorem Composes.copied {copied : Text} (isOperand : IsOperand copied) :
    Composes [(0, copied)] copied := by
  obtain ⟨run, before, read⟩ := isOperand.read
  refine ⟨isOperand.solid, run, before, fun brackets => ?_⟩
  have woven : Weaves (.before brackets) [(0, copied)] (hangBy 0 copied ++ [])
      ⟨.code run before, brackets⟩ := .copy isOperand.solid (read 0 brackets ▸ .nil)
  rwa [List.append_nil] at woven

theorem not_isSuffixOf {run : Text} {c d : Char} (ends : run.getLast? = some c) (apart : d ≠ c) :
    [d, d].isSuffixOf run = false := by
  rw [Bool.eq_false_iff, Ne, List.isSuffixOf_iff_suffix]
  rintro ⟨front, rfl⟩
  rw [List.getLast?_append] at ends
  exact apart (Option.some.inj ends)

/-- Behind a comma or a colon an operand is expected. -/
theorem expects_separator {run : Text} {before : Expected} {c : Char}
    (ends : run.getLast? = some c) (separates : c = ',' ∨ c = ':') :
    Spot.expects run before = .operand := by
  have notRun : Spot.isRunChar c = false := by rcases separates with rfl | rfl <;> decide
  have plus : '+' ≠ c := by rcases separates with rfl | rfl <;> decide
  have minus : '-' ≠ c := by rcases separates with rfl | rfl <;> decide
  have notEnd : c ≠ ';' := by rcases separates with rfl | rfl <;> decide
  rw [Spot.expects, ends]
  dsimp only
  rw [notRun, if_neg Bool.false_ne_true, Expected.behindOperator, not_isSuffixOf ends plus,
    not_isSuffixOf ends minus, Bool.or_false, if_neg Bool.false_ne_true, ends,
    if_neg (mt Option.some.inj notEnd)]

/-- A run that goes on ends with the character. -/
theorem exists_extend (run : Text) (before : Expected) (c : Char) :
    ∃ run' before', Spot.extend run before c = .code run' before' ∧ run'.getLast? = some c := by
  rw [Spot.extend]
  split
  · exact ⟨_, _, rfl, List.getLast?_concat⟩
  · exact ⟨_, _, rfl, rfl⟩

section

variable {c blank : Char} {run : Text} {before : Expected} {brackets : List Bracket}

/-- Behind a comma or a colon and a blank, an operand is expected. -/
theorem step_separator (separates : c = ',' ∨ c = ':') (isBlank : blank = ' ' ∨ blank = '\n') :
    ∃ run' before', (⟨.code run before, brackets⟩ : Reader).step c =
        ⟨.code run' before', brackets⟩ ∧
      (⟨.code run' before', brackets⟩ : Reader).step blank = .before brackets := by
  obtain ⟨run', before', goes, ends⟩ := exists_extend run before c
  refine ⟨run', before', ?_, ?_⟩
  · have plain : Script.isGapBlank c = false ∧ c ∉ Spot.marks := by
      rcases separates with rfl | rfl <;> decide
    rw [Reader.step, Spot.next, Spot.codeNext_of_not_mem plain.1 plain.2, goes]
  · have step : (⟨.code run' before', brackets⟩ : Reader).step blank =
        ⟨.code [] (Spot.behindGap (Spot.expects run' before') blank), brackets⟩ := by
      rcases isBlank with rfl | rfl <;> rfl
    rw [step, expects_separator ends separates]
    rcases isBlank with rfl | rfl <;> rfl

theorem Weaves.separator (separates : c = ',' ∨ c = ':') (isBlank : blank = ' ' ∨ blank = '\n')
    {copies : List (Nat × Text)} {s : Text} {last : Reader}
    (behind : Weaves (.before brackets) copies s last) :
    Weaves ⟨.code run before, brackets⟩ copies (c :: blank :: s) last := by
  obtain ⟨run', before', separated, spaced⟩ :=
    @step_separator c blank run before brackets separates isBlank
  refine .own rfl ?_ ?_
  · rcases separates with rfl | rfl <;> decide
  · rw [separated]
    refine .own rfl ?_ (by rwa [spaced])
    rcases isBlank with rfl | rfl <;> decide

end

/-- Operands with commas between them. The first one may begin elsewhere. -/
theorem operatesFrom_join {separator : Text}
    (comma : separator = [',', ' '] ∨ separator = [',', '\n']) {expected : Expected}
    {copies others : List (Nat × Text)} {piece : Text} {pieces : List Text}
    (first : OperatesFrom expected copies piece) (made : Each Operates others pieces) :
    OperatesFrom expected (copies ++ others) (Text.join separator (piece :: pieces)) := by
  induction made generalizing copies piece expected with
  | nil => rwa [List.append_nil]
  | cons second _ ih =>
    obtain ⟨run, before, woven⟩ := first
    obtain ⟨lastRun, lastBefore, rest⟩ := ih second
    rw [Text.join_cons _ _ (List.cons_ne_nil _ _), List.append_assoc]
    refine ⟨lastRun, lastBefore, fun brackets => (woven brackets).append ?_⟩
    rcases comma with rfl | rfl
    · exact (rest brackets).separator (.inl rfl) (.inl rfl)
    · exact (rest brackets).separator (.inl rfl) (.inr rfl)

theorem operates_join {separator : Text} (comma : separator = [',', ' '] ∨ separator = [',', '\n'])
    {copies : List (Nat × Text)} {pieces : List Text} (made : Each Operates copies pieces)
    (notEmpty : pieces ≠ []) : Operates copies (Text.join separator pieces) := by
  cases made with
  | nil => exact absurd rfl notEmpty
  | cons first behind => exact operatesFrom_join comma first behind

/-- Blanks around operands. -/
theorem OperatesFrom.spaced {expected : Expected} {copies : List (Nat × Text)} {s : Text}
    (made : OperatesFrom expected copies s) {blank : Char} (isBlank : blank = ' ' ∨ blank = '\n')
    (stays : Spot.behindGap expected blank = expected) :
    OperatesFrom expected copies (blank :: s ++ [blank]) := by
  obtain ⟨run, before, woven⟩ := made
  refine ⟨[], Spot.behindGap (Spot.expects run before) blank, fun brackets => ?_⟩
  have opened : Weaves ⟨.code [] (Spot.behindGap expected blank), brackets⟩ copies s
      ⟨.code run before, brackets⟩ := stays.symm ▸ woven brackets
  have closing : Weaves ⟨.code run before, brackets⟩ [] [blank]
      ⟨.code [] (Spot.behindGap (Spot.expects run before) blank), brackets⟩ := by
    rcases isBlank with rfl | rfl <;> exact .own rfl (by decide) .nil
  have whole := opened.append closing
  rw [List.append_nil] at whole
  rcases isBlank with rfl | rfl <;> exact .own rfl (by decide) whole

/-- The brackets that the factory writes, and what is expected behind the opening one. -/
inductive IsPair : Char → Char → Expected → Prop
  | round : IsPair '(' ')' .operand
  | curly : IsPair '\x7b' '\x7d' .statement

/-- An opening bracket opens what the closing one closes. -/
theorem IsPair.exists_bracket {opening closing : Char} {expected : Expected}
    (pair : IsPair opening closing expected) (run : Text) (before : Expected) :
    ∃ bracket behind, ∀ brackets : List Bracket,
      (⟨.code run before, brackets⟩ : Reader).step opening =
          ⟨.code [] expected, bracket :: brackets⟩ ∧
        ∀ run before, (⟨.code run before, bracket :: brackets⟩ : Reader).step closing =
          ⟨.code [] behind, brackets⟩ := by
  cases pair with
  | round => exact ⟨_, _, fun brackets => ⟨rfl, fun _ _ => rfl⟩⟩
  | curly => exact ⟨_, _, fun brackets => ⟨rfl, fun _ _ => rfl⟩⟩

/-- Brackets around operands. -/
theorem OperatesFrom.bracketed {expected : Expected} {copies : List (Nat × Text)} {s : Text}
    (made : OperatesFrom expected copies s) {opening closing : Char}
    (pair : IsPair opening closing expected) (run : Text) (before : Expected) :
    ∃ behind, ∀ brackets, Weaves ⟨.code run before, brackets⟩ copies (opening :: s ++ [closing])
      ⟨.code [] behind, brackets⟩ := by
  obtain ⟨lastRun, lastBefore, woven⟩ := made
  obtain ⟨bracket, behind, steps⟩ := pair.exists_bracket run before
  refine ⟨behind, fun brackets => ?_⟩
  obtain ⟨opens, closes⟩ := steps brackets
  have close : Weaves ⟨.code lastRun lastBefore, bracket :: brackets⟩ [] [closing]
      ⟨.code [] behind, brackets⟩ := by
    refine .own rfl (by cases pair <;> decide) ?_
    rw [closes]
    exact .nil
  have whole := (woven (bracket :: brackets)).append close
  rw [List.append_nil] at whole
  exact .own rfl (by cases pair <;> decide) (opens ▸ whole)

/-- The lines of an argument move to the right as a whole. -/
theorem Composes.indentLines {copies : List (Nat × Text)} {s : Text} (made : Composes copies s) :
    Operates (deeper copies) (Factory.indentLines s) := by
  obtain ⟨run, before, woven⟩ := made.operates
  rw [indentLines_eq made.solid.ne_nil (made.solid.ends_ne (by decide))]
  exact ⟨run, before, fun brackets =>
    .own rfl (by decide) (.own rfl (by decide) (woven brackets).hang)⟩

/-! ## Names, keys and strings -/

/-- A name as code has it: words with periods between them. -/
def IsPath (s : Text) : Prop :=
  s ≠ [] ∧ ∀ c ∈ s, Spot.isRunChar c ∧ isBlank c = false

instance (s : Text) : Decidable (IsPath s) :=
  decidable_of_iff (s ≠ [] ∧ s.all fun c => Spot.isRunChar c && !isBlank c) (by
    simp only [IsPath, List.all_eq_true, Bool.and_eq_true, Bool.not_eq_true'])

theorem not_isGapBlank_of_isWordChar {c : Char} (isWord : Script.isWordChar c) :
    Script.isGapBlank c = false := by
  rw [Script.isWordChar] at isWord
  split at isWord
  · next ascii =>
    simp only [Bool.or_eq_true, beq_iff_eq] at isWord
    rcases isWord with ((letter | rfl) | rfl) | isDelete
    · have bounds := toNat_of_isAlphanum letter
      simp only [Script.isGapBlank, Bool.or_eq_false_iff, Bool.and_eq_false_iff,
        decide_eq_false_iff_not, beq_eq_false_iff_ne]
      omega
    · decide
    · decide
    · simp [Script.isGapBlank, isDelete]
  · exact (Bool.not_eq_true' _).mp isWord

theorem not_isGapBlank_of_isRunChar {c : Char} (isRun : Spot.isRunChar c) :
    Script.isGapBlank c = false := by
  simp only [Spot.isRunChar, Bool.or_eq_true, beq_iff_eq] at isRun
  rcases isRun with (word | rfl) | rfl
  · exact not_isGapBlank_of_isWordChar word
  · decide
  · decide

theorem step_isRunChar {run : Text} {before : Expected} {brackets : List Bracket} {c : Char}
    (isRun : Spot.isRunChar c) : (⟨.code run before, brackets⟩ : Reader).step c =
      ⟨Spot.extend run before c, brackets⟩ := by
  have notGap := not_isGapBlank_of_isRunChar isRun
  have plain : c ∉ Spot.marks := fun member => by
    have none : Spot.marks.any Spot.isRunChar = false := by decide
    exact absurd isRun (List.any_eq_false.mp none c member)
  rw [Reader.step, Spot.next, Spot.codeNext_of_not_mem notGap plain]

/-- Behind the characters, the text is code without copies in it, wherever in code it begins. -/
def IsCode (s : Text) : Prop :=
  ∀ run before, ∃ run' before', ∀ brackets,
    Weaves ⟨.code run before, brackets⟩ [] s ⟨.code run' before', brackets⟩

/-- A path goes before what may follow a word. -/
theorem isCode_path {s : Text} (path : ∀ c ∈ s, Spot.isRunChar c) : IsCode s := by
  induction s with
  | nil => exact fun run before => ⟨run, before, fun brackets => .nil⟩
  | cons c s ih =>
    obtain ⟨isRun, path⟩ := List.forall_mem_cons.mp path
    intro run before
    obtain ⟨run', before', goes, -⟩ := exists_extend run before c
    obtain ⟨lastRun, lastBefore, woven⟩ := ih path run' before'
    refine ⟨lastRun, lastBefore, fun brackets => .own rfl ?_ ?_⟩
    · rintro rfl
      cases isRun
    · rw [step_isRunChar isRun, goes]
      exact woven brackets

theorem IsPath.solid {s : Text} (path : IsPath s) : Solid s := by
  refine ⟨?_, ?_⟩
  · exact ⟨_, List.head?_eq_some_head path.1, (path.2 _ (List.head_mem path.1)).2⟩
  · exact ⟨_, List.getLast?_eq_some_getLast path.1, (path.2 _ (List.getLast_mem path.1)).2⟩

theorem IsPath.composes {s : Text} (path : IsPath s) : Composes [] s :=
  ⟨path.solid, isCode_path (fun c member => (path.2 c member).1) [] .operand⟩

theorem hexDigit_plain : ∀ n < 16, Quoted.hexDigit n ≠ '"' ∧ Quoted.hexDigit n ≠ '\\' ∧
    Quoted.hexDigit n ≠ '\r' := by
  decide

/-- The text is read inside a string from its beginning to its end. -/
def IsStringPart (s : Text) : Prop :=
  ∀ brackets, let inString : Reader := ⟨.string true false, brackets⟩
    inString.read s = inString ∧ inString.All (fun r c => r.spot.isString ∧ c ≠ '\r') s

theorem IsStringPart.append {s more : Text} (front : IsStringPart s) (behind : IsStringPart more) :
    IsStringPart (s ++ more) := by
  intro brackets
  obtain ⟨read, all⟩ := front brackets
  obtain ⟨readMore, allMore⟩ := behind brackets
  exact ⟨by rw [Reader.read_append, read, readMore], all.append (read.symm ▸ allMore)⟩

/-- Characters that need no escape are read in a string. -/
theorem IsStringPart.plain {c : Char} (notQuote : c ≠ '"') (notBackslash : c ≠ '\\')
    (notReturn : c ≠ '\r') : IsStringPart [c] := by
  refine fun brackets => ⟨?_, ⟨rfl, notReturn⟩, trivial⟩
  simp [Reader.read, Reader.step, Spot.next, notQuote, notBackslash]

/-- What stands for a character in a string is read in the string. -/
theorem isStringPart_escapeChar (c : Char) : IsStringPart (Quoted.escapeChar c) := by
  fun_cases Quoted.escapeChar c with
  | case8 =>
    have high := hexDigit_plain (c.toNat / 16) (by omega)
    have low := hexDigit_plain (c.toNat % 16) (by omega)
    have digits := (IsStringPart.plain high.1 high.2.1 high.2.2).append
      (.plain low.1 low.2.1 low.2.2)
    intro brackets
    obtain ⟨read, all⟩ := digits brackets
    exact ⟨read, ⟨rfl, by decide⟩, ⟨rfl, by decide⟩, ⟨rfl, by decide⟩, ⟨rfl, by decide⟩, all⟩
  | case9 _ notQuote notBackslash _ _ _ notReturn =>
    exact .plain notQuote notBackslash notReturn
  | _ => exact fun brackets => ⟨rfl, ⟨rfl, by decide⟩, ⟨rfl, by decide⟩, trivial⟩

theorem isStringPart_escaped (s : Text) : IsStringPart (s.flatMap Quoted.escapeChar) := by
  induction s with
  | nil => exact fun brackets => ⟨rfl, trivial⟩
  | cons c s ih => exact (isStringPart_escapeChar c).append ih

theorem solid_quote (s : Text) : Solid (Quoted.quote s) :=
  ⟨⟨'"', rfl, by decide⟩, ⟨'"', List.getLast?_concat, by decide⟩⟩

/-- No text breaks out of the string that is written for it. -/
theorem isCode_quote (s : Text) : IsCode (Quoted.quote s) := by
  refine fun run before => ⟨[], .operator, fun brackets => .own rfl (by decide) ?_⟩
  obtain ⟨read, all⟩ := isStringPart_escaped s brackets
  have inside := all.imp (q := fun r c => r.spot.isComment = false ∧ c ≠ '\r') fun r c inString =>
    ⟨Spot.isComment_of_isString inString.1, inString.2⟩
  have mark : Weaves ⟨.string true false, brackets⟩ [] ['"'] ⟨.code [] .operator, brackets⟩ :=
    .own rfl (by decide) .nil
  exact (Weaves.of_all inside).append (read.symm ▸ mark)

theorem composes_quote (s : Text) : Composes [] (Quoted.quote s) :=
  ⟨solid_quote s, isCode_quote s [] .operand⟩

/-- The characters of an identifier. -/
theorem isRunChar_of_identifier {c : Char} (isPart : c.isAlphanum || c == '_' || c == '$') :
    Spot.isRunChar c ∧ isBlank c = false := by
  simp only [Bool.or_eq_true, beq_iff_eq] at isPart
  rcases isPart with (letter | rfl) | rfl
  · have bounds := toNat_of_isAlphanum letter
    refine ⟨?_, ?_⟩
    · rw [Spot.isRunChar, Script.isWordChar, if_pos (by omega), letter]
      rfl
    · simp only [isBlank, Bool.or_eq_false_iff, Bool.and_eq_false_iff, decide_eq_false_iff_not,
        beq_eq_false_iff_ne]
      omega
  · decide
  · decide

theorem isPath_of_isIdentifier {name : Text} (isIdentifier : isIdentifier name) : IsPath name := by
  cases name with
  | nil => cases isIdentifier
  | cons c rest =>
    simp only [Factory.isIdentifier, Bool.and_eq_true] at isIdentifier
    refine ⟨List.cons_ne_nil _ _, List.forall_mem_cons.mpr ⟨isRunChar_of_identifier ?_, ?_⟩⟩
    · have first := isIdentifier.1
      simp only [Bool.or_eq_true] at first ⊢
      rcases first with (alpha | isMark) | isMark
      · exact .inl (.inl (by simp [Char.isAlphanum, alpha]))
      · exact .inl (.inr isMark)
      · exact .inr isMark
    · exact fun d member => isRunChar_of_identifier (List.all_eq_true.mp isIdentifier.2 d member)

/-- A name or a string. -/
inductive IsWord : Text → Prop
  | path {s : Text} (isPath : IsPath s) : IsWord s
  | quoted (s : Text) : IsWord (Quoted.quote s)

theorem IsWord.isCode {s : Text} (isWord : IsWord s) : IsCode s := by
  cases isWord with
  | path isPath => exact isCode_path fun c member => (isPath.2 c member).1
  | quoted s => exact isCode_quote s

theorem IsWord.solid {s : Text} (isWord : IsWord s) : Solid s := by
  cases isWord with
  | path isPath => exact isPath.solid
  | quoted s => exact solid_quote s

theorem IsWord.composes {s : Text} (isWord : IsWord s) : Composes [] s :=
  ⟨isWord.solid, isWord.isCode [] .operand⟩

theorem isWord_key (name : Text) : IsWord (propertyKey name) := by
  rw [propertyKey]
  split
  · next isIdentifier => exact .path (isPath_of_isIdentifier isIdentifier)
  · exact .quoted name

theorem isWord_calledName {name called : Text} (accepted : calledName name = .ok called)
    (named : isIntrinsic name ∨ IsPath name) : IsWord called := by
  rw [calledName] at accepted
  split at accepted
  · cases accepted
  · cases accepted
    split
    · exact .quoted name
    · next notIntrinsic => exact .path (named.resolve_left notIntrinsic)

theorem isWord_true : IsWord "true".toList :=
  .path (by decide)

theorem isWord_null : IsWord "null".toList :=
  .path (by decide)

/-- A name with operands in parentheses. -/
theorem IsPath.composes_call {path operands : Text} {copies : List (Nat × Text)}
    (isPath : IsPath path) (made : Operates copies operands) :
    Composes copies (path ++ '(' :: operands ++ [')']) := by
  obtain ⟨first, begins, shown⟩ := isPath.solid.begins
  obtain ⟨run, before, name⟩ := isPath.composes.operates
  obtain ⟨behind, inside⟩ := made.bracketed .round run before
  refine ⟨⟨⟨first, ?_, shown⟩, ⟨')', List.getLast?_concat, by decide⟩⟩, [], behind,
    fun brackets => ?_⟩
  · rw [List.append_assoc, List.head?_append, begins]
    rfl
  · rw [List.append_assoc]
    exact (name brackets).append (inside brackets)

end ComponentMarkdown.Factory
