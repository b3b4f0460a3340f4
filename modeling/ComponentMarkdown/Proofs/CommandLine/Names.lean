import ComponentMarkdown.CommandLine.Modules
import ComponentMarkdown.Proofs.Render.Indent

/-!
# Names of components

The name of a component stands where JavaScript wants an identifier. Its first character is one
with which an identifier may begin, but what follows is taken over from the words of a file name.
The file has:

* `NameClass.IsIdentifier`, for any letters and digits above ASCII;
* `upperChar_head`, what the upper case of a character begins with: its own upper case is itself;
* `pascalCase_pascalCase`: a name that was made is not changed again;
* `pascalCase_isIdentifier_iff`, the names that become identifiers, and `pascalCase_plus`, one that
  does not.
-/

namespace ComponentMarkdown

/-- The letters and the digits above ASCII. -/
structure NameClass where
  letter : Char → Bool
  digit : Char → Bool

namespace NameClass

variable (chars : NameClass)

/-- May the character stand at the front of an identifier? -/
def IsFirst (c : Char) : Prop :=
  c.isAlpha ∨ c = '_' ∨ c = '$' ∨ 0x80 ≤ c.toNat ∧ chars.letter c

/-- May the character stand in an identifier? -/
def IsPart (c : Char) : Prop :=
  chars.IsFirst c ∨ c.isDigit ∨ 0x80 ≤ c.toNat ∧ chars.digit c

/-- The names that JavaScript allows for a function, but for its keywords. -/
def IsIdentifier : Text → Prop
  | [] => False
  | c :: rest => chars.IsFirst c ∧ ∀ c ∈ rest, chars.IsPart c

end NameClass

/-! ## Code points -/

theorem toNat_of_isLower {c : Char} (lower : c.isLower = true) :
    0x61 ≤ c.toNat ∧ c.toNat ≤ 0x7A := by
  obtain ⟨above, below⟩ := Bool.and_eq_true_iff.mp lower
  exact ⟨UInt32.le_iff_toNat_le.mp (of_decide_eq_true above),
    UInt32.le_iff_toNat_le.mp (of_decide_eq_true below)⟩

/-- The character for a code point has that code point, or is NUL. -/
theorem ofNat_cases (n : Nat) : (Char.ofNat n).toNat = n ∨ Char.ofNat n = '\x00' := by
  by_cases valid : n.isValidChar
  · left
    rw [Char.ofNat, dif_pos valid]
    rfl
  · right
    rw [Char.ofNat, dif_neg valid]
    rfl

theorem forall_ascii {holds : Char → Prop} (checked : ∀ n < 0x80, holds (Char.ofNat n)) {c : Char}
    (ascii : c.toNat < 0x80) : holds c := by
  have here := checked c.toNat ascii
  rwa [Char.ofNat_toNat] at here

/-! ## Upper case -/

/-- The code points that a run leads to. -/
def CaseRun.image (run : CaseRun) : CaseRun :=
  ⟨(run.first + run.shift).toNat, (run.last + run.shift).toNat, run.step, 0⟩

/-- A run of one code point. -/
def CaseRun.single (n : Nat) : CaseRun :=
  ⟨n, n, 1, 0⟩

theorem CaseRun.holds_iff {run : CaseRun} {n : Nat} :
    run.holds n = true ↔ run.first ≤ n ∧ n ≤ run.last ∧ (n - run.first) % run.step = 0 := by
  simp [holds, and_assoc]

theorem CaseRun.single_holds (n : Nat) : (CaseRun.single n).holds n = true :=
  holds_iff.mpr ⟨Nat.le_refl n, Nat.le_refl n, Nat.mod_one _⟩

/-- The code points of a run, one by one. -/
def CaseRun.codes (run : CaseRun) : List Nat :=
  List.range' run.first ((run.last - run.first) / run.step + 1) run.step

theorem CaseRun.mem_codes {run : CaseRun} {n : Nat} (inside : run.holds n = true) :
    n ∈ run.codes := by
  obtain ⟨above, below, even⟩ := holds_iff.mp inside
  have steps := Nat.div_add_mod (n - run.first) run.step
  have notBehind : (n - run.first) / run.step ≤ (run.last - run.first) / run.step :=
    Nat.div_le_div_right (Nat.sub_le_sub_right below _)
  exact List.mem_range'.mpr ⟨(n - run.first) / run.step, by omega, by omega⟩

/-- Code points as the bits of a number, so that sets of them are compared in one step. -/
def codeBits (codes : List Nat) : Nat :=
  codes.foldr (fun n bits => 1 <<< n ||| bits) 0

theorem testBit_codeBits {codes : List Nat} {n : Nat} (member : n ∈ codes) :
    (codeBits codes).testBit n = true := by
  induction codes with
  | nil => cases member
  | cons m codes ih =>
    rw [codeBits, List.foldr_cons, ← codeBits, Nat.testBit_or, Bool.or_eq_true]
    rcases List.mem_cons.mp member with rfl | member
    · rw [Nat.one_shiftLeft, Nat.testBit_two_pow_self]
      exact .inl rfl
    · exact .inr (ih member)

/-- The code points of runs as the bits of a number. -/
def runBits (runs : List CaseRun) : Nat :=
  runs.foldr (fun run bits => codeBits run.codes ||| bits) 0

theorem testBit_runBits {runs : List CaseRun} {run : CaseRun} (member : run ∈ runs) {n : Nat}
    (inside : run.holds n = true) : (runBits runs).testBit n = true := by
  induction runs with
  | nil => cases member
  | cons other runs ih =>
    rw [runBits, List.foldr_cons, ← runBits, Nat.testBit_or, Bool.or_eq_true]
    rcases List.mem_cons.mp member with rfl | member
    · exact .inl (testBit_codeBits (CaseRun.mem_codes inside))
    · exact .inr (ih member)

/-- The code points that have an upper case other than themselves. -/
def changedRuns : List CaseRun :=
  upperRuns ++ upperExpansions.map fun expansion => .single expansion.1

/-- The code points that the upper case of others begins with. -/
def leadingRuns : List CaseRun :=
  upperRuns.map CaseRun.image ++ upperExpansions.map fun expansion => .single (expansion.2.headD 0)

set_option maxRecDepth 20000 in
theorem leadingRuns_apart : runBits leadingRuns &&& runBits changedRuns = 0 := by
  decide

theorem not_holds_changed {run other : CaseRun} (leads : run ∈ leadingRuns)
    (changes : other ∈ changedRuns) {n : Nat} (inside : run.holds n = true) :
    other.holds n = false := by
  rw [← Bool.not_eq_true]
  intro alsoInside
  have both : (runBits leadingRuns &&& runBits changedRuns).testBit n = true := by
    rw [Nat.testBit_and, testBit_runBits leads inside, testBit_runBits changes alsoInside]
    rfl
  rw [leadingRuns_apart, Nat.zero_testBit] at both
  cases both

theorem toUpper_ascii {c : Char} (ascii : c.toNat < 0x80) :
    (c.isLower = false → c.toUpper = c) ∧ c.toUpper.isLower = false ∧
      upperChar c.toUpper = [c.toUpper] ∧
      (separatesWords c = false → separatesWords c.toUpper = false) :=
  @forall_ascii (fun c => (c.isLower = false → c.toUpper = c) ∧ c.toUpper.isLower = false ∧
    upperChar c.toUpper = [c.toUpper] ∧
    (separatesWords c = false → separatesWords c.toUpper = false)) (by decide) c ascii

/-- Where the upper case of a character comes from. -/
theorem upperChar_cases (c : Char) :
    c.toNat < 0x80 ∧ upperChar c = [c.toUpper] ∨
      0x80 ≤ c.toNat ∧
        ((∃ expansion ∈ upperExpansions, upperChar c = expansion.2.map Char.ofNat) ∨
          (∃ run ∈ upperRuns, run.holds c.toNat = true ∧
            upperChar c = [Char.ofNat (c.toNat + run.shift).toNat]) ∨
          upperChar c = [c]) := by
  unfold upperChar
  dsimp only
  split
  · next ascii => exact .inl ⟨ascii, rfl⟩
  · next high =>
    refine .inr ⟨Nat.le_of_not_lt high, ?_⟩
    split
    · next key mapped found => exact .inl ⟨(key, mapped), List.mem_of_find?_eq_some found, rfl⟩
    · split
      · next run found =>
        have holds : run.holds c.toNat = true := by simpa using List.find?_some found
        exact .inr (.inl ⟨run, List.mem_of_find?_eq_some found, holds, rfl⟩)
      · exact .inr (.inr rfl)

/-- What is changed neither by a run nor by an expansion, and is no letter of ASCII in lower case,
is its own upper case. -/
theorem upperChar_eq_self {c : Char} (notLower : c.isLower = false)
    (unchanged : ∀ run ∈ changedRuns, run.holds c.toNat = false) : upperChar c = [c] := by
  unfold upperChar
  dsimp only
  split
  · next ascii =>
    rw [(toUpper_ascii ascii).1 notLower]
  · have noExpansion : upperExpansions.find? (·.1 == c.toNat) = none := by
      refine List.find?_eq_none.mpr fun expansion member isExpansion => ?_
      have outside := unchanged (.single expansion.1)
        (List.mem_append_right _ (List.mem_map_of_mem member))
      rw [eq_of_beq isExpansion, CaseRun.single_holds] at outside
      cases outside
    have noRun : upperRuns.find? (·.holds c.toNat) = none := by
      refine List.find?_eq_none.mpr fun run member => ?_
      rw [unchanged run (List.mem_append_left _ member)]
      exact Bool.false_ne_true
    rw [noExpansion, noRun]

set_option maxRecDepth 8000 in
/-- No run leads to a letter of ASCII in lower case, or to another character below `0x7B` that is
no letter. -/
theorem upperRuns_bounds : ∀ run ∈ upperRuns, 0x7B ≤ run.first + run.shift ∨
    run.first = run.last ∧ 0x41 ≤ run.first + run.shift ∧ run.first + run.shift ≤ 0x5A := by
  decide

theorem CaseRun.image_holds {run : CaseRun} (member : run ∈ upperRuns) {n : Nat}
    (inside : run.holds n = true) : run.image.holds (n + run.shift).toNat = true := by
  rw [holds_iff] at *
  have bounds := upperRuns_bounds run member
  have even : (n + run.shift).toNat - (run.first + run.shift).toNat = n - run.first := by omega
  refine ⟨?_, ?_, ?_⟩
  · change (run.first + run.shift).toNat ≤ _
    omega
  · change _ ≤ (run.last + run.shift).toNat
    omega
  · change ((n + run.shift).toNat - (run.first + run.shift).toNat) % run.step = 0
    rw [even]
    exact inside.2.2

/-- A code point to which the upper case of another leads first. -/
theorem upperChar_ofNat {run : CaseRun} (leads : run ∈ leadingRuns) {n : Nat}
    (inside : run.holds n = true) (notLower : n < 0x61 ∨ 0x7A < n) :
    (Char.ofNat n).isLower = false ∧ upperChar (Char.ofNat n) = [Char.ofNat n] := by
  rcases ofNat_cases n with same | null
  · have notLower : (Char.ofNat n).isLower = false := by
      rw [← Bool.not_eq_true]
      intro lower
      obtain ⟨above, below⟩ := toNat_of_isLower lower
      rw [same] at above below
      omega
    refine ⟨notLower, upperChar_eq_self notLower fun other changes => ?_⟩
    rw [same]
    exact not_holds_changed leads changes inside
  · rw [null]
    exact ⟨rfl, rfl⟩

set_option maxRecDepth 8000 in
/-- No expansion begins with a letter of ASCII in lower case, and none separates words. -/
theorem upperExpansions_bounds : ∀ expansion ∈ upperExpansions,
    (expansion.2 ≠ [] ∧ (expansion.2.headD 0 < 0x61 ∨ 0x7A < expansion.2.headD 0)) ∧
      ∀ n ∈ expansion.2, separatesWords (Char.ofNat n) = false := by
  decide

/-- The upper case of a character begins with a character that is its own upper case. -/
theorem upperChar_head (c : Char) :
    ∃ first others, upperChar c = first :: others ∧ first.isLower = false ∧
      upperChar first = [first] := by
  rcases upperChar_cases c with ⟨ascii, upper⟩ | ⟨high, upper⟩
  · obtain ⟨-, notLower, kept, -⟩ := toUpper_ascii ascii
    exact ⟨c.toUpper, [], upper, notLower, kept⟩
  · rcases upper with ⟨expansion, member, upper⟩ | ⟨run, member, inside, upper⟩ | same
    · obtain ⟨⟨notEmpty, notLower⟩, -⟩ := upperExpansions_bounds expansion member
      obtain ⟨n, others, isExpansion⟩ := List.exists_cons_of_ne_nil notEmpty
      rw [isExpansion] at upper notLower
      have leads : CaseRun.single n ∈ leadingRuns := by
        refine List.mem_append_right _ (List.mem_map.mpr ⟨expansion, member, ?_⟩)
        rw [isExpansion]
        rfl
      exact ⟨Char.ofNat n, others.map Char.ofNat, upper,
        upperChar_ofNat leads (CaseRun.single_holds n) notLower⟩
    · refine ⟨_, [], upper, upperChar_ofNat (List.mem_append_left _ (List.mem_map_of_mem member))
        (CaseRun.image_holds member inside) ?_⟩
      have bounds := upperRuns_bounds run member
      rw [CaseRun.holds_iff] at inside
      omega
    · refine ⟨c, [], same, ?_, same⟩
      rw [← Bool.not_eq_true]
      intro lower
      exact absurd (Nat.le_trans high (toNat_of_isLower lower).2) (by decide)

theorem toNat_of_separatesWords {c : Char} (separates : separatesWords c = true) :
    c.toNat ∈ [0x5F, 0x2D, 0x20, 0x2E] := by
  simp only [separatesWords, Bool.or_eq_true, beq_iff_eq] at separates
  rcases separates with ((rfl | rfl) | rfl) | rfl <;> decide

/-- The upper case of a character of a word separates no words. -/
theorem upperChar_apart {c d : Char} (apart : separatesWords c = false) (member : d ∈ upperChar c) :
    separatesWords d = false := by
  rcases upperChar_cases c with ⟨ascii, upper⟩ | ⟨-, upper⟩
  · rw [upper] at member
    rw [List.mem_singleton.mp member]
    exact (toUpper_ascii ascii).2.2.2 apart
  · rcases upper with ⟨expansion, isExpansion, upper⟩ | ⟨run, isRun, inside, upper⟩ | same
    · rw [upper] at member
      obtain ⟨n, isChar, rfl⟩ := List.mem_map.mp member
      exact (upperExpansions_bounds expansion isExpansion).2 n isChar
    · rw [upper] at member
      rw [List.mem_singleton.mp member, ← Bool.not_eq_true]
      intro separates
      have bounds := upperRuns_bounds run isRun
      rw [CaseRun.holds_iff] at inside
      rcases ofNat_cases (c.toNat + run.shift).toNat with code | null
      · have isSeparator := toNat_of_separatesWords separates
        rw [code] at isSeparator
        simp only [List.mem_cons, List.not_mem_nil, or_false] at isSeparator
        omega
      · rw [null] at separates
        cases separates
    · rw [same] at member
      rw [List.mem_singleton.mp member]
      exact apart

/-! ## Words -/

/-- The words hold what does not separate them. -/
theorem mem_word {separates : Char → Bool} {name word : Text} {c : Char}
    (isWord : word ∈ name.splitWhere separates) (member : c ∈ word) : separates c = false := by
  induction name generalizing word with
  | nil =>
    rw [List.mem_singleton.mp isWord] at member
    cases member
  | cons d name ih =>
    rw [Text.splitWhere] at isWord
    split at isWord
    · rcases List.mem_cons.mp isWord with rfl | isWord
      · cases member
      · exact ih isWord member
    · next apart =>
      have first : ∀ {piece : Text}, (c ∈ piece → separates c = false) → c ∈ d :: piece →
          separates c = false := by
        intro piece others member
        rcases List.mem_cons.mp member with rfl | member
        · exact Bool.eq_false_iff.mpr apart
        · exact others member
      split at isWord
      · next none => exact absurd none (Text.splitWhere_ne_nil separates name)
      · next piece pieces found =>
        rcases List.mem_cons.mp isWord with rfl | isWord
        · exact first (ih (found ▸ List.mem_cons_self)) member
        · exact ih (found ▸ List.mem_cons_of_mem _ isWord) member

/-- The words of a name, capitalized and written together. -/
def joinedWords (name : Text) : Text :=
  ((name.splitWhere separatesWords).map capitalize).flatten

theorem mem_joinedWords {name : Text} {c : Char} : c ∈ joinedWords name ↔
    ∃ word ∈ name.splitWhere separatesWords, c ∈ capitalize word :=
  List.mem_flatMap

theorem joinedWords_apart {name : Text} {c : Char} (member : c ∈ joinedWords name) :
    separatesWords c = false := by
  obtain ⟨word, isWord, member⟩ := mem_joinedWords.mp member
  cases word with
  | nil => cases member
  | cons d word =>
    rcases List.mem_append.mp member with upper | member
    · exact upperChar_apart (mem_word isWord List.mem_cons_self) upper
    · exact mem_word isWord (List.mem_cons_of_mem d member)

theorem flatten_capitalize_head {words : List Text} {c : Char} {rest : Text}
    (joined : (words.map capitalize).flatten = c :: rest) :
    c.isLower = false ∧ upperChar c = [c] := by
  induction words with
  | nil => cases joined
  | cons word words ih =>
    cases word with
    | nil => exact ih joined
    | cons d word =>
      obtain ⟨first, others, upper, kept⟩ := upperChar_head d
      rw [List.map_cons, List.flatten_cons, capitalize, upper] at joined
      rw [← (List.cons.inj joined).1]
      exact kept

/-- Capitalized words written together are a single word, which is capitalized. -/
theorem joinedWords_joined {name : Text} {c : Char} {rest : Text}
    (joined : joinedWords name = c :: rest) : joinedWords (c :: rest) = c :: rest := by
  have apart : ∀ d ∈ c :: rest, separatesWords d = false :=
    fun d member => joinedWords_apart (joined ▸ member)
  have upper := (flatten_capitalize_head joined).2
  rw [joinedWords, Text.splitWhere_singleton apart]
  change upperChar c ++ rest ++ [] = _
  rw [upper, List.append_nil, List.singleton_append]

theorem joinedWords_mark (name : Text) : joinedWords ('_' :: name) = joinedWords name :=
  rfl

theorem pascalCase_eq (name : Text) : pascalCase name =
    match joinedWords name with
    | [] => "Document".toList
    | c :: rest => if startsIdentifier c then c :: rest else '_' :: c :: rest :=
  rfl

/-- A name that was made for a component stays as it is. -/
theorem pascalCase_pascalCase (name : Text) : pascalCase (pascalCase name) = pascalCase name := by
  rw [pascalCase_eq name]
  cases joined : joinedWords name with
  | nil => rfl
  | cons c rest =>
    have again := joinedWords_joined joined
    dsimp only
    split
    · next starts => rw [pascalCase_eq, again]; exact if_pos starts
    · next starts => rw [pascalCase_eq, joinedWords_mark, again]; exact if_neg starts

/-! ## Modules -/

theorem text_foldl_addLine (lines : List Text) (out : LineBuffer) :
    (lines.foldl LineBuffer.addLine out).text = out.text ++ lines.flatMap (· ++ ['\n']) := by
  induction lines generalizing out with
  | nil => exact (List.append_nil _).symm
  | cons line lines ih =>
    rw [List.foldl_cons, ih]
    simp [LineBuffer.text, LineBuffer.addLine, LineBuffer.append, LineBuffer.endLine]

/-- The module of a component from the parameters of its function on. -/
def moduleRest (rendered : Rendered) : Text :=
  "(\x7b createElement, factories = \x7b\x7d \x7d) \x7b".toList ++ '\n' ::
    (elementFactory :: rendered.tags.map binding ++ componentBody rendered.code ++
      [['\x7d']]).flatMap (· ++ ['\n'])

/-- The module that declares its function by a name as it is. -/
def declaring (name : Text) (rendered : Rendered) : Text :=
  "export default function ".toList ++ name ++ moduleRest rendered

theorem componentModule_eq (name : Text) (rendered : Rendered) :
    componentModule name rendered = declaring (pascalCase name) rendered := by
  have empty : LineBuffer.text {} = [] := rfl
  rw [componentModule, text_foldl_addLine, empty, List.nil_append, List.cons_append,
    List.cons_append, List.flatMap_cons]
  unfold componentHead declaring moduleRest
  simp only [List.append_assoc, List.cons_append, List.nil_append]

/-- A module begins with the head of its function. -/
theorem componentModule_begins (name : Text) (rendered : Rendered) :
    ∃ rest, componentModule name rendered =
      "export default function ".toList ++ pascalCase name ++ '(' :: rest := by
  have opens : "(\x7b createElement, factories = \x7b\x7d \x7d) \x7b".toList =
      '(' :: "\x7b createElement, factories = \x7b\x7d \x7d) \x7b".toList := rfl
  rw [componentModule_eq]
  unfold declaring moduleRest
  rw [opens]
  exact ⟨_, rfl⟩

/-! ## Identifiers -/

namespace NameClass

variable {chars : NameClass}

theorem isFirst_of_startsIdentifier {c : Char} (starts : startsIdentifier c = true) :
    chars.IsFirst c := by
  simp only [startsIdentifier, Bool.or_eq_true, beq_iff_eq] at starts
  rcases starts with (letter | mark) | dollar
  · exact .inl letter
  · exact .inr (.inl mark)
  · exact .inr (.inr (.inl dollar))

theorem isIdentifier_pascalCase {name : Text} : chars.IsIdentifier (pascalCase name) ↔
    ∀ c ∈ joinedWords name, chars.IsPart c := by
  rw [pascalCase_eq]
  cases joinedWords name with
  | nil =>
    refine iff_of_true ⟨.inl rfl, fun c member => .inl (.inl ?_)⟩ (List.forall_mem_nil _)
    exact List.all_eq_true.mp (by decide : "ocument".toList.all Char.isAlpha) c member
  | cons c rest =>
    dsimp only
    split
    · next starts =>
      have first : chars.IsFirst c := isFirst_of_startsIdentifier starts
      rw [List.forall_mem_cons]
      exact ⟨fun isIdentifier => ⟨.inl first, isIdentifier.2⟩, fun parts => ⟨first, parts.2⟩⟩
    · have mark : chars.IsFirst '_' := .inr (.inl rfl)
      exact ⟨fun isIdentifier => isIdentifier.2, fun parts => ⟨mark, parts⟩⟩

end NameClass

/-- No name begins with a letter of ASCII in lower case, or with a digit. -/
theorem pascalCase_head (name : Text) : ∃ first rest, pascalCase name = first :: rest ∧
    (first.isUpper ∨ first = '_' ∨ first = '$') := by
  rw [pascalCase_eq]
  cases joined : joinedWords name with
  | nil => exact ⟨'D', "ocument".toList, rfl, .inl rfl⟩
  | cons c rest =>
    dsimp only
    split
    · next starts =>
      refine ⟨c, rest, rfl, ?_⟩
      have letter : c.isAlpha = (c.isUpper || c.isLower) := rfl
      simp only [startsIdentifier, letter, Bool.or_eq_true, beq_iff_eq,
        (flatten_capitalize_head joined).1, Bool.false_eq_true, or_false] at starts
      exact or_assoc.mp starts
    · exact ⟨'_', c :: rest, rfl, .inr (.inl rfl)⟩

theorem exportLine_begins (path : Text) : ∃ rest, (GeneratedModule.ofPath path).exportLine =
    "export \x7b default as ".toList ++ pascalCase (Path.stem path) ++ " \x7d from './".toList ++
      rest := by
  have component : (GeneratedModule.ofPath path).component = pascalCase (Path.stem path) := by
    rw [GeneratedModule.ofPath, componentName, Option.getD_none]
  refine ⟨(GeneratedModule.ofPath path).file ++ "'\n".toList, ?_⟩
  unfold GeneratedModule.exportLine
  rw [component, List.append_assoc]

/-- The name of a component is an identifier exactly if its words, capitalized, are made of parts of
identifiers. In any case it begins with a letter in upper case, `_` or `$`, so that it is no
keyword. The module of the component has the name that was made for it, and so has the index. -/
theorem pascalCase_isIdentifier_iff (chars : NameClass) (name : Text) :
    (chars.IsIdentifier (pascalCase name) ↔
      ∀ word ∈ name.splitWhere separatesWords, ∀ c ∈ capitalize word, chars.IsPart c) ∧
      (∃ first rest, pascalCase name = first :: rest ∧
        (first.isUpper ∨ first = '_' ∨ first = '$')) ∧
      (∀ rendered, ∃ rest, componentModule (pascalCase name) rendered =
        "export default function ".toList ++ pascalCase name ++ '(' :: rest) ∧
      ∀ path, ∃ rest, (GeneratedModule.ofPath path).exportLine =
        "export \x7b default as ".toList ++ pascalCase (Path.stem path) ++
          " \x7d from './".toList ++ rest := by
  refine ⟨?_, pascalCase_head name, fun rendered => ?_, exportLine_begins⟩
  · rw [NameClass.isIdentifier_pascalCase]
    constructor
    · exact fun parts word isWord c member => parts c (mem_joinedWords.mpr ⟨word, isWord, member⟩)
    · intro parts c member
      obtain ⟨word, isWord, member⟩ := mem_joinedWords.mp member
      exact parts word isWord c member
  · have begins := componentModule_begins (pascalCase name) rendered
    rwa [pascalCase_pascalCase] at begins

/-- The characters of a word behind the first one are not looked at. -/
theorem pascalCase_plus : pascalCase "a+b".toList = "A+b".toList ∧
    ∀ chars : NameClass, ¬chars.IsIdentifier (pascalCase "a+b".toList) := by
  have name : pascalCase "a+b".toList = ['A', '+', 'b'] := by decide
  refine ⟨name, fun chars isIdentifier => ?_⟩
  rw [name] at isIdentifier
  have plus := isIdentifier.2 '+' List.mem_cons_self
  simp [NameClass.IsPart, NameClass.IsFirst] at plus

end ComponentMarkdown
