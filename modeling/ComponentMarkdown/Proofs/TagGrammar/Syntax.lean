import ComponentMarkdown.Proofs.TagGrammar.Scanners

/-!
# The grammar of open tags

An open tag is `<`, a name, attributes and braced groups each behind white space, and `>` or `/>`.
This file states that grammar without the scanners and proves that the scanners decide it.

* The grammar has one predicate for each kind of text, from `IsMarkupName` up to `IsOpenTag`.
* Each scanner reads what the grammar derives (the `_reads` theorems), and all of it
  (the `_append` theorems).
* An open tag is found exactly where one is derivable (`jsx_derives`). So no text begins with two,
  and what stands behind the tag does not matter.
-/

namespace ComponentMarkdown

namespace Jsx

variable {s rest : Text} {depth fuel : Nat}

/-! ## The grammar -/

/-- White space, possibly none. -/
def IsBlank (s : Text) : Prop :=
  ∀ c ∈ s, isAsciiBlank c = true

/-- The name of a tag or of an attribute. -/
inductive IsMarkupName : Text → Prop
  | intro {c : Char} {more : Text} :
      beginsName c = true → (∀ d ∈ more, continuesName d = true) → IsMarkupName (c :: more)

/-- What stands between the quotes of a string in braces. A backslash takes the next character
with it. -/
inductive IsEscaped (quote : Char) : Text → Prop
  | nil : IsEscaped quote []
  | escape {c : Char} {s : Text} : IsEscaped quote s → IsEscaped quote ('\\' :: c :: s)
  | char {c : Char} {s : Text} :
      c ≠ '\\' → c ≠ quote → IsEscaped quote s → IsEscaped quote (c :: s)

/-- What stands between balanced braces. Strings are opaque. -/
inductive IsBraced : Text → Prop
  | nil : IsBraced []
  | char {c : Char} {s : Text} :
      c ≠ '{' → c ≠ '}' → isQuote c = false → IsBraced s → IsBraced (c :: s)
  | string {quote : Char} {inside s : Text} :
      isQuote quote = true → IsEscaped quote inside → IsBraced s →
      IsBraced (quote :: (inside ++ quote :: s))
  | group {inside s : Text} : IsBraced inside → IsBraced s → IsBraced ('{' :: (inside ++ '}' :: s))

/-- A group in braces. -/
inductive IsGroup : Text → Prop
  | intro {inside : Text} : IsBraced inside → IsGroup ('{' :: (inside ++ ['}']))

/-- The value of an attribute. Its string has no escapes. -/
inductive IsValue : Text → Prop
  | string {quote : Char} {inside : Text} :
      quote = '"' ∨ quote = '\'' → (∀ c ∈ inside, c ≠ quote) →
        IsValue (quote :: (inside ++ [quote]))
  | group {s : Text} : IsGroup s → IsValue s

/-- An attribute: a name alone, or a name and a value. -/
inductive IsAttribute : Text → Prop
  | bare {name : Text} : IsMarkupName name → IsAttribute name
  | valued {name before behind value : Text} :
      IsMarkupName name → IsBlank before → IsBlank behind → IsValue value →
      IsAttribute (name ++ (before ++ '=' :: (behind ++ value)))

/-- Attributes and groups, each behind white space. -/
inductive IsItems : Text → Prop
  | nil : IsItems []
  | cons {blanks item s : Text} :
      blanks ≠ [] → IsBlank blanks → IsAttribute item ∨ IsGroup item → IsItems s →
      IsItems (blanks ++ (item ++ s))

/-- What ends a tag that closes itself, and what ends one that does not. -/
def tagMark (selfClosing : Bool) : Text :=
  if selfClosing then ['/', '>'] else ['>']

/-- An open tag. -/
inductive IsOpenTag (name : Text) : Text → Prop
  | intro {items blanks : Text} (selfClosing : Bool) :
      IsMarkupName name → IsItems items → IsBlank blanks →
      IsOpenTag name ('<' :: (name ++ (items ++ (blanks ++ tagMark selfClosing))))

/-! ## White space and names -/

theorem isBlank_takeWhile (s : Text) : IsBlank (s.takeWhile isAsciiBlank) :=
  fun _ member => List.all_eq_true.mp List.all_takeWhile _ member

theorem blanks_append_skipBlanks (s : Text) : s.takeWhile isAsciiBlank ++ skipBlanks s = s :=
  List.takeWhile_append_dropWhile

theorem skipBlanks_append {blanks : Text} (isBlank : IsBlank blanks) (s : Text) :
    skipBlanks (blanks ++ s) = skipBlanks s :=
  List.dropWhile_append_of_pos isBlank

theorem skipBlanks_cons {c : Char} (notBlank : isAsciiBlank c = false) (s : Text) :
    skipBlanks (c :: s) = c :: s :=
  List.dropWhile_cons_of_neg (by rw [notBlank]; exact Bool.false_ne_true)

theorem not_isAsciiBlank_of_beginsName {c : Char} (begins : beginsName c = true) :
    isAsciiBlank c = false := by
  simp only [beginsName, Bool.or_eq_true, beq_iff_eq] at begins
  rcases begins with (letter | rfl) | rfl
  · exact not_isAsciiBlank (by simp [Char.isAlphanum, letter])
  · rfl
  · rfl

theorem not_continuesName_of_isAsciiBlank {c : Char} (blank : isAsciiBlank c = true) :
    continuesName c = false := by
  simp only [isAsciiBlank, Bool.or_eq_true, beq_iff_eq] at blank
  rcases blank with (((rfl | rfl) | rfl) | rfl) | rfl <;> rfl

theorem name?_reads {name : Text} (found : name? s = some (name, rest)) :
    s = name ++ rest ∧ IsMarkupName name := by
  refine ⟨name_append found, ?_⟩
  cases s with
  | nil => cases found
  | cons c s =>
    rw [name?] at found
    split at found
    · next begins =>
      cases found
      exact .intro begins fun d member => List.all_eq_true.mp List.all_takeWhile _ member
    · cases found

theorem name?_append {name : Text} (isName : IsMarkupName name)
    (ends : ∀ c ∈ rest.head?, continuesName c = false) :
    name? (name ++ rest) = some (name, rest) := by
  cases isName with
  | @intro c more begins continues =>
    have stops : rest.takeWhile continuesName = [] ∧ rest.dropWhile continuesName = rest := by
      cases rest with
      | nil => exact ⟨rfl, rfl⟩
      | cons d rest =>
        have ends := ends d rfl
        exact ⟨by simp [ends], by simp [ends]⟩
    rw [List.cons_append, name?, if_pos begins, List.takeWhile_append_of_pos continues,
      List.dropWhile_append_of_pos continues, stops.1, stops.2, List.append_nil]

/-! ## Groups -/

theorem isQuote_ne {quote : Char} (quotes : isQuote quote = true) :
    quote ≠ '{' ∧ quote ≠ '}' ∧ quote ≠ '\\' := by
  simp only [isQuote, Bool.or_eq_true, beq_iff_eq] at quotes
  rcases quotes with (rfl | rfl) | rfl <;> decide

theorem stringEnd?_reads {quote : Char} (ends : stringEnd? quote s = some rest) :
    ∃ inside, s = inside ++ quote :: rest ∧ IsEscaped quote inside := by
  fun_induction stringEnd? quote s
  case case1 => cases ends
  case case2 c behind ih =>
    obtain ⟨inside, rfl, escaped⟩ := ih ends
    exact ⟨'\\' :: c :: inside, rfl, .escape escaped⟩
  case case3 c behind _ isQuote =>
    cases ends
    exact ⟨[], by rw [beq_iff_eq.mp isQuote, List.nil_append], .nil⟩
  case case4 c behind notEscape notQuote ih =>
    obtain ⟨inside, rfl, escaped⟩ := ih ends
    refine ⟨c :: inside, rfl, .char ?_ (by simpa using notQuote) escaped⟩
    rintro rfl
    cases inside with
    | nil => exact notEscape _ _ rfl rfl
    | cons d inside => exact notEscape _ _ rfl rfl

theorem stringEnd?_append {quote : Char} {inside : Text} (notSlash : quote ≠ '\\')
    (escaped : IsEscaped quote inside) (rest : Text) :
    stringEnd? quote (inside ++ quote :: rest) = some rest := by
  induction escaped with
  | nil =>
    rw [List.nil_append, stringEnd?, if_pos (beq_self_eq_true quote)]
    rintro _ _ same -
    exact notSlash same
  | escape _ ih =>
    rw [List.cons_append, List.cons_append, stringEnd?]
    exact ih
  | char notEscape notQuote _ ih =>
    rw [List.cons_append, stringEnd?, if_neg (by simpa using notQuote)]
    · exact ih
    · rintro _ _ same -
      exact notEscape same

theorem afterBraces?_string {quote : Char} {inside : Text} (quotes : isQuote quote = true)
    (escaped : IsEscaped quote inside) (rest : Text) :
    afterBraces? depth (quote :: (inside ++ quote :: rest)) = afterBraces? depth rest := by
  obtain ⟨notOpen, notClose, notSlash⟩ := isQuote_ne quotes
  rw [afterBraces?, if_neg (by simpa using notOpen), if_neg (by simpa using notClose),
    if_pos quotes, afterQuote?_eq, stringEnd?_append notSlash escaped]
  rfl

/-- The closing brace of an inner group leads back to the group around it. -/
theorem afterBraces?_inner (s : Text) :
    afterBraces? (depth + 2) ('}' :: s) = afterBraces? (depth + 1) s := by
  rw [afterBraces?, if_neg (by decide), if_pos (by decide), if_neg (by omega)]
  rfl

/-- Balanced text leads to no end of the group that it stands in. -/
theorem afterBraces?_append (braced : IsBraced s) (rest : Text) :
    afterBraces? (depth + 1) (s ++ rest) = afterBraces? (depth + 1) rest := by
  induction braced generalizing depth rest with
  | nil => rfl
  | char notOpen notClose notQuote _ ih =>
    rw [List.cons_append, afterBraces?, if_neg (by simpa using notOpen),
      if_neg (by simpa using notClose), if_neg (by rw [notQuote]; exact Bool.false_ne_true)]
    exact ih rest
  | string quotes escaped _ ih =>
    rw [List.cons_append, List.append_assoc, List.cons_append, afterBraces?_string quotes escaped]
    exact ih rest
  | @group inside s _ _ ihInside ihBehind =>
    rw [List.cons_append, List.append_assoc, List.cons_append, afterBraces?, if_pos (by decide),
      ihInside, afterBraces?_inner]
    exact ihBehind rest

theorem afterBraces?_group {inside : Text} (braced : IsBraced inside) (rest : Text) :
    afterBraces? 1 (inside ++ '}' :: rest) = some rest := by
  rw [afterBraces?_append braced, afterBraces?, if_neg (by decide), if_pos (by decide),
    if_pos (by decide)]

/-- What is read up to the end of a group is balanced up to the first brace that closes more than
was opened. Behind an inner group the group around it goes on. -/
theorem afterBraces?_reads {depth : Nat} {s rest : Text}
    (found : afterBraces? (depth + 1) s = some rest) :
    ∃ inside behind, s = inside ++ '}' :: behind ∧ IsBraced inside ∧
      (if depth = 0 then some behind else afterBraces? depth behind) = some rest := by
  cases s with
  | nil => simp [afterBraces?] at found
  | cons c s =>
    rw [afterBraces?] at found
    by_cases opens : c = '{'
    · rw [if_pos (by simpa using opens)] at found
      obtain ⟨inside, middle, rfl, braced, found⟩ := afterBraces?_reads found
      rw [if_neg (Nat.succ_ne_zero depth)] at found
      obtain ⟨more, behind, rfl, bracedMore, found⟩ := afterBraces?_reads found
      refine ⟨'{' :: (inside ++ '}' :: more), behind, ?_, .group braced bracedMore, found⟩
      rw [opens, List.cons_append, List.append_assoc, List.cons_append]
    rw [if_neg (by simpa using opens)] at found
    by_cases closes : c = '}'
    · rw [if_pos (by simpa using closes)] at found
      refine ⟨[], s, by rw [closes, List.nil_append], .nil, ?_⟩
      rw [← found]
      cases depth with
      | zero => rfl
      | succ depth => rw [if_neg (Nat.succ_ne_zero depth), if_neg (by omega)]; rfl
    rw [if_neg (by simpa using closes)] at found
    by_cases quotes : isQuote c = true
    · rw [if_pos quotes, afterQuote?_eq] at found
      obtain ⟨middle, ends, goesOn⟩ := Option.bind_eq_some_iff.mp found
      obtain ⟨string, rfl, escaped⟩ := stringEnd?_reads ends
      obtain ⟨inside, behind, rfl, braced, goesOn⟩ := afterBraces?_reads goesOn
      refine ⟨c :: (string ++ c :: inside), behind, ?_, .string quotes escaped braced, goesOn⟩
      rw [List.cons_append, List.append_assoc, List.cons_append]
    · rw [if_neg quotes] at found
      obtain ⟨inside, behind, rfl, braced, found⟩ := afterBraces?_reads found
      exact ⟨c :: inside, behind, rfl, .char opens closes (by simpa using quotes) braced, found⟩
termination_by s.length
decreasing_by all_goals subst_vars; simp only [List.length_append, List.length_cons]; omega

theorem afterBraces?_reads_group (found : afterBraces? 1 s = some rest) :
    ∃ inside, s = inside ++ '}' :: rest ∧ IsBraced inside := by
  obtain ⟨inside, behind, isText, braced, ends⟩ := afterBraces?_reads found
  cases ends
  exact ⟨inside, isText, braced⟩

/-! ## Attributes -/

theorem afterString?_reads {quote : Char} (found : afterString? quote s = some rest) :
    ∃ inside, s = inside ++ quote :: rest ∧ ∀ c ∈ inside, c ≠ quote := by
  have parts : s.takeWhile (· != quote) ++ s.dropWhile (· != quote) = s :=
    List.takeWhile_append_dropWhile
  refine ⟨s.takeWhile (· != quote), ?_, fun c member => ?_⟩
  · unfold afterString? at found
    split at found
    · cases found
    · next c behind isRest =>
      cases found
      have isQuote := List.head?_dropWhile_not (· != quote) s
      rw [isRest, List.head?_cons] at isQuote
      have isQuote : c = quote := by simpa using isQuote
      rw [isRest, isQuote] at parts
      exact parts.symm
  · simpa using List.all_eq_true.mp List.all_takeWhile _ member

theorem afterString?_append {quote : Char} {inside : Text} (others : ∀ c ∈ inside, c ≠ quote)
    (rest : Text) : afterString? quote (inside ++ quote :: rest) = some rest := by
  rw [afterString?, List.dropWhile_append_of_pos (by simpa using others),
    List.dropWhile_cons_of_neg (by simp)]

theorem afterValue?_reads (found : afterValue? s = some rest) :
    ∃ value, s = value ++ rest ∧ IsValue value := by
  cases s with
  | nil => cases found
  | cons c s =>
    rw [afterValue?] at found
    split at found
    · next quotes =>
      obtain ⟨inside, rfl, others⟩ := afterString?_reads found
      refine ⟨c :: (inside ++ [c]), ?_, .string (by simpa using quotes) others⟩
      rw [List.cons_append, List.append_assoc, List.singleton_append]
    · split at found
      · next opens =>
        obtain ⟨inside, rfl, braced⟩ := afterBraces?_reads_group found
        refine ⟨'{' :: (inside ++ ['}']), ?_, .group (.intro braced)⟩
        rw [beq_iff_eq.mp opens, List.cons_append, List.append_assoc, List.singleton_append]
      · cases found

theorem afterValue?_append {value : Text} (isValue : IsValue value) (rest : Text) :
    afterValue? (value ++ rest) = some rest := by
  cases isValue with
  | string quotes others =>
    rw [List.cons_append, List.append_assoc, List.singleton_append, afterValue?,
      if_pos (by simpa using quotes), afterString?_append others]
  | group isGroup =>
    cases isGroup with
    | intro braced =>
      rw [List.cons_append, List.append_assoc, List.singleton_append, afterValue?,
        if_neg (by decide), if_pos (by decide), afterBraces?_group braced]

/-- A value begins with a quote or a brace. -/
theorem IsValue.not_blank {value : Text} (isValue : IsValue value) (rest : Text) :
    skipBlanks (value ++ rest) = value ++ rest := by
  cases isValue with
  | string quotes _ => exact skipBlanks_cons (by rcases quotes with rfl | rfl <;> rfl) _
  | group isGroup => cases isGroup with | intro _ => exact skipBlanks_cons rfl _

theorem afterAttribute?_reads (found : afterAttribute? s = some rest) :
    ∃ item, s = item ++ rest ∧ IsAttribute item := by
  unfold afterAttribute? at found
  split at found
  · cases found
  · next name behind named =>
    obtain ⟨rfl, isName⟩ := name?_reads named
    split at found
    · next value equals =>
      obtain ⟨text, isText, isValue⟩ := afterValue?_reads found
      have before := blanks_append_skipBlanks behind
      have after := blanks_append_skipBlanks value
      rw [isText] at after
      rw [equals, ← after] at before
      refine ⟨_, ?_, .valued isName (isBlank_takeWhile behind) (isBlank_takeWhile value) isValue⟩
      simp only [List.append_assoc, List.cons_append, before]
    · cases found
      exact ⟨name, rfl, .bare isName⟩

/-- What may stand behind an attribute: it neither goes on with its name nor gives it a value. -/
def Parted (rest : Text) : Prop :=
  (∀ c ∈ rest.head?, continuesName c = false) ∧ (skipBlanks rest).head? ≠ some '='

theorem afterAttribute?_append {item : Text} (isAttribute : IsAttribute item)
    (parted : Parted rest) : afterAttribute? (item ++ rest) = some rest := by
  cases isAttribute with
  | bare isName =>
    rw [afterAttribute?, name?_append isName parted.1]
    dsimp only
    split
    · next equals => exact absurd (by rw [equals]; rfl) parted.2
    · rfl
  | @valued name before behind value isName isBefore isBehind isValue =>
    have ends : ∀ c ∈ (before ++ '=' :: (behind ++ (value ++ rest))).head?,
        continuesName c = false := by
      intro c isHead
      cases before with
      | nil => cases isHead; rfl
      | cons d before =>
        cases isHead
        exact not_continuesName_of_isAsciiBlank (isBefore c List.mem_cons_self)
    simp only [List.append_assoc, List.cons_append]
    rw [afterAttribute?, name?_append isName ends]
    dsimp only
    rw [skipBlanks_append isBefore, skipBlanks_cons rfl]
    simp only
    rw [skipBlanks_append isBehind, isValue.not_blank, afterValue?_append isValue]

/-! ## Tags -/

theorem IsAttribute.begins {item : Text} (isAttribute : IsAttribute item) :
    ∃ c more, item = c :: more ∧ beginsName c = true := by
  cases isAttribute with
  | bare isName => cases isName with | intro begins _ => exact ⟨_, _, rfl, begins⟩
  | valued isName _ _ _ => cases isName with | intro begins _ => exact ⟨_, _, rfl, begins⟩

/-- Whatever goes on behind an item of a tag, it parts the item from the next one. -/
theorem parted_items {items blanks : Text} (isItems : IsItems items) (isBlank : IsBlank blanks)
    (selfClosing : Bool) (rest : Text) :
    Parted (items ++ (blanks ++ (tagMark selfClosing ++ rest))) := by
  cases isItems with
  | nil =>
    rw [List.nil_append]
    constructor
    · intro c isHead
      cases blanks with
      | nil => cases selfClosing <;> cases isHead <;> rfl
      | cons d blanks =>
        cases isHead
        exact not_continuesName_of_isAsciiBlank (isBlank c List.mem_cons_self)
    · rw [skipBlanks_append isBlank]
      cases selfClosing <;> simp [tagMark, skipBlanks, isAsciiBlank]
  | @cons before item others notEmpty isBefore isItem _ =>
    constructor
    · intro c isHead
      cases before with
      | nil => exact absurd rfl notEmpty
      | cons d before =>
        cases isHead
        exact not_continuesName_of_isAsciiBlank (isBefore c List.mem_cons_self)
    · rw [List.append_assoc, skipBlanks_append isBefore, List.append_assoc]
      rcases isItem with isAttribute | ⟨⟨_⟩⟩
      · obtain ⟨c, more, rfl, begins⟩ := isAttribute.begins
        rw [List.cons_append, skipBlanks_cons (not_isAsciiBlank_of_beginsName begins)]
        rintro same
        cases same
        exact absurd begins (by decide)
      · simp [skipBlanks, isAsciiBlank]

/-- White space in front of an item is not empty where the text does not begin with the item. -/
theorem takeWhile_ne_nil {c : Char} {more : Text} (skipped : skipBlanks s = c :: more)
    (apart : isAsciiBlank (s.headD c) = true) : s.takeWhile isAsciiBlank ≠ [] := by
  intro empty
  have parts := blanks_append_skipBlanks s
  rw [skipped, empty, List.nil_append] at parts
  have notBlank := List.head?_dropWhile_not isAsciiBlank s
  rw [show s.dropWhile isAsciiBlank = c :: more from skipped, List.head?_cons] at notBlank
  rw [← parts, List.headD_cons, notBlank] at apart
  exact Bool.false_ne_true apart

/-- The scanner either reads the mark that ends the tag or one item behind white space. -/
theorem tagEnd?_cases {selfClosing : Bool}
    (found : tagEnd? (fuel + 1) s = some (selfClosing, rest)) :
    ∃ blanks, IsBlank blanks ∧ (s = blanks ++ (tagMark selfClosing ++ rest) ∨
      blanks ≠ [] ∧ ∃ item behind, s = blanks ++ (item ++ behind) ∧
        (IsAttribute item ∨ IsGroup item) ∧ tagEnd? fuel behind = some (selfClosing, rest)) := by
  refine ⟨s.takeWhile isAsciiBlank, isBlank_takeWhile s, ?_⟩
  have parts := blanks_append_skipBlanks s
  cases skipped : skipBlanks s with
  | nil =>
    rw [tagEnd?, skipped] at found
    cases found
  | cons c more =>
    rw [tagEnd?_of_skipBlanks skipped] at found
    rw [skipped] at parts
    split at found
    · next ends =>
      cases found
      rw [beq_iff_eq.mp ends] at parts
      exact .inl parts.symm
    split at found
    · next closes =>
      split at found
      · next ends =>
        cases found
        obtain ⟨more, rfl⟩ := List.head?_eq_some_iff.mp (beq_iff_eq.mp ends)
        rw [beq_iff_eq.mp closes] at parts
        exact .inl parts.symm
      · cases found
    split at found
    · cases found
    · next apart =>
      refine .inr ⟨takeWhile_ne_nil skipped (by simpa using apart), ?_⟩
      split at found
      · next opens =>
        obtain ⟨behind, group, goesOn⟩ := Option.bind_eq_some_iff.mp found
        obtain ⟨inside, rfl, braced⟩ := afterBraces?_reads_group group
        refine ⟨_, behind, ?_, .inr (.intro braced), goesOn⟩
        rw [beq_iff_eq.mp opens] at parts
        simp only [List.append_assoc, List.cons_append, List.nil_append, parts]
      · obtain ⟨behind, read, goesOn⟩ := Option.bind_eq_some_iff.mp found
        obtain ⟨item, isText, isAttribute⟩ := afterAttribute?_reads read
        rw [isText] at parts
        exact ⟨item, behind, parts.symm, .inl isAttribute, goesOn⟩

theorem tagEnd?_reads {selfClosing : Bool} (found : tagEnd? fuel s = some (selfClosing, rest)) :
    ∃ items blanks, s = items ++ (blanks ++ (tagMark selfClosing ++ rest)) ∧
      IsItems items ∧ IsBlank blanks := by
  induction fuel generalizing s with
  | zero => cases found
  | succ fuel ih =>
    obtain ⟨before, isBefore, rfl | ⟨notEmpty, item, behind, rfl, isItem, goesOn⟩⟩ :=
      tagEnd?_cases found
    · exact ⟨[], before, rfl, .nil, isBefore⟩
    · obtain ⟨items, blanks, rfl, isItems, isBlank⟩ := ih goesOn
      refine ⟨_, blanks, ?_, .cons notEmpty isBefore isItem isItems, isBlank⟩
      simp only [List.append_assoc]

theorem tagEnd?_mark {blanks : Text} (isBlank : IsBlank blanks) (selfClosing : Bool)
    (rest : Text) :
    tagEnd? (fuel + 1) (blanks ++ (tagMark selfClosing ++ rest)) = some (selfClosing, rest) := by
  cases selfClosing with
  | false =>
    have skipped : skipBlanks (blanks ++ (tagMark false ++ rest)) = '>' :: rest :=
      skipBlanks_append isBlank _
    rw [tagEnd?_of_skipBlanks skipped]
    rfl
  | true =>
    have skipped : skipBlanks (blanks ++ (tagMark true ++ rest)) = '/' :: '>' :: rest :=
      skipBlanks_append isBlank _
    rw [tagEnd?_of_skipBlanks skipped]
    rfl

theorem tagEnd?_item {blanks item : Text} (notEmpty : blanks ≠ []) (isBlank : IsBlank blanks)
    (isItem : IsAttribute item ∨ IsGroup item) (parted : Parted rest) :
    tagEnd? (fuel + 1) (blanks ++ (item ++ rest)) = tagEnd? fuel rest := by
  have apart (c : Char) : (!isAsciiBlank ((blanks ++ (item ++ rest)).headD c)) = false := by
    cases blanks with
    | nil => exact absurd rfl notEmpty
    | cons d blanks =>
      rw [List.cons_append, List.headD_cons, isBlank d List.mem_cons_self]
      rfl
  rcases isItem with isAttribute | ⟨⟨braced⟩⟩
  · obtain ⟨c, more, rfl, begins⟩ := isAttribute.begins
    have others : c ≠ '>' ∧ c ≠ '/' ∧ c ≠ '{' := by
      refine ⟨?_, ?_, ?_⟩ <;> rintro rfl <;> exact absurd begins (by decide)
    have skipped : skipBlanks (blanks ++ (c :: more ++ rest)) = c :: (more ++ rest) := by
      rw [skipBlanks_append isBlank, List.cons_append,
        skipBlanks_cons (not_isAsciiBlank_of_beginsName begins)]
    rw [tagEnd?_of_skipBlanks skipped, if_neg (by simpa using others.1),
      if_neg (by simpa using others.2.1), apart, if_neg Bool.false_ne_true,
      if_neg (by simpa using others.2.2), ← List.cons_append,
      afterAttribute?_append isAttribute parted]
    rfl
  · next inside =>
    have skipped : skipBlanks (blanks ++ ('{' :: (inside ++ ['}']) ++ rest)) =
        '{' :: (inside ++ '}' :: rest) := by
      rw [skipBlanks_append isBlank, List.cons_append, skipBlanks_cons rfl, List.append_assoc,
        List.singleton_append]
    rw [tagEnd?_of_skipBlanks skipped, if_neg (by decide), if_neg (by decide), apart,
      if_neg Bool.false_ne_true, if_pos (by decide), afterBraces?_group braced]
    rfl

theorem tagEnd?_append {items blanks : Text} (isItems : IsItems items) (isBlank : IsBlank blanks)
    (selfClosing : Bool) (rest : Text)
    (enough : (items ++ (blanks ++ (tagMark selfClosing ++ rest))).length < fuel) :
    tagEnd? fuel (items ++ (blanks ++ (tagMark selfClosing ++ rest))) =
      some (selfClosing, rest) := by
  induction isItems generalizing fuel with
  | nil =>
    obtain ⟨fuel, rfl⟩ := Nat.exists_eq_succ_of_ne_zero (Nat.ne_zero_of_lt enough)
    exact tagEnd?_mark isBlank selfClosing rest
  | @cons before item others notEmpty isBefore isItem isItems ih =>
    obtain ⟨fuel, rfl⟩ := Nat.exists_eq_succ_of_ne_zero (Nat.ne_zero_of_lt enough)
    rw [List.append_assoc, List.append_assoc] at enough ⊢
    rw [tagEnd?_item notEmpty isBefore isItem (parted_items isItems isBlank selfClosing rest)]
    refine ih ?_
    have := List.length_pos_iff.mpr notEmpty
    simp only [List.length_append] at enough ⊢
    omega

/-- An open tag of an element is a name and what follows it up to the mark. -/
theorem openTag?_iff (context : TagContext) {name : Text} {selfClosing : Bool} :
    openTag? context ('<' :: s) = some ⟨name, selfClosing, rest⟩ ↔
      ∃ items blanks, s = name ++ (items ++ (blanks ++ (tagMark selfClosing ++ rest))) ∧
        IsMarkupName name ∧ IsItems items ∧ IsBlank blanks := by
  constructor
  · intro found
    obtain ⟨⟨read, behind⟩, named, found⟩ := Option.bind_eq_some_iff.mp found
    obtain ⟨⟨closes, left⟩, ends, made⟩ := Option.bind_eq_some_iff.mp found
    cases made
    obtain ⟨rfl, isName⟩ := name?_reads named
    obtain ⟨items, blanks, rfl, isItems, isBlank⟩ := tagEnd?_reads ends
    exact ⟨items, blanks, rfl, isName, isItems, isBlank⟩
  · rintro ⟨items, blanks, rfl, isName, isItems, isBlank⟩
    have parted := parted_items isItems isBlank selfClosing rest
    have ends := tagEnd?_append isItems isBlank selfClosing rest (Nat.lt_succ_self _)
    rw [openTag?, name?_append isName parted.1]
    simp only [Option.bind_eq_bind, Option.bind_some, ends]
    rfl

/-! ## How tags end -/

/-- The text does not end with a slash. -/
def Unslashed (s : Text) : Prop :=
  s.getLast? ≠ some '/'

theorem Unslashed.append {before : Text} (unslashed : Unslashed before) (behind : Unslashed s) :
    Unslashed (before ++ s) := by
  unfold Unslashed at *
  rw [List.getLast?_append]
  cases ends : s.getLast? with
  | none => exact unslashed
  | some c => rwa [ends] at behind

theorem unslashed_of_forall (others : ∀ c ∈ s, c ≠ '/') : Unslashed s :=
  fun ends => others '/' (List.mem_of_getLast? ends) rfl

theorem unslashed_concat {c : Char} (other : c ≠ '/') (s : Text) : Unslashed (s ++ [c]) := by
  unfold Unslashed
  rw [List.getLast?_append, List.getLast?_singleton]
  simpa using other

theorem IsBlank.unslashed {blanks : Text} (isBlank : IsBlank blanks) : Unslashed blanks := by
  refine unslashed_of_forall ?_
  rintro c member rfl
  exact absurd (isBlank _ member) (by decide)

theorem IsMarkupName.unslashed {name : Text} (isName : IsMarkupName name) : Unslashed name := by
  cases isName with
  | intro begins continues =>
    refine unslashed_of_forall ?_
    rintro c member rfl
    rcases List.mem_cons.mp member with rfl | member
    · exact absurd begins (by decide)
    · exact absurd (continues _ member) (by decide)

theorem IsGroup.unslashed (isGroup : IsGroup s) : Unslashed s := by
  cases isGroup with
  | @intro inside _ => exact unslashed_concat (c := '}') (by decide) ('{' :: inside)

theorem IsValue.unslashed (isValue : IsValue s) : Unslashed s := by
  cases isValue with
  | @string quote inside quotes _ =>
    exact unslashed_concat (by rcases quotes with rfl | rfl <;> decide) (quote :: inside)
  | group isGroup => exact isGroup.unslashed

theorem IsAttribute.unslashed (isAttribute : IsAttribute s) : Unslashed s := by
  cases isAttribute with
  | bare isName => exact isName.unslashed
  | valued isName isBefore isBehind isValue =>
    have equals : Unslashed ['='] := unslashed_concat (by decide) []
    exact isName.unslashed.append (isBefore.unslashed.append
      (equals.append (isBehind.unslashed.append isValue.unslashed)))

theorem IsItems.unslashed (isItems : IsItems s) : Unslashed s := by
  induction isItems with
  | nil => exact unslashed_of_forall (by simp)
  | cons _ isBlank isItem _ ih =>
    rcases isItem with isAttribute | isGroup
    · exact isBlank.unslashed.append (isAttribute.unslashed.append ih)
    · exact isBlank.unslashed.append (isGroup.unslashed.append ih)

/-- Tags that close themselves are those that end in `/>`. -/
theorem closes_iff {name items blanks : Text} (isName : IsMarkupName name) (isItems : IsItems items)
    (isBlank : IsBlank blanks) (selfClosing : Bool) :
    ['/', '>'] <:+ '<' :: (name ++ (items ++ (blanks ++ tagMark selfClosing))) ↔
      selfClosing = true := by
  constructor
  · rintro ⟨before, ends⟩
    cases selfClosing with
    | true => rfl
    | false =>
      have begins : Unslashed ['<'] := unslashed_concat (by decide) []
      have unslashed := begins.append (isName.unslashed.append
        (isItems.unslashed.append isBlank.unslashed))
      have parts : (before ++ ['/']) ++ ['>'] =
          (['<'] ++ (name ++ (items ++ blanks))) ++ ['>'] := by
        simpa [tagMark] using ends
      rw [← List.append_cancel_right parts] at unslashed
      exact absurd (List.getLast?_concat ..) unslashed
  · rintro rfl
    exact ⟨'<' :: (name ++ (items ++ blanks)), by simp [tagMark]⟩

/-! ## The grammar and the scanners -/

/-- The scanner takes a text that is an open tag, and it knows how the tag ends. -/
theorem openTag?_takes (context : TagContext) {name : Text} {selfClosing : Bool} :
    openTag? context ('<' :: s) = some ⟨name, selfClosing, rest⟩ ↔
      ∃ taken, '<' :: s = taken ++ rest ∧ IsOpenTag name taken ∧
        (['/', '>'] <:+ taken ↔ selfClosing = true) := by
  rw [openTag?_iff]
  constructor
  · rintro ⟨items, blanks, rfl, isName, isItems, isBlank⟩
    refine ⟨_, ?_, .intro selfClosing isName isItems isBlank,
      closes_iff isName isItems isBlank selfClosing⟩
    simp only [List.cons_append, List.append_assoc]
  · rintro ⟨_, isText, @⟨items, blanks, closes, isName, isItems, isBlank⟩, ends⟩
    have same : closes = selfClosing := by
      rw [closes_iff isName isItems isBlank closes] at ends
      exact Bool.eq_iff_iff.mpr ends
    refine ⟨items, blanks, ?_, isName, isItems, isBlank⟩
    rw [← same]
    simpa only [List.cons_append, List.append_assoc, List.cons.injEq, true_and] using isText

/-- The text begins with an open tag of the grammar. -/
def Derives (s : Text) (tag : FoundTag) : Prop :=
  tag.length ≤ s.length ∧ IsOpenTag tag.name (s.take tag.length)

theorem derives_append {taken name : Text} (isTag : IsOpenTag name taken) (rest : Text) :
    Derives (taken ++ rest) ⟨name, taken.length⟩ := by
  refine ⟨?_, ?_⟩
  · rw [List.length_append]
    exact Nat.le_add_right ..
  · rw [List.take_left]
    exact isTag

/-- What stands behind an open tag has no part in it. -/
theorem Derives.behind {tag : FoundTag} (derives : Derives s tag) (rest : Text) :
    Derives (s.take tag.length ++ rest) tag := by
  obtain ⟨inText, isTag⟩ := derives
  have whole := derives_append isTag rest
  rwa [List.length_take_of_le inText] at whole

theorem Derives.take_behind {tag : FoundTag} (derives : Derives s tag) (rest : Text) :
    (s.take tag.length ++ rest).take tag.length = s.take tag.length := by
  rw [List.take_append_of_le_length (Nat.le_of_eq (List.length_take_of_le derives.1).symm),
    List.take_take,
    Nat.min_self]

theorem Derives.length_ne_zero {tag : FoundTag} (derives : Derives s tag) : tag.length ≠ 0 := by
  obtain ⟨-, isTag⟩ := derives
  intro empty
  rw [empty, List.take_zero] at isTag
  nomatch isTag

theorem Derives.opened (context : TagContext) {tag : FoundTag} (derives : Derives ('<' :: s) tag) :
    openTag? context ('<' :: s) =
      some ⟨tag.name, decide (['/', '>'] <:+ ('<' :: s).take tag.length),
        ('<' :: s).drop tag.length⟩ :=
  (openTag?_takes context).mpr
    ⟨_, (List.take_append_drop _ _).symm, derives.2, decide_eq_true_iff.symm⟩

theorem openTag_iff_derives (context : TagContext) (s : Text) (tag : FoundTag) :
    TagGrammar.jsx.openTag context ('<' :: s) = some tag ↔ Derives ('<' :: s) tag := by
  constructor
  · intro found
    obtain ⟨⟨name, selfClosing, rest⟩, opened, rfl⟩ := Option.map_eq_some_iff.mp found
    obtain ⟨taken, isText, isTag, -⟩ := (openTag?_takes context).mp opened
    rw [isText, List.length_append, Nat.add_sub_cancel]
    exact derives_append isTag rest
  · intro derives
    refine Option.map_eq_some_iff.mpr ⟨_, derives.opened context, ?_⟩
    rw [List.length_drop, Nat.sub_sub_self derives.1]

theorem Derives.selfClosing (context : TagContext) {tag : FoundTag}
    (derives : Derives ('<' :: s) tag) :
    TagGrammar.jsx.selfClosing context ('<' :: s) =
      if ['/', '>'] <:+ ('<' :: s).take tag.length then some tag.length else none := by
  simp only [TagGrammar.jsx, derives.opened context, Option.filter_some, decide_eq_true_eq]
  split
  · rw [Option.map_some, List.length_drop, Nat.sub_sub_self derives.1]
  · rfl

end Jsx

open Jsx in
/-- JSX finds an open tag exactly where the grammar derives one. So there is at most one, it is
self-closing just if it ends in `/>`, and both answers are the same whatever stands behind it. -/
theorem jsx_derives (context : TagContext) (s : Text) :
    (∀ tag, TagGrammar.jsx.openTag context ('<' :: s) = some tag ↔ Derives ('<' :: s) tag) ∧
    (∀ tag tag', Derives ('<' :: s) tag → Derives ('<' :: s) tag' → tag = tag') ∧
    (∀ length, TagGrammar.jsx.selfClosing context ('<' :: s) = some length ↔
      ∃ name, Derives ('<' :: s) ⟨name, length⟩ ∧ ['/', '>'] <:+ ('<' :: s).take length) ∧
    (∀ tag rest, Derives ('<' :: s) tag →
      TagGrammar.jsx.openTag context (('<' :: s).take tag.length ++ rest) = some tag ∧
      TagGrammar.jsx.selfClosing context (('<' :: s).take tag.length ++ rest) =
        TagGrammar.jsx.selfClosing context ('<' :: s)) := by
  refine ⟨openTag_iff_derives context s, ?_, ?_, ?_⟩
  · intro tag tag' derives derives'
    rw [← openTag_iff_derives context] at derives derives'
    exact Option.some.inj (derives.symm.trans derives')
  · intro length
    constructor
    · intro found
      obtain ⟨tag, opened, isLength⟩ := Option.map_eq_some_iff.mp found
      have derives := (openTag_iff_derives context s ⟨tag.name, length⟩).mp
        (Option.map_eq_some_iff.mpr
          ⟨tag, (Option.filter_eq_some_iff.mp opened).1, by rw [isLength]⟩)
      refine ⟨tag.name, derives, ?_⟩
      rw [derives.selfClosing context] at found
      split at found
      · next ends => exact ends
      · cases found
    · rintro ⟨name, derives, ends⟩
      rw [derives.selfClosing context, if_pos ends]
  · intro tag rest derives
    have behind := derives.behind rest
    have same := derives.take_behind rest
    obtain ⟨length, isLength⟩ := Nat.exists_eq_succ_of_ne_zero derives.length_ne_zero
    have begins : ('<' :: s).take tag.length ++ rest = '<' :: (s.take length ++ rest) := by
      rw [isLength, List.take_succ_cons, List.cons_append]
    rw [begins] at behind same ⊢
    refine ⟨(openTag_iff_derives context _ _).mpr behind, ?_⟩
    rw [behind.selfClosing context, derives.selfClosing context, same]

open Jsx in
/-- An element that closes itself, with what stands behind it left out and put back. -/
theorem jsx_derives_element :
    Derives "<a b='c' {d}/>e".toList ⟨['a'], 14⟩ ∧
      TagGrammar.jsx.openTag .block ("<a b='c' {d}/>".toList ++ ['f']) = some ⟨['a'], 14⟩ := by
  have laws := jsx_derives .block "a b='c' {d}/>e".toList
  have derives := (laws.1 ⟨['a'], 14⟩).mp (by decide)
  exact ⟨derives, (laws.2.2.2 ⟨['a'], 14⟩ ['f'] derives).1⟩

end ComponentMarkdown
