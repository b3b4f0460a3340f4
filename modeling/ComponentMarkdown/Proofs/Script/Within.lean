import Mathlib.Data.Option.Basic
import ComponentMarkdown.Proofs.Text.Runs
import ComponentMarkdown.Script

/-!
# Scanners leave an end of the text

A scanner of a script reads forward: what it leaves is an end of what it was given. Some scanners
go back to a place that they remember, so this is said of a text that both places are ends of
(`Scan.Within`). The file has:

* the ways to build scanners that stay within a text;
* gaps, words, literals and semicolons.
-/

namespace ComponentMarkdown

namespace Scan

/-- A scanner stays within a text: begun at an end of it, the scanner leaves an end of it. -/
def Within {α : Type} (t : Text) (scan : Scan α) : Prop :=
  ∀ s, s <:+ t → ∀ value rest, scan s = some (value, rest) → rest <:+ t

section

variable {α β : Type} {t : Text} {scan : Scan α}

/-- A scanner that stays within every text leaves an end of what it was given. -/
theorem suffix_of_within (within : ∀ t, scan.Within t) {s rest : Text} {value : α}
    (found : scan s = some (value, rest)) : rest <:+ s :=
  within s s (List.suffix_refl s) value rest found

@[grind →]
theorem suffix_of_cons_suffix {c : Char} {rest : Text} (inside : c :: rest <:+ t) : rest <:+ t :=
  (List.suffix_cons c rest).trans inside

theorem exists_of_bind {next : α → Scan β} {s rest : Text} {value : β}
    (found : (scan >>= next) s = some (value, rest)) :
    ∃ first between, scan s = some (first, between) ∧
      next first between = some (value, rest) := by
  obtain ⟨⟨first, between⟩, isFirst, isNext⟩ := Option.bind_eq_some_iff.mp found
  exact ⟨first, between, isFirst, isNext⟩

theorem eq_some_of_orElse {first second : Option α} {value : α}
    (found : (first <|> second) = some value) : first = some value ∨ second = some value := by
  cases first with
  | none => exact .inr found
  | some other => exact .inl found

/-! ## Steps and choices -/

@[grind ←]
theorem within_pure (value : α) : Within t (pure value : Scan α) := by
  intro s inside value rest found
  cases found
  exact inside

@[grind ←]
theorem within_failure : Within t (failure : Scan α) := by
  intro s inside value rest found
  cases found

theorem within_bind {next : α → Scan β} (first : scan.Within t)
    (later : ∀ a, (next a).Within t) : (scan >>= next).Within t := by
  intro s inside value rest found
  obtain ⟨a, between, isFirst, isNext⟩ := exists_of_bind found
  exact later a between (first s inside a between isFirst) value rest isNext

/-- Of two steps that do not stay within the text together, one does not alone. -/
@[grind →]
theorem exists_of_not_within_bind {next : α → Scan β} (leaves : ¬(scan >>= next).Within t) :
    ¬scan.Within t ∨ ∃ a, ¬(next a).Within t := by
  by_cases first : scan.Within t
  · exact .inr (Classical.not_forall.mp fun later => leaves (within_bind first later))
  · exact .inl first

/-- A step that is left out unless something holds stays within the text as the steps do. -/
theorem within_optional {p : Prop} [Decidable p] {next : α → Scan β} (value : α)
    (first : scan.Within t) (later : ∀ a, (next a).Within t) :
    Within t (if p then scan >>= next else next value) := by
  split
  · exact within_bind first later
  · exact later value

/-- What is done with the text ahead may take it for an end of the whole text. -/
@[grind ←]
theorem within_get {next : Text → Scan β} (later : ∀ s, s <:+ t → (next s).Within t) :
    (get >>= next : Scan β).Within t :=
  fun s inside value rest found => later s inside s inside value rest found

@[grind ←]
theorem within_set {s : Text} (inside : s <:+ t) : Within t (set s : Scan PUnit) := by
  intro s' _ value rest found
  cases found
  exact inside

@[grind ←]
theorem within_guard (p : Prop) [Decidable p] : Within t (guard p : Scan Unit) := by
  rw [guard]
  split
  · exact within_pure ()
  · exact within_failure

@[grind ←]
theorem within_orElse {other : Unit → Scan α} (first : scan.Within t)
    (second : (other ()).Within t) : Within t (HOrElse.hOrElse scan other) := by
  intro s inside value rest found
  have either : (scan s <|> other () s) = some (value, rest) := found
  rcases eq_some_of_orElse either with found | found
  · exact first s inside value rest found
  · exact second s inside value rest found

@[grind ←]
theorem within_map {f : α → β} (within : scan.Within t) : Within t (f <$> scan) :=
  within_bind within fun a => within_pure (f a)

@[grind ←]
theorem within_discard (within : scan.Within t) : Within t (discard scan) :=
  within_map within

@[grind ←]
theorem within_option (within : scan.Within t) : Within t scan.option :=
  within_orElse (within_map within) (within_pure none)

@[grind ←]
theorem within_test : Within t scan.test := by
  intro s inside value rest found
  cases found
  exact inside

@[grind ←]
theorem within_source (within : scan.Within t) : Within t scan.source := by
  unfold source
  grind

theorem within_forIn {items : List α} {start : β} {step : α → β → Scan (ForInStep β)}
    (within : ∀ item value, (step item value).Within t) :
    Within t (forIn items start step) := by
  induction items generalizing start with
  | nil => exact within_pure start
  | cons item items ih =>
    rw [List.forIn_cons]
    refine within_bind (within item start) fun next => ?_
    cases next with
    | done value => exact within_pure value
    | yield value => exact ih

@[grind ←]
theorem within_peek? : Within t peek? := by
  unfold peek?
  grind

@[grind ←]
theorem within_ahead (head : String) : Within t (ahead head) := by
  unfold ahead
  grind

/-! ## Repetition -/

theorem within_manyUpTo (within : scan.Within t) (fuel : Nat) : Within t (scan.manyUpTo fuel) := by
  induction fuel with
  | zero => exact within_pure []
  | succ fuel ih =>
    unfold manyUpTo
    grind

@[grind ←]
theorem within_many (within : scan.Within t) : Within t scan.many :=
  within_get fun s _ => within_manyUpTo within s.length

/-! ## Characters and fixed words -/

theorem dropPrefix?_suffix {head s rest : Text} (found : Text.dropPrefix? head s = some rest) :
    rest <:+ s := by
  rw [Text.dropPrefix?_eq_some.mp found]
  exact List.suffix_append head rest

@[grind ←]
theorem within_ofRest? {read : Text → Option Text}
    (leaves : ∀ {s rest}, read s = some rest → rest <:+ s) : Within t (ofRest? read) := by
  refine within_get fun s inside => ?_
  split
  · next found => exact within_set ((leaves found).trans inside)
  · exact within_failure

@[grind ←]
theorem within_token (head : String) : Within t (token head) :=
  within_ofRest? dropPrefix?_suffix

@[grind ←]
theorem within_one (p : Char → Bool) : Within t (one p) := by
  refine within_get fun s inside => ?_
  split
  · grind
  · exact within_failure

@[grind ←]
theorem within_span (p : Char → Bool) : Within t (span p) := by
  refine within_get fun s inside => ?_
  have behind := (List.dropWhile_suffix p).trans inside
  grind

end

end Scan

namespace Script

open Scan

variable {t : Text}

/-! ## Gaps -/

attribute [local grind =] List.suffix_cons_iff

attribute [local grind ←] List.dropWhile_suffix

@[grind →]
theorem afterBlockComment?_suffix {s rest : Text} (found : afterBlockComment? s = some rest) :
    rest <:+ s := by
  fun_induction afterBlockComment? s with
  | case1 behind =>
    cases found
    exact (List.suffix_cons _ _).trans (List.suffix_cons _ _)
  | case2 c behind _ ih => exact (ih found).trans (List.suffix_cons c behind)
  | case3 => cases found

@[grind →]
theorem afterComment?_suffix {s rest : Text} (found : afterComment? s = some rest) :
    rest <:+ s := by
  unfold afterComment? at found
  grind

@[grind →]
theorem afterHtmlComment?_suffix {s rest : Text} (found : afterHtmlComment? s = some rest) :
    rest <:+ s := by
  rw [afterHtmlComment?] at found
  have blanks := List.dropWhile_suffix (fun c => isPlainBlank c || isSeparator c) (l := s)
  split at found
  · next behind same =>
    cases found
    rw [same] at blanks
    exact ((List.dropWhile_suffix _).trans (List.suffix_append ['<', '!', '-', '-'] _)).trans blanks
  · next behind same =>
    cases found
    rw [same] at blanks
    exact ((List.dropWhile_suffix _).trans (List.suffix_append ['-', '-', '>'] _)).trans blanks
  · cases found

theorem nextComment?_suffix {place : Place} {comment : Comment} {s rest : Text}
    (found : nextComment? place s = some (comment, rest)) : rest <:+ s := by
  rw [nextComment?] at found
  split at found
  · next isHtml =>
    cases found
    split at isHtml
    · exact afterHtmlComment?_suffix isHtml
    · cases isHtml
  · obtain ⟨behind, isScript, same⟩ := Option.map_eq_some_iff.mp found
    cases same
    exact (afterComment?_suffix isScript).trans (List.dropWhile_suffix _)

theorem skipGap_suffix {place : Place} {fuel : Nat} {s : Text} :
    (skipGap place fuel s).2 <:+ s := by
  fun_induction skipGap place fuel s with
  | case1 s => exact List.dropWhile_suffix _
  | case2 fuel s => exact List.dropWhile_suffix _
  | case3 fuel s comment rest found comments behind same ih =>
    rw [same] at ih
    exact ih.trans (nextComment?_suffix found)

@[grind ←]
theorem within_gap (place : Place) : (gap place).Within t :=
  within_get fun _ inside =>
    within_bind (within_set (skipGap_suffix.trans inside)) fun _ => within_pure _

@[grind ←]
theorem within_beforeOperand : beforeOperand.Within t :=
  within_discard (within_gap .operand)

@[grind ←]
theorem within_afterOperand : afterOperand.Within t :=
  within_discard (within_gap .operator)

/-! ## Words -/

@[grind ←]
theorem within_unicodeDigits : unicodeDigits.Within t := by
  refine within_orElse (by grind) (within_bind (within_forIn fun _ _ => ?_) fun _ => within_pure _)
  grind

@[grind ←]
theorem within_wordPart (p : Char → Bool) : (wordPart p).Within t := by
  unfold wordPart
  grind

@[grind ←]
theorem within_word : word.Within t := by
  unfold word
  grind

@[grind ←]
theorem within_wordAhead? : wordAhead?.Within t := by
  unfold wordAhead?
  grind

@[grind ←]
theorem within_keyword (name : String) : (keyword name).Within t := by
  unfold keyword
  grind

@[grind ←]
theorem within_keywordAhead (name : String) : (keywordAhead name).Within t := by
  unfold keywordAhead
  grind

@[grind ←]
theorem within_dashedName : dashedName.Within t := by
  unfold dashedName
  grind

example : (dashedName "data-x = 1".toList).map (·.2) = some " = 1".toList := by decide +kernel

/-! ## Literals -/

theorem afterDigits_suffix {isDigit : Char → Bool} {s : Text} : afterDigits isDigit s <:+ s := by
  fun_induction afterDigits isDigit s <;> grind

@[grind →]
theorem afterSomeDigits?_suffix {isDigit : Char → Bool} {s rest : Text}
    (found : afterSomeDigits? isDigit s = some rest) : rest <:+ s := by
  unfold afterSomeDigits? at found
  grind [afterDigits_suffix]

@[grind →]
theorem afterExponent?_suffix {s rest : Text} (found : afterExponent? s = some rest) :
    rest <:+ s := by
  unfold afterExponent? at found
  grind [afterSomeDigits?_suffix]

@[grind →]
theorem afterInteger?_suffix {isDigit : Char → Bool} {s rest : Text}
    (found : afterInteger? isDigit s = some rest) : rest <:+ s := by
  obtain ⟨digits, isDigits, rfl⟩ := Option.map_eq_some_iff.mp found
  grind

/-- What may be read on from a text leaves an end of it. -/
theorem getD_suffix {read : Text → Option Text} {s : Text}
    (leaves : ∀ {rest}, read s = some rest → rest <:+ s) : (read s).getD s <:+ s := by
  cases found : read s with
  | none => exact List.suffix_refl s
  | some rest => exact leaves found

theorem afterFraction_suffix {s : Text} : afterFraction s <:+ s :=
  (getD_suffix afterExponent?_suffix).trans (getD_suffix afterSomeDigits?_suffix)

@[grind →]
theorem afterDecimal?_suffix {s rest : Text} (found : afterDecimal? s = some rest) :
    rest <:+ s := by
  have exponent : ∀ s, (afterExponent? s).getD s <:+ s :=
    fun s => getD_suffix afterExponent?_suffix
  unfold afterDecimal? at found
  split at found
  · next behind =>
    obtain ⟨digits, isDigits, rfl⟩ := Option.map_eq_some_iff.mp found
    grind
  · obtain ⟨digits, isDigits, found⟩ := Option.bind_eq_some_iff.mp found
    have fraction : ∀ s, afterFraction s <:+ s := fun s => afterFraction_suffix
    grind

theorem afterNumber?_suffix {s rest : Text} (found : afterNumber? s = some rest) :
    rest <:+ s := by
  rcases eq_some_of_orElse found with found | found
  · split at found <;> grind
  · exact afterDecimal?_suffix found

@[grind ←]
theorem within_number : number.Within t :=
  within_ofRest? afterNumber?_suffix

@[grind ←]
theorem within_escapeBody : escapeBody.Within t := by
  unfold escapeBody
  grind

@[grind ←]
theorem within_stringPart (quote : Char) : (stringPart quote).Within t := by
  unfold stringPart
  grind

@[grind ←]
theorem within_string (quote : Char) : (string quote).Within t := by
  unfold string
  grind

@[grind →]
theorem afterClass?_suffix {s rest : Text} (found : afterClass? s = some rest) : rest <:+ s := by
  fun_induction afterClass? s <;> grind

@[grind ←]
theorem within_patternPart : patternPart.Within t := by
  unfold patternPart
  grind

@[grind ←]
theorem within_regex : regex.Within t := by
  unfold regex
  grind

/-! ## Semicolons -/

@[grind ←]
theorem within_semicolonInserted (place : Place) : (semicolonInserted place).Within t := by
  unfold semicolonInserted
  grind

@[grind ←]
theorem within_semicolon (place : Place) : (semicolon place).Within t := by
  unfold semicolon
  grind

end Script

end ComponentMarkdown
