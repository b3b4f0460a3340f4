import ComponentMarkdown.Proofs.TagGrammar.Extent

/-!
# What the scanners for tags read

The scanners match on several characters at once. This file says what they do by the first
character alone:

* strings end at `stringEnd?`, and names are what stands in front of the rest;
* the end of a tag by the first character behind white space (`tagEnd?_of_skipBlanks`), for any
  fuel above the length of the text (`tagEnd?_congr`).
-/

namespace ComponentMarkdown

namespace Jsx

/-- What follows a string, from behind its opening quote on. -/
def stringEnd? (quote : Char) : Text → Option Text
  | [] => none
  | '\\' :: _ :: rest => stringEnd? quote rest
  | c :: rest => if c == quote then some rest else stringEnd? quote rest

theorem afterQuote?_eq (depth : Nat) (quote : Char) (s : Text) :
    afterQuote? depth quote s = (stringEnd? quote s).bind (afterBraces? depth) := by
  fun_induction stringEnd? quote s
  case case1 => rfl
  case case2 ih => rw [afterQuote?, ih]
  case case3 c rest notEscape isQuote =>
    rw [afterQuote?, if_pos isQuote]
    · rfl
    · exact notEscape
  case case4 c rest notEscape notQuote ih =>
    rw [afterQuote?, if_neg notQuote, ih]
    exact notEscape

theorem stringEnd_suffix {quote : Char} {s rest : Text} (ends : stringEnd? quote s = some rest) :
    rest <:+ s := by
  fun_induction stringEnd? quote s
  case case1 => cases ends
  case case2 c behind ih =>
    exact (ih ends).trans ((List.suffix_cons c behind).trans (List.suffix_cons _ _))
  case case3 c behind _ _ =>
    cases ends
    exact List.suffix_cons c _
  case case4 c behind _ _ ih => exact (ih ends).trans (List.suffix_cons c behind)

theorem name_append {s name rest : Text} (found : name? s = some (name, rest)) :
    s = name ++ rest := by
  cases s with
  | nil => cases found
  | cons c s =>
    rw [name?] at found
    split at found
    · cases found
      rw [List.cons_append, List.takeWhile_append_dropWhile]
    · cases found

/-- The end of a tag by the first character behind white space. -/
theorem tagEnd?_of_skipBlanks {s rest : Text} {c : Char} (blanks : skipBlanks s = c :: rest)
    (fuel : Nat) :
    tagEnd? (fuel + 1) s =
      if c == '>' then some (false, rest)
      else if c == '/' then if rest.head? == some '>' then some (true, rest.tail) else none
      else if !isAsciiBlank (s.headD c) then none
      else if c == '{' then (afterBraces? 1 rest).bind (tagEnd? fuel)
      else (afterAttribute? (c :: rest)).bind (tagEnd? fuel) := by
  rw [tagEnd?, blanks]
  by_cases ends : c = '>'
  · rw [ends]
    rfl
  rw [if_neg (by simpa using ends)]
  by_cases closes : c = '/'
  · rw [closes, if_pos (beq_self_eq_true _)]
    cases rest with
    | nil => rfl
    | cons d rest =>
      by_cases ends : d = '>'
      · rw [ends]
        rfl
      · rw [if_neg (by simpa using ends)]
        simp only
        split
        · next same => exact absurd (List.cons.inj same).1 ends
        · rfl
  · rw [if_neg (by simpa using closes)]
    split
    · next same => cases same
    · next same => exact absurd (List.cons.inj same).1 ends
    · next same => exact absurd (List.cons.inj same).1 closes
    · next same =>
      cases same
      rfl

/-- A close tag begins with an angle bracket and a slash. -/
theorem closeTag?_cases (text : Text) :
    (Text.dropPrefix? ['<', '/'] text = none ∧ closeTag? text = none) ∨
      ∃ s, text = '<' :: '/' :: s := by
  by_cases begins : ∃ s, text = '<' :: '/' :: s
  · exact .inr begins
  refine .inl ⟨?_, ?_⟩
  · cases found : Text.dropPrefix? ['<', '/'] text with
    | none => rfl
    | some rest =>
      match text with
      | [] => cases found
      | [c] =>
        rw [Text.dropPrefix?] at found
        split at found <;> cases found
      | c :: d :: s =>
        rw [Text.dropPrefix?] at found
        split at found
        · next first =>
          rw [Text.dropPrefix?] at found
          split at found
          · next second =>
            rw [← beq_iff_eq.mp first, ← beq_iff_eq.mp second] at begins
            exact absurd ⟨s, rfl⟩ begins
          · cases found
        · cases found
  · unfold closeTag?
    split
    · next s => exact absurd ⟨s, rfl⟩ begins
    · rfl

/-- A close tag is a name between white space, up to an angle bracket. -/
theorem closeTag?_eq (s : Text) :
    closeTag? ('<' :: '/' :: s) = (name? (skipBlanks s)).bind fun found =>
      if (skipBlanks found.2).head? = some '>' then some (found.1, (skipBlanks found.2).tail)
      else none := by
  refine congrArg (Option.bind (name? (skipBlanks s))) (funext fun found => ?_)
  obtain ⟨name, behind⟩ := found
  dsimp only
  cases skipBlanks behind with
  | nil => rfl
  | cons c rest =>
    by_cases ends : c = '>'
    · rw [ends]
      rfl
    · rw [if_neg (by simpa using ends)]
      split
      · next same => exact absurd (List.cons.inj same).1 ends
      · rfl

/-- A tag has no more attributes than characters. -/
theorem tagEnd?_congr {fuel fuel' : Nat} {s : Text} (enough : s.length < fuel)
    (enough' : s.length < fuel') : tagEnd? fuel s = tagEnd? fuel' s := by
  induction fuel generalizing fuel' s with
  | zero => cases enough
  | succ fuel ih =>
    obtain ⟨fuel', rfl⟩ : ∃ more, fuel' = more + 1 := ⟨fuel' - 1, by omega⟩
    cases blanks : skipBlanks s with
    | nil => rw [tagEnd?, tagEnd?, blanks]
    | cons c rest =>
      have shorter := (skipBlanks_suffix s).length_le
      rw [blanks, List.length_cons] at shorter
      rw [tagEnd?_of_skipBlanks blanks, tagEnd?_of_skipBlanks blanks]
      have group : (afterBraces? 1 rest).bind (tagEnd? fuel) =
          (afterBraces? 1 rest).bind (tagEnd? fuel') := by
        cases found : afterBraces? 1 rest with
        | none => rfl
        | some behind =>
          have shortens := (afterBraces_behind found).shorter
          exact ih (by omega) (by omega)
      have another : (afterAttribute? (c :: rest)).bind (tagEnd? fuel) =
          (afterAttribute? (c :: rest)).bind (tagEnd? fuel') := by
        cases found : afterAttribute? (c :: rest) with
        | none => rfl
        | some behind =>
          have shortens := (afterAttribute_behind found).shorter
          rw [List.length_cons] at shortens
          exact ih (by omega) (by omega)
      rw [group, another]

end Jsx

end ComponentMarkdown
