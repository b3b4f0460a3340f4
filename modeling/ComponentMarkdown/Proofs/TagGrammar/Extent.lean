import ComponentMarkdown.Proofs.Text.Runs
import ComponentMarkdown.TagGrammar.Jsx

/-!
# How far tags reach

A tag lies inside the text at the beginning of which it was found, and it is not empty. This file
proves the following.

* Each scanner of JSX leaves an end of what it was given, behind at least one character
  (`name_behind` up to `closeTag_behind`).
* Open tags are the text up to an angle bracket, or up to a brace (`openTag_ends`).
* The tags of JSX lie inside their text (`jsx_lawful`).
-/

namespace ComponentMarkdown

open Text (Behind)

/-- Every tag that a grammar finds has characters, and no more of them than the text. -/
structure TagGrammar.Lawful (grammar : TagGrammar) : Prop where
  openTag {context : TagContext} {s : Text} {tag : FoundTag} :
    grammar.openTag context s = some tag → 0 < tag.length ∧ tag.length ≤ s.length
  closeTag {context : TagContext} {s : Text} {tag : FoundTag} :
    grammar.closeTag context s = some tag → 0 < tag.length ∧ tag.length ≤ s.length
  selfClosing {context : TagContext} {s : Text} {length : Nat} :
    grammar.selfClosing context s = some length → 0 < length ∧ length ≤ s.length

namespace Jsx

theorem skipBlanks_suffix (s : Text) : skipBlanks s <:+ s :=
  List.dropWhile_suffix _

theorem name_behind {s name rest : Text} (h : name? s = some (name, rest)) : Behind rest s := by
  cases s with
  | nil => simp [name?] at h
  | cons c s =>
    simp only [name?] at h
    split at h
    · simp only [Option.some.injEq, Prod.mk.injEq] at h
      exact h.2 ▸ .cons c (List.dropWhile_suffix _)
    · exact absurd h (by simp)

mutual

theorem afterBraces_behind {depth : Nat} {s rest : Text}
    (h : afterBraces? depth s = some rest) : Behind rest s := by
  cases s with
  | nil => simp [afterBraces?] at h
  | cons c s =>
    simp only [afterBraces?] at h
    refine .cons c ?_
    split at h
    · exact (afterBraces_behind h).suffix
    · split at h
      · split at h
        · exact Option.some.inj h ▸ List.suffix_refl _
        · exact (afterBraces_behind h).suffix
      · split at h
        · exact (afterQuote_behind h).suffix
        · exact (afterBraces_behind h).suffix

theorem afterQuote_behind {depth : Nat} {quote : Char} {s rest : Text}
    (h : afterQuote? depth quote s = some rest) : Behind rest s := by
  unfold afterQuote? at h
  split at h
  · exact absurd h (by simp)
  · next escaped behind =>
    exact .cons _ ((afterQuote_behind h).suffix.trans (List.suffix_cons escaped behind))
  · next c behind _ =>
    refine .cons c ?_
    split at h
    · exact (afterBraces_behind h).suffix
    · exact (afterQuote_behind h).suffix

end

theorem afterString_behind {quote : Char} {s rest : Text} (h : afterString? quote s = some rest) :
    Behind rest s := by
  have string := List.dropWhile_suffix (l := s) (· != quote)
  simp only [afterString?] at h
  split at h
  · exact absurd h (by simp)
  · next found =>
    rw [found, Option.some.inj h] at string
    exact .of_cons_suffix string

theorem afterValue_behind {s rest : Text} (h : afterValue? s = some rest) : Behind rest s := by
  cases s with
  | nil => simp [afterValue?] at h
  | cons c s =>
    simp only [afterValue?] at h
    refine .cons c ?_
    split at h
    · exact (afterString_behind h).suffix
    · split at h
      · exact (afterBraces_behind h).suffix
      · exact absurd h (by simp)

theorem afterAttribute_behind {s rest : Text} (h : afterAttribute? s = some rest) :
    Behind rest s := by
  unfold afterAttribute? at h
  split at h
  · exact absurd h (by simp)
  · next name behind named =>
    have behindName := name_behind named
    split at h
    · next value equals =>
      have blanks := skipBlanks_suffix behind
      rw [equals] at blanks
      exact ((afterValue_behind h).trans_suffix (skipBlanks_suffix value)).trans_suffix
        ((List.suffix_cons _ _).trans (blanks.trans behindName.suffix))
    · exact Option.some.inj h ▸ behindName

/-- The end of a tag is an angle bracket. -/
theorem tagEnd_suffix {fuel : Nat} {s rest : Text} {selfClosing : Bool}
    (h : tagEnd? fuel s = some (selfClosing, rest)) : '>' :: rest <:+ s := by
  induction fuel generalizing s with
  | zero => simp [tagEnd?] at h
  | succ fuel ih =>
    have blanks := skipBlanks_suffix s
    unfold tagEnd? at h
    split at h
    · exact absurd h (by simp)
    · next found =>
      simp only [Option.some.injEq, Prod.mk.injEq] at h
      rwa [found, h.2] at blanks
    · next found =>
      rw [found] at blanks
      split at h
      · simp only [Option.some.injEq, Prod.mk.injEq] at h
        rw [h.2] at blanks
        exact (List.suffix_cons _ _).trans blanks
      · exact absurd h (by simp)
    · next c behind _ _ found =>
      rw [found] at blanks
      refine List.IsSuffix.trans ?_ blanks
      split at h
      · exact absurd h (by simp)
      · split at h
        · obtain ⟨next, group, h⟩ := Option.bind_eq_some_iff.mp h
          exact (ih h).trans (Behind.cons c (afterBraces_behind group).suffix).suffix
        · obtain ⟨next, read, h⟩ := Option.bind_eq_some_iff.mp h
          exact (ih h).trans (afterAttribute_behind read).suffix

/-- An open tag is the text up to an angle bracket, or a braced expression. -/
theorem openTag_ends {context : TagContext} {s : Text} {tag : OpenTag}
    (h : openTag? context s = some tag) :
    '>' :: tag.rest <:+ s ∨ tag.selfClosing = true ∧ Behind tag.rest s := by
  unfold openTag? at h
  split at h
  · obtain ⟨⟨name, behind⟩, named, h⟩ := Option.bind_eq_some_iff.mp h
    obtain ⟨⟨selfClosing, rest⟩, ended, made⟩ := Option.bind_eq_some_iff.mp h
    cases made
    exact .inl ((tagEnd_suffix ended).trans (Behind.cons '<' (name_behind named).suffix).suffix)
  · obtain ⟨-, -, h⟩ := Option.bind_eq_some_iff.mp h
    obtain ⟨rest, group, made⟩ := Option.bind_eq_some_iff.mp h
    cases made
    exact .inr ⟨rfl, .cons '{' (afterBraces_behind group).suffix⟩
  · exact absurd h (by simp)

theorem openTag_behind {context : TagContext} {s : Text} {tag : OpenTag}
    (h : openTag? context s = some tag) : Behind tag.rest s := by
  obtain ends | ⟨-, behind⟩ := openTag_ends h
  · exact .of_cons_suffix ends
  · exact behind

theorem closeTag_behind {s name rest : Text} (h : closeTag? s = some (name, rest)) :
    Behind rest s := by
  unfold closeTag? at h
  split at h
  · next inside =>
    obtain ⟨⟨found, more⟩, named, h⟩ := Option.bind_eq_some_iff.mp h
    have afterName := (name_behind named).suffix.trans (skipBlanks_suffix inside)
    simp only at h
    split at h
    · next closed =>
      cases h
      have mark := skipBlanks_suffix more
      rw [closed] at mark
      exact .cons '<' ((List.suffix_cons _ _).trans
        (mark.trans (afterName.trans (List.suffix_cons '/' inside))))
    · exact absurd h (by simp)
  · exact absurd h (by simp)

end Jsx

theorem TagGrammar.jsx_lawful : TagGrammar.jsx.Lawful where
  openTag := by
    intro context s tag h
    obtain ⟨found, opened, rfl⟩ := Option.map_eq_some_iff.mp h
    exact (Jsx.openTag_behind opened).taken_bounds
  closeTag := by
    intro context s tag h
    obtain ⟨⟨name, rest⟩, closed, rfl⟩ := Option.map_eq_some_iff.mp h
    exact (Jsx.closeTag_behind closed).taken_bounds
  selfClosing := by
    intro context s length h
    obtain ⟨found, opened, rfl⟩ := Option.map_eq_some_iff.mp h
    exact (Jsx.openTag_behind (Option.filter_eq_some_iff.mp opened).1).taken_bounds

end ComponentMarkdown
