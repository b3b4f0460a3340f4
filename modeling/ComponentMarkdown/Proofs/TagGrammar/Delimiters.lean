import ComponentMarkdown.Inline.Plain
import ComponentMarkdown.Proofs.TagGrammar.Extent

/-!
# How tags begin and end

A close tag begins with a character that no plain text holds, and an open tag around content ends
with one. The tags of JSX are delimited in this way (`jsx_delimited`).
-/

namespace ComponentMarkdown

/-- Close tags begin with a special character, and open tags that are not self-closing end with
one. -/
structure TagGrammar.Delimited (grammar : TagGrammar) : Prop where
  closeTag {c : Char} {s : Text} {tag : FoundTag} :
    grammar.closeTag .inline (c :: s) = some tag → isSpecial c = true
  openTag {s : Text} {tag : FoundTag} :
    grammar.openTag .inline s = some tag → grammar.selfClosing .inline s = none →
      ∃ mark, s[tag.length - 1]? = some mark ∧ isSpecial mark = true

/-- The character in front of the end of a text is the last one that was taken away. -/
theorem getElem?_of_suffix {s rest : Text} {c : Char} (ends : c :: rest <:+ s) :
    s[s.length - rest.length - 1]? = some c := by
  obtain ⟨before, rfl⟩ := ends
  have index : (before ++ c :: rest).length - rest.length - 1 = before.length := by
    simp only [List.length_append, List.length_cons]
    omega
  rw [index, List.getElem?_append_right (Nat.le_refl _), Nat.sub_self]
  rfl

theorem TagGrammar.jsx_delimited : TagGrammar.jsx.Delimited where
  closeTag := by
    intro c s tag h
    obtain ⟨⟨name, rest⟩, closed, rfl⟩ := Option.map_eq_some_iff.mp h
    unfold Jsx.closeTag? at closed
    split at closed
    · next begins =>
      cases begins
      rfl
    · exact absurd closed (by simp)
  openTag := by
    intro s tag h notClosed
    obtain ⟨found, opened, rfl⟩ := Option.map_eq_some_iff.mp h
    have opens : found.selfClosing = false := by
      simpa [TagGrammar.jsx, opened, Option.filter] using notClosed
    have ends := (Jsx.openTag_ends opened).resolve_right fun closed =>
      Bool.false_ne_true (opens.symm.trans closed.1)
    exact ⟨'>', getElem?_of_suffix ends, rfl⟩

end ComponentMarkdown
