import ComponentMarkdown.Markdown
import ComponentMarkdown.Proofs.Nesting

/-!
# Balanced tokens

Tokens are built up of those that are complete on their own and of an opening and a closing one
around others. Rendering follows this structure. The file has:

* `flatten`, the tokens of a document in the order in which they are written;
* `Balanced`, which holds of them;
* `Token.Writable` for a token that can be written.
-/

namespace ComponentMarkdown

/-- The children of inline tokens in the place of these. -/
def flatten (tokens : List Token) : List Token :=
  tokens.flatMap fun token => if token.kind = .inline then token.children else [token]

/-- Does the transformer accept any markup? -/
def Markdown.Accepts (md : Markdown) : Prop :=
  ∃ source code, md.transform.embed? source = some code

/-- Allowed tokens, the second of which closes what the first one opens. -/
structure Token.Encloses (allowed : Token → Prop) (opening closing : Token) : Prop where
  areAllowed : allowed opening ∧ allowed closing
  opens : opening.nesting = .opening
  closes : closing.nesting = .closing
  answered : opening.kind.closing? = some closing.kind
  alike : opening.hidden = closing.hidden

/-- Allowed tokens, in which opening and closing ones answer each other. -/
inductive Balanced (allowed : Token → Prop) : List Token → Prop
  | nil : Balanced allowed []
  | append {tokens more : List Token} (first : Balanced allowed tokens)
      (second : Balanced allowed more) : Balanced allowed (tokens ++ more)
  | complete {token : Token} (isAllowed : allowed token) (alone : token.nesting = .selfClosing) :
      Balanced allowed [token]
  | enclosed {opening closing : Token} {body : List Token}
      (encloses : Token.Encloses allowed opening closing) (inside : Balanced allowed body) :
      Balanced allowed (opening :: body ++ [closing])

theorem Balanced.forall_mem {allowed : Token → Prop} {tokens : List Token}
    (balanced : Balanced allowed tokens) : ∀ token ∈ tokens, allowed token := by
  induction balanced with
  | nil => exact List.forall_mem_nil _
  | append first second ihFirst ihSecond =>
    exact List.forall_mem_append.mpr ⟨ihFirst, ihSecond⟩
  | complete isAllowed => exact List.forall_mem_singleton.mpr isAllowed
  | enclosed encloses inside ih =>
    obtain ⟨isFirst, isLast⟩ := encloses.areAllowed
    exact List.forall_mem_append.mpr
      ⟨List.forall_mem_cons.mpr ⟨isFirst, ih⟩, List.forall_mem_singleton.mpr isLast⟩

/-- Is this the name of an element? -/
def IsName (name : Text) : Prop :=
  name ≠ [] ∧ ∀ c ∈ name, c.isAlphanum

instance (name : Text) : Decidable (IsName name) :=
  decidable_of_iff (!name.isEmpty && name.all Char.isAlphanum) (by simp [IsName])

/-- Does a token of this kind stand for embedded markup? -/
def TokenKind.isEmbedded : TokenKind → Bool
  | embeddedBlock | embeddedInline => true
  | _ => false

/-- Does a token of this kind stand for an element with a name, or for its end? -/
def TokenKind.isElement : TokenKind → Bool
  | text | inline | embeddedBlock | embeddedInline => false
  | _ => true

theorem TokenKind.of_isElement {kind : TokenKind} (isElement : kind.isElement = true) :
    kind ≠ inline ∧ kind.isEmbedded = false := by
  cases kind <;> first | cases isElement; done | decide

theorem TokenKind.of_isEmbedded {kind : TokenKind} (isEmbedded : kind.isEmbedded = true) :
    kind ≠ inline ∧ kind.isElement = false := by
  cases kind <;> first | cases isEmbedded; done | decide

/-- A token that can be written on its own; embedded markup is one only if it is accepted. -/
structure Token.Writable (embeds : Prop) (token : Token) : Prop where
  notInline : token.kind ≠ .inline
  named : token.kind.isElement → IsName token.tag
  accepted : token.kind.isEmbedded → embeds
  /-- No attribute is code. -/
  textual : ∀ attr ∈ token.attrs, ∃ value, attr.2 = .text value

namespace Token

variable {embeds : Prop} {token : Token}

theorem Writable.element {kind : TokenKind} (same : token.kind = kind) (isElement : kind.isElement)
    (named : IsName token.tag) (textual : ∀ attr ∈ token.attrs, ∃ value, attr.2 = .text value) :
    token.Writable embeds := by
  obtain ⟨notInline, notEmbedded⟩ := TokenKind.of_isElement isElement
  subst same
  exact ⟨notInline, fun _ => named, by simp [notEmbedded], textual⟩

theorem Writable.text (same : token.kind = .text) (noAttributes : token.attrs = []) :
    token.Writable embeds := by
  refine ⟨?_, ?_, ?_, by simp [noAttributes]⟩ <;> rw [same] <;> rintro ⟨⟩

theorem Writable.embedded {kind : TokenKind} (same : token.kind = kind)
    (isEmbedded : kind.isEmbedded) (noAttributes : token.attrs = []) (accepted : embeds) :
    token.Writable embeds := by
  obtain ⟨notInline, notElement⟩ := TokenKind.of_isEmbedded isEmbedded
  subst same
  exact ⟨notInline, by simp [notElement], fun _ => accepted, by simp [noAttributes]⟩

theorem Writable.withLevel (writable : token.Writable embeds) (level : Nat) :
    Writable embeds { token with level } :=
  ⟨writable.notInline, writable.named, writable.accepted, writable.textual⟩

theorem Encloses.withLevels {opening closing : Token}
    (encloses : Encloses (Writable embeds) opening closing) (level behind : Nat) :
    Encloses (Writable embeds) { opening with level } { closing with level := behind } :=
  ⟨⟨encloses.areAllowed.1.withLevel _, encloses.areAllowed.2.withLevel _⟩, encloses.opens,
    encloses.closes, encloses.answered, encloses.alike⟩

end Token

end ComponentMarkdown
