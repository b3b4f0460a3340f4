import ComponentMarkdown.Compiler
import ComponentMarkdown.Proofs.Inline.InPlace
import ComponentMarkdown.Proofs.Nesting
import Mathlib.Data.List.Chain

/-!
# Nesting of inline tokens

The tokens of a text are well nested up to the greatest depth, and text is in maximal pieces. The
file has:

* `InlineStream` for the tokens of a text, down to the labels of its images;
* `Passage` for the tokens that a piece adds somewhere in a text;
* `inlineStream_parseInline`, the result.
-/

namespace ComponentMarkdown

/-- Tokens that are not both text. -/
def Token.Apart (first second : Token) : Prop :=
  ¬ (first.kind = .text ∧ second.kind = .text)

/-- Tokens of a text: they are well nested, at most `limit` deep; no text token is empty or next to
another one; and the same holds of the label of each image. -/
inductive InlineStream (limit : Nat) : List Token → Prop
  | intro {tokens : List Token} (nested : WellNested tokens)
      (bounded : ∀ token ∈ tokens, token.level ≤ limit)
      (shown : ∀ token ∈ tokens, token.kind = .text → token.content ≠ [])
      (apart : tokens.IsChain Token.Apart)
      (labels : ∀ token ∈ tokens, token.kind = .image → InlineStream limit token.children) :
      InlineStream limit tokens

/-! ## Passages -/

/-- Tokens that enclose others are neither text nor images. -/
theorem TokenKind.not_text_of_closing? {kind closing : TokenKind}
    (answered : kind.closing? = some closing) :
    (kind ≠ .text ∧ closing ≠ .text) ∧ kind ≠ .image ∧ closing ≠ .image := by
  cases kind <;> cases answered <;> decide

/-- A token as it occurs in a text. -/
structure Token.Occurs (limit : Nat) (token : Token) : Prop where
  bounded : token.level ≤ limit
  shown : token.kind = .text → token.content ≠ []
  label : token.kind = .image → InlineStream limit token.children

/-- Tokens that stand together in a text, at a depth of `level`. -/
structure Passage (limit level : Nat) (tokens : List Token) : Prop where
  nests : NestsAt level tokens
  occurs : ∀ token ∈ tokens, token.Occurs limit
  apart : tokens.IsChain Token.Apart

/-- Text does not go on behind these tokens. -/
def EndsApart (tokens : List Token) : Prop :=
  ∀ last ∈ tokens.getLast?, last.kind ≠ .text

namespace Passage

variable {limit level : Nat} {tokens more : List Token}

theorem inlineStream (passage : Passage limit 0 tokens) : InlineStream limit tokens :=
  .intro passage.nests.wellNested (fun token member => (passage.occurs token member).bounded)
    (fun token member => (passage.occurs token member).shown) passage.apart
    fun token member => (passage.occurs token member).label

theorem nil (limit level : Nat) : Passage limit level [] :=
  ⟨nestsAt_nil level, List.forall_mem_nil _, .nil⟩

theorem append (first : Passage limit level tokens) (second : Passage limit level more)
    (between : ∀ last ∈ tokens.getLast?, ∀ next ∈ more.head?, last.Apart next) :
    Passage limit level (tokens ++ more) := by
  refine ⟨first.nests.append second.nests, fun token member => ?_, ?_⟩
  · exact (List.mem_append.mp member).elim (first.occurs token) (second.occurs token)
  · exact List.isChain_append.mpr ⟨first.apart, second.apart, between⟩

/-- A token that is complete on its own. -/
theorem selfClosing {token : Token} (complete : token.nesting = .selfClosing)
    (depth : token.level = level) (occurs : token.Occurs limit) :
    Passage limit level [token] := by
  subst depth
  refine ⟨nestsAt_selfClosing complete, fun other member => ?_, .singleton token⟩
  cases List.mem_singleton.mp member
  exact occurs

/-- Pending text makes a passage of its own. -/
theorem text (fits : level ≤ limit) (pending : Text) :
    Passage limit level (textTokens level pending) := by
  rw [textTokens]
  split
  · exact nil limit level
  · next notEmpty =>
    refine selfClosing rfl rfl ⟨fits, fun _ => by simpa using notEmpty, ?_⟩
    rintro ⟨⟩

/-- Tokens around a passage that is one level deeper. -/
theorem enclose {opening closing : Token} {body : List Token}
    (passage : Passage limit (level + 1) body) (fits : level ≤ limit)
    (answered : opening.kind.closing? = some closing.kind ∧ opening.tag = closing.tag) :
    Passage limit level (enclose level opening closing body) := by
  obtain ⟨notText, notImage⟩ := TokenKind.not_text_of_closing? answered.1
  have opens : Token.Occurs limit { opening with nesting := .opening, level } :=
    ⟨fits, fun same => absurd same notText.1, fun same => absurd same notImage.1⟩
  have closes : Token.Occurs limit { closing with nesting := .closing, level } :=
    ⟨fits, fun same => absurd same notText.2, fun same => absurd same notImage.2⟩
  refine ⟨?_, ?_, ?_⟩
  · exact @NestsAt.enclosed { opening with nesting := .opening, level }
      { closing with nesting := .closing, level } body passage.nests rfl rfl
      (by simp [Token.isAnsweredBy, answered])
  · intro token member
    simp only [ComponentMarkdown.enclose, List.cons_append, List.mem_cons, List.mem_append,
      List.not_mem_nil, or_false] at member
    obtain rfl | inside | rfl := member
    · exact opens
    · exact passage.occurs token inside
    · exact closes
  · refine List.isChain_append.mpr ⟨?_, .singleton _, fun last _ next isNext => ?_⟩
    · refine List.isChain_cons.mpr ⟨fun next _ both => notText.1 both.1, passage.apart⟩
    · cases isNext
      exact fun both => notText.2 both.2

end Passage

theorem endsApart_nil : EndsApart [] := by
  rintro last ⟨⟩

/-- Behind a last token that is not text. -/
theorem endsApart_append {tokens : List Token} {token : Token} (notText : token.kind ≠ .text) :
    EndsApart (tokens ++ [token]) := by
  intro last isLast
  rw [List.getLast?_concat] at isLast
  cases isLast
  exact notText

/-! ## Pieces -/

/-- Is this a passage that text does not go on behind? -/
def ClosedPassage (limit level : Nat) (tokens : List Token) : Prop :=
  Passage limit level tokens ∧ EndsApart tokens

variable {limit level : Nat}

/-- Pending text in front of tokens that do not begin with text. -/
theorem Passage.behindText {tokens : List Token} (passage : Passage limit level tokens)
    (fits : level ≤ limit) (begins : ∀ first ∈ tokens.head?, first.kind ≠ .text) (pending : Text) :
    Passage limit level (textTokens level pending ++ tokens) := by
  refine (Passage.text fits pending).append passage fun last _ next isNext both => ?_
  exact begins next isNext both.2

/-- A token of its own behind pending text. -/
theorem closedPassage_token {token : Token} (fits : level ≤ limit) (pending : Text)
    (complete : token.nesting = .selfClosing) (depth : token.level = level)
    (notText : token.kind ≠ .text)
    (label : token.kind = .image → InlineStream limit token.children) :
    ClosedPassage limit level (textTokens level pending ++ [token]) := by
  have occurs : token.Occurs limit := ⟨depth ▸ fits, fun same => absurd same notText, label⟩
  refine ⟨(Passage.selfClosing complete depth occurs).behindText fits ?_ pending, ?_⟩
  · intro first isFirst
    cases isFirst
    exact notText
  · exact endsApart_append notText

/-- Tokens around a body behind pending text. -/
theorem closedPassage_enclose {opening closing : Token} {body : List Token} (pending : Text)
    (passage : Passage limit (level + 1) body) (fits : level ≤ limit)
    (answered : opening.kind.closing? = some closing.kind ∧ opening.tag = closing.tag) :
    ClosedPassage limit level (textTokens level pending ++ enclose level opening closing body) := by
  obtain ⟨notText, -⟩ := TokenKind.not_text_of_closing? answered.1
  refine ⟨(passage.enclose fits answered).behindText fits ?_ pending, ?_⟩
  · intro first isFirst
    cases isFirst
    exact notText.1
  · rw [enclose, ← List.append_assoc]
    exact endsApart_append notText.2

/-- Pieces that are closed passages make a passage, with the text between and behind them. -/
theorem passage_emitAll {pieces : List Inline} (fits : level ≤ limit)
    (closed : ∀ piece ∈ pieces, ∀ pending, ClosedPassage limit level (piece.emit level pending).1)
    (pending : Text) : Passage limit level (Inline.emitAll level pending pieces) := by
  induction pieces generalizing pending with
  | nil => exact Passage.text fits pending
  | cons piece pieces ih =>
    obtain ⟨passage, ended⟩ := closed piece List.mem_cons_self pending
    have others := ih fun other member => closed other (List.mem_cons_of_mem _ member)
    exact passage.append (others _) fun last isLast _ _ both => ended last isLast both.1

/-- The body of a piece, one level deeper. -/
theorem passage_body {depth : Nat} {body : List Inline} (fits : level + (depth + 1) ≤ limit)
    (closed : ∀ piece ∈ body, ∀ {level : Nat}, level + depth ≤ limit → ∀ pending,
      ClosedPassage limit level (piece.emit level pending).1) :
    Passage limit (level + 1) (Inline.emitAll (level + 1) [] body) := by
  have deeper : level + 1 + depth ≤ limit := by omega
  refine passage_emitAll (Nat.le_of_add_right_le deeper) ?_ []
  exact fun piece member => closed piece member deeper

/-- A piece that is nested at most `depth` deep adds a closed passage. -/
theorem Inline.Within.closedPassage {depth : Nat} {piece : Inline}
    (within : piece.Within limit depth) (fits : level + depth ≤ limit) (pending : Text) :
    ClosedPassage limit level (piece.emit level pending).1 := by
  induction within generalizing level pending with
  | literal text => exact ⟨.nil limit level, endsApart_nil⟩
  | lineBreak =>
    refine closedPassage_token (by omega) _ rfl rfl ?_ ?_
    · dsimp only
      split <;> decide
    · dsimp only
      split <;> rintro ⟨⟩
  | hardBreak => refine closedPassage_token (by omega) _ rfl rfl ?_ ?_ <;> rintro ⟨⟩
  | code ticks content => refine closedPassage_token (by omega) _ rfl rfl ?_ ?_ <;> rintro ⟨⟩
  | embedded code => refine closedPassage_token (by omega) _ rfl rfl ?_ ?_ <;> rintro ⟨⟩
  | autolink href shown =>
    exact closedPassage_enclose _ (.text (by omega) _) (by omega) ⟨rfl, rfl⟩
  | emphasis marker strong inside ih =>
    have body := passage_body fits ih
    cases strong with
    | false => exact closedPassage_enclose _ body (by omega) ⟨rfl, rfl⟩
    | true => exact closedPassage_enclose _ body (by omega) ⟨rfl, rfl⟩
  | link target inside ih =>
    have body := passage_body fits ih
    exact closedPassage_enclose _ body (by omega) ⟨rfl, rfl⟩
  | image target label inside ih =>
    have body : Passage limit 0 _ :=
      passage_emitAll (Nat.zero_le _) (fun piece member => ih piece member (by omega)) []
    refine closedPassage_token (by omega) _ rfl rfl ?_ fun _ => body.inlineStream
    rintro ⟨⟩
  | element code inside ih =>
    have body := passage_body fits ih
    exact closedPassage_enclose _ body (by omega) ⟨rfl, rfl⟩

theorem inlineStream_tokens {pieces : List Inline} (within : Inline.AllWithin limit limit pieces) :
    InlineStream limit (Inline.tokens pieces) := by
  have closed := fun piece member =>
    (within piece member).closedPassage (Nat.le_of_eq (Nat.zero_add limit))
  exact (passage_emitAll (Nat.zero_le _) closed []).inlineStream

/-- The tokens of a text are a well-nested tree of maximal pieces of text, for any transformer, any
chain of inline rules and any greatest depth. -/
theorem inlineStream_parseInline {md : Markdown} (jsx : md.grammar = TagGrammar.jsx)
    (source : Text) : InlineStream md.maxNesting (md.parseInline source) := by
  have lawful : md.grammar.Lawful := jsx ▸ TagGrammar.jsx_lawful
  rw [Markdown.parseInline, Markdown.inlineTokens, InlineRun.parse_eq lawful]
  exact inlineStream_tokens (allWithin_parse lawful _)

theorem inlineStream_parseInline_image :
    let md : Markdown := { maxNesting := 2, transform := .ok }
    InlineStream md.maxNesting (md.parseInline ['a', '!', '[', '*', 'b', '*', ']', '(', 'c', ')']) ∧
      (md.parseInline ['a', '!', '[', '*', 'b', '*', ']', '(', 'c', ')']).map (·.kind) =
        [.text, .image] :=
  ⟨inlineStream_parseInline rfl _, by decide +kernel⟩

end ComponentMarkdown
