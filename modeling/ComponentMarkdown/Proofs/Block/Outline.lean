import ComponentMarkdown.Proofs.Block.TokenLines

/-!
# Where paragraphs end

A paragraph ends at an empty line, at the end of the text, or where something else begins. What
something else is is a question of its open tag only, so a paragraph may begin there as well. The
file has:

* `HasContent`: what a line of a text holds behind the marks of quotes;
* `Divides`: what lies between paragraphs, and what follows each of them, as tokens say it;
* how this is put together from the tokens of parts.
-/

namespace ComponentMarkdown

/-! ## Lines behind the marks of quotes -/

/-- Behind `quotes` marks of quotes, with blanks around them, the line of the text holds
`content`. -/
def HasContent (source : Text) (quotes number : Nat) (content : Text) : Prop :=
  ∃ marks : Text, source.splitLines[number]? = some (marks ++ content) ∧
    (∀ c ∈ marks, isSpaceOrTab c = true ∨ c = '>') ∧ marks.count '>' = quotes

/-- The line begins with an open tag of the grammar. -/
def BeginsTag (md : Markdown) (source : Text) (quotes number : Nat) : Prop :=
  ∃ content, HasContent source quotes number content ∧ content.head? = some '<' ∧
    (md.grammar.openTag .block content.trim).isSome = true

/-- Between two paragraphs there are empty lines, or nothing if the second one begins with a
tag. -/
structure Apart (md : Markdown) (source : Text) (quotes stop next : Nat) : Prop where
  ordered : stop ≤ next
  blank : ∀ number, stop ≤ number → number < next → HasContent source quotes number []
  tag : stop = next → BeginsTag md source quotes next

/-! ## Tokens -/

/-- The kind and the lines of a token. -/
abbrev Outline := TokenKind × Option LineSpan

def Token.outline (token : Token) : Outline :=
  (token.kind, token.map)

/-- From within `outer` quotes, the tokens lead to within `inner` quotes. -/
def Leads (outer inner : Nat) (parts : List Outline) : Prop :=
  inner + parts.countP (·.1 == .blockquoteClose) = outer + parts.countP (·.1 == .blockquoteOpen)

theorem Leads.append {outer middle inner : Nat} {parts more : List Outline}
    (leads : Leads outer middle parts) (further : Leads middle inner more) :
    Leads outer inner (parts ++ more) := by
  unfold Leads at *
  rw [List.countP_append, List.countP_append]
  omega

variable {md : Markdown} {source : Text} {quotes inner : Nat} {pending pending' : Nat → Prop}
  {parts more : List Outline}

/-- A block begins at the line, and it is no paragraph unless the line begins with a tag. -/
def Begins (md : Markdown) (source : Text) (number : Nat) (part : Outline) : Prop :=
  part.1 ≠ .inline ∧ (∃ stop, part.2 = some (number, stop)) ∧
    (part.1 = .paragraphOpen → ∃ quotes, BeginsTag md source quotes number)

theorem begins_of_ne {kind : TokenKind} (notInline : kind ≠ .inline)
    (notParagraph : kind ≠ .paragraphOpen) (span : LineSpan) :
    Begins md source span.1 (kind, some span) :=
  ⟨notInline, ⟨span.2, rfl⟩, fun opens => absurd opens notParagraph⟩

/-- What ends with a paragraph is apart from the paragraph that `opening` begins. -/
def ApartFrom (md : Markdown) (source : Text) (quotes : Nat) (before : List Outline)
    (opening : Outline) : Prop :=
  ∃ others span next inner, before = others ++ [(.paragraphOpen, some span), (.inline, some span)] ∧
    opening.2 = some next ∧ Leads quotes inner before ∧ Apart md source inner span.2 next.1

/-- The paragraph that begins between the tokens ends at an empty line, perhaps one outside of some
of the quotes around it, or where a block begins. The line may be `pending` if it lies behind the
tokens. -/
def Ends (md : Markdown) (source : Text) (quotes : Nat) (pending : Nat → Prop)
    (before : List Outline) (opening : Outline) (behind : List Outline) : Prop :=
  ∃ span inner, opening.2 = some span ∧ quotes ≤ inner ∧ Leads quotes inner before ∧
    ((∃ marks, marks ≤ inner ∧ HasContent source marks span.2 []) ∨
      (∃ part ∈ behind, Begins md source span.2 part) ∨ pending span.2)

/-- Paragraphs are apart from each other, and each ends where it may. -/
structure Divides (md : Markdown) (source : Text) (quotes : Nat) (pending : Nat → Prop)
    (parts : List Outline) : Prop where
  balanced : Leads quotes quotes parts
  apart : ∀ before closing opening behind, parts = before ++ closing :: opening :: behind →
    closing.1 = .paragraphClose → opening.1 = .paragraphOpen →
      ApartFrom md source quotes before opening
  ends : ∀ before opening behind, parts = before ++ opening :: behind →
    opening.1 = .paragraphOpen → Ends md source quotes pending before opening behind

namespace Divides

/-- Tokens of other blocks. -/
theorem of_forall_ne (others : ∀ part ∈ parts, part.1 ≠ .paragraphOpen)
    (balanced : Leads quotes quotes parts) : Divides md source quotes pending parts where
  balanced := balanced
  apart := by
    rintro before closing opening behind rfl - opens
    exact absurd opens (others opening (by simp))
  ends := by
    rintro before opening behind rfl opens
    exact absurd opens (others opening (by simp))

theorem paragraph {span : LineSpan}
    (settled : (∃ marks, marks ≤ quotes ∧ HasContent source marks span.2 []) ∨ pending span.2) :
    Divides md source quotes pending
      [(.paragraphOpen, some span), (.inline, some span), (.paragraphClose, none)] where
  balanced := rfl
  apart := by
    intro before closing opening behind split _ opens
    -- No token but the first one opens a paragraph.
    have member : opening ∈ [(TokenKind.inline, some span), (.paragraphClose, none)] := by
      cases before with
      | nil => exact (List.cons.inj split).2 ▸ List.mem_cons_self
      | cons head before => exact (List.cons.inj split).2 ▸ by simp
    rcases List.mem_cons.mp member with rfl | member
    · cases opens
    · cases List.mem_singleton.mp member
      cases opens
  ends := by
    intro before opening behind split opens
    cases before with
    | nil =>
      obtain ⟨rfl, rfl⟩ := List.cons.inj split
      exact ⟨span, quotes, rfl, Nat.le_refl _, rfl, settled.imp_right .inr⟩
    | cons head before =>
      have member : opening ∈ [(TokenKind.inline, some span), (.paragraphClose, none)] :=
        (List.cons.inj split).2 ▸ by simp
      rcases List.mem_cons.mp member with rfl | member
      · cases opens
      · cases List.mem_singleton.mp member
        cases opens

theorem mono (divides : Divides md source quotes pending parts)
    (settled : ∀ number, pending number →
      (∃ marks, marks ≤ quotes ∧ HasContent source marks number []) ∨ pending' number) :
    Divides md source quotes pending' parts where
  balanced := divides.balanced
  apart := divides.apart
  ends := by
    intro before opening behind split opens
    obtain ⟨span, inner, isSpan, deeper, leads, ends⟩ :=
      divides.ends before opening behind split opens
    refine ⟨span, inner, isSpan, deeper, leads, ?_⟩
    rcases ends with empty | begins | isPending
    · exact .inl empty
    · exact .inr (.inl begins)
    · rcases settled span.2 isPending with ⟨marks, fewer, empty⟩ | isPending
      · exact .inl ⟨marks, Nat.le_trans fewer deeper, empty⟩
      · exact .inr (.inr isPending)

theorem append (one : Divides md source quotes pending parts)
    (two : Divides md source quotes pending' more)
    (settled : ∀ number, pending number →
      (∃ part ∈ more, Begins md source number part) ∨ pending' number)
    (joint : ∀ before closing opening behind, parts = before ++ [closing] →
      more = opening :: behind → closing.1 = .paragraphClose → opening.1 = .paragraphOpen →
        ApartFrom md source quotes before opening) :
    Divides md source quotes pending' (parts ++ more) where
  balanced := one.balanced.append two.balanced
  apart := by
    intro before closing opening behind split closes opens
    rcases split_append split with ⟨rest, inFirst, others⟩ | ⟨between, rfl, inSecond⟩
    · cases rest with
      | nil => exact joint before closing opening behind inFirst others.symm closes opens
      | cons other rest =>
        obtain ⟨rfl, -⟩ := List.cons.inj others
        exact one.apart before closing opening rest inFirst closes opens
    · obtain ⟨others, span, next, inner, isBefore, isNext, leads, apart⟩ :=
        two.apart between closing opening behind inSecond closes opens
      exact ⟨parts ++ others, span, next, inner, by rw [isBefore, List.append_assoc], isNext,
        one.balanced.append leads, apart⟩
  ends := by
    intro before opening behind split opens
    rcases split_append split with ⟨rest, inFirst, rfl⟩ | ⟨between, rfl, inSecond⟩
    · obtain ⟨span, inner, isSpan, deeper, leads, ends⟩ :=
        one.ends before opening rest inFirst opens
      refine ⟨span, inner, isSpan, deeper, leads, ?_⟩
      rcases ends with empty | ⟨part, member, begins⟩ | isPending
      · exact .inl empty
      · exact .inr (.inl ⟨part, List.mem_append_left _ member, begins⟩)
      · rcases settled span.2 isPending with ⟨part, member, begins⟩ | isPending
        · exact .inr (.inl ⟨part, List.mem_append_right _ member, begins⟩)
        · exact .inr (.inr isPending)
    · obtain ⟨span, inner, isSpan, deeper, leads, ends⟩ :=
        two.ends between opening behind inSecond opens
      exact ⟨span, inner, isSpan, deeper, one.balanced.append leads, ends⟩

/-- Tokens of a container around those of its blocks. -/
theorem enclosed (body : Divides md source inner pending parts) {opening closing : TokenKind}
    {span : LineSpan} (enters : Leads quotes inner [(opening, some span)])
    (leaves : Leads inner quotes [(closing, none)]) (deeper : quotes ≤ inner)
    (opens : opening ≠ .paragraphOpen ∧ opening ≠ .paragraphClose)
    (closes : closing ≠ .paragraphOpen) :
    Divides md source quotes pending ((opening, some span) :: parts ++ [(closing, none)]) where
  balanced := (enters.append body.balanced).append leaves
  apart := by
    intro before closing' opening' behind split isClosing isOpening
    cases before with
    | nil => exact absurd isClosing ((List.cons.inj split).1 ▸ opens.2)
    | cons head before =>
      obtain rfl : (opening, some span) = head := (List.cons.inj split).1
      have inside : parts ++ [(closing, none)] = before ++ closing' :: opening' :: behind :=
        (List.cons.inj split).2
      rcases split_append inside with ⟨rest, inBody, others⟩ | ⟨between, -, isLast⟩
      · cases rest with
        | nil => exact absurd isOpening ((List.cons.inj others).1 ▸ closes)
        | cons other rest =>
          obtain ⟨rfl, -⟩ := List.cons.inj others
          obtain ⟨others, span, next, inner, isBefore, isNext, leads, apart⟩ :=
            body.apart before closing' opening' rest inBody isClosing isOpening
          exact ⟨_ :: others, span, next, inner, congrArg (_ :: ·) isBefore, isNext,
            enters.append leads, apart⟩
      · have length := congrArg List.length isLast
        simp only [List.length_append, List.length_cons, List.length_nil] at length
        omega
  ends := by
    intro before opening' behind split isOpening
    cases before with
    | nil => exact absurd isOpening ((List.cons.inj split).1 ▸ opens.1)
    | cons head before =>
      obtain rfl : (opening, some span) = head := (List.cons.inj split).1
      have inside : parts ++ [(closing, none)] = before ++ opening' :: behind :=
        (List.cons.inj split).2
      rcases split_append inside with ⟨rest, inBody, rfl⟩ | ⟨between, -, isLast⟩
      · obtain ⟨span, deep, isSpan, more, leads, ends⟩ :=
          body.ends before opening' rest inBody isOpening
        refine ⟨span, deep, isSpan, Nat.le_trans deeper more, enters.append leads, ?_⟩
        refine ends.imp_right (.imp_left ?_)
        rintro ⟨part, member, begins⟩
        exact ⟨part, List.mem_append_left _ member, begins⟩
      · have member : opening' ∈ [(closing, none)] :=
          isLast ▸ List.mem_append_right _ List.mem_cons_self
        exact absurd isOpening (List.mem_singleton.mp member ▸ closes)

end Divides

/-! ## Containers -/

variable {level : Nat} {span : LineSpan}

theorem outline_blockquote (body : List Block) :
    ((Block.blockquote body span).tokens level).map Token.outline =
      (.blockquoteOpen, some span) :: (Block.allTokens (level + 1) body).map Token.outline ++
        [(.blockquoteClose, none)] := by
  rw [Block.tokens, encloseBlock, List.map_append]
  rfl

theorem outline_item (marker : Char) (number : Text) (body : List Block) :
    ((ListItem.mk number body span).tokens marker level).map Token.outline =
      (.listItemOpen, some span) :: (Block.allTokens (level + 1) body).map Token.outline ++
        [(.listItemClose, none)] := by
  rw [ListItem.tokens, encloseBlock, List.cons_append, adjustFirst, List.map_cons, List.map_append]
  rfl

theorem outline_list (number : Option Nat) (marker : Char) (items : List ListItem) :
    ((Block.list number marker items span).tokens level).map Token.outline =
      ((listKinds number.isSome).1, some span) ::
        (ListItem.allTokens marker (level + 1) items).map Token.outline ++
          [((listKinds number.isSome).2, none)] := by
  rw [Block.tokens, encloseBlock, List.cons_append, adjustFirst, List.map_cons, List.map_append]
  rfl

/-- The first token of a block has its lines, and it opens a paragraph only for one. -/
theorem exists_outline (block : Block) (level : Nat) :
    ∃ kind behind, (block.tokens level).map Token.outline = (kind, some block.span) :: behind ∧
      kind ≠ .inline ∧
      (kind = .paragraphOpen → ∃ text span hidden, block = .paragraph text span hidden) := by
  cases block with
  | paragraph text span hidden =>
    exact ⟨.paragraphOpen, _, rfl, by decide, fun _ => ⟨text, span, hidden, rfl⟩⟩
  | heading => exact ⟨.headingOpen, _, rfl, by decide, fun opens => by cases opens⟩
  | code => exact ⟨.codeBlock, _, rfl, by decide, fun opens => by cases opens⟩
  | fence => exact ⟨.fence, _, rfl, by decide, fun opens => by cases opens⟩
  | hr => exact ⟨.hr, _, rfl, by decide, fun opens => by cases opens⟩
  | embedded => exact ⟨.embeddedBlock, _, rfl, by decide, fun opens => by cases opens⟩
  | blockquote body span =>
    exact ⟨.blockquoteOpen, _, outline_blockquote body, by decide, fun opens => by cases opens⟩
  | list number marker items span =>
    refine ⟨_, _, outline_list number marker items, ?_⟩
    cases number.isSome <;> exact ⟨by decide, fun opens => by cases opens⟩

/-- The last token of a block closes a paragraph only for one. -/
theorem paragraph_of_closing {block : Block} {before : List Outline} {closing : Outline}
    (split : (block.tokens level).map Token.outline = before ++ [closing])
    (closes : closing.1 = .paragraphClose) :
    (∃ text span hidden, block = .paragraph text span hidden) ∧
      before = [(.paragraphOpen, some block.span), (.inline, some block.span)] := by
  have last {front : List Outline} {other : Outline}
      (isFront : front ++ [other] = before ++ [closing]) :
      other = closing ∧ front = before :=
    (List.append_inj' isFront rfl).symm.imp_left (List.cons.inj · |>.1)
  cases block with
  | paragraph text span hidden =>
    exact ⟨⟨text, span, hidden, rfl⟩, (@last [_, _] _ split).2.symm⟩
  | blockquote body span =>
    rw [outline_blockquote] at split
    cases (last split).1
    cases closes
  | list number marker items span =>
    rw [outline_list] at split
    cases (last split).1
    cases number <;> cases closes
  | heading depth text span =>
    cases (@last [_, _] _ split).1
    cases closes
  | code | fence | hr | embedded =>
    cases (@last [] _ split).1
    cases closes

namespace Divides

theorem blockquote {body : List Block}
    (inside : Divides md source (quotes + 1) pending
      ((Block.allTokens (level + 1) body).map Token.outline)) :
    Divides md source quotes pending
      (((Block.blockquote body span).tokens level).map Token.outline) := by
  rw [outline_blockquote]
  exact inside.enclosed rfl rfl (Nat.le_succ quotes) ⟨by decide, by decide⟩ (by decide)

theorem item {marker : Char} {number : Text} {body : List Block}
    (inside : Divides md source quotes pending
      ((Block.allTokens (level + 1) body).map Token.outline)) :
    Divides md source quotes pending
      (((ListItem.mk number body span).tokens marker level).map Token.outline) := by
  rw [outline_item]
  exact inside.enclosed rfl rfl (Nat.le_refl quotes) ⟨by decide, by decide⟩ (by decide)

theorem list {marker : Char} {number : Option Nat} {items : List ListItem}
    (inside : Divides md source quotes pending
      ((ListItem.allTokens marker (level + 1) items).map Token.outline)) :
    Divides md source quotes pending
      (((Block.list number marker items span).tokens level).map Token.outline) := by
  rw [outline_list]
  cases number.isSome <;>
    exact inside.enclosed rfl rfl (Nat.le_refl quotes) ⟨by decide, by decide⟩ (by decide)

end Divides

end ComponentMarkdown
