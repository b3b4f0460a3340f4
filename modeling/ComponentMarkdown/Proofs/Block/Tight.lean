import ComponentMarkdown.Proofs.Block.Nesting

/-!
# Paragraphs that tight lists hide

Each list hides all paragraphs directly in its items or none of them, and nothing else is hidden.
The file has:

* `Block.Hides` for blocks, and `rulesKeep_hides`: every rule makes such blocks;
* `TightListsHide` for tokens that have a flag each, which says of a list whether it is tight;
* `HideByLists` for tokens that can be given such flags, which is built up from passages;
* `tightLists_parse`, the result for the tokens of a text.
-/

namespace ComponentMarkdown

/-! ## Blocks -/

/-- A block that is hidden as `hidden` says, if it is a paragraph. In a list all items hide their
own paragraphs or none does, and a quote shows its own. -/
inductive Block.Hides : Bool → Block → Prop
  | paragraph {hidden : Bool} (content : Text) (span : LineSpan) :
      Hides hidden (.paragraph content span hidden)
  | plain {hidden : Bool} {block : Block} (isPlain : block.IsPlain)
      (other : ∀ content span hidden, block ≠ .paragraph content span hidden) : Hides hidden block
  | blockquote {hidden : Bool} {body : List Block} (span : LineSpan)
      (inside : ∀ block ∈ body, Hides false block) : Hides hidden (.blockquote body span)
  | list {hidden : Bool} (number : Option Nat) (marker : Char) {items : List ListItem}
      (span : LineSpan) (tight : Bool)
      (inside : ∀ item ∈ items, ∀ block ∈ item.body, Hides tight block) :
      Hides hidden (.list number marker items span)

theorem Block.IsLeaf.hides {block : Block} (isLeaf : block.IsLeaf) : block.Hides false := by
  obtain ⟨isPlain, isShown⟩ := isLeaf
  cases block with
  | paragraph content span hidden =>
    cases isShown
    exact .paragraph content span
  | blockquote | list => exact isPlain.elim
  | heading | code | fence | hr | embedded => exact .plain trivial (by rintro _ _ _ ⟨⟩)

/-- A shown paragraph is hidden by a tight list, and what is in other blocks stays as it is. -/
theorem Block.Hides.hideParagraph {block : Block} (hides : block.Hides false) :
    block.hideParagraph.Hides true := by
  cases hides with
  | paragraph content span => exact .paragraph content span
  | plain isPlain other =>
    cases block with
    | paragraph content span hidden => exact absurd rfl (other content span hidden)
    | _ => exact .plain isPlain other
  | blockquote span inside => exact .blockquote span inside
  | list number marker span tight inside => exact .list number marker span tight inside

theorem rulesKeep_hides (md : Markdown) : RulesKeep md fun _ => Block.Hides false where
  plain notQuote notList _ matched := by
    obtain ⟨block, isLeaf, rfl⟩ := plain_runRule notQuote notList matched
    exact isLeaf.hides
  blockquote span _ inside := .blockquote span inside
  list number marker items span tight _ inside := by
    refine .list number marker span tight ?_
    cases tight with
    | false => exact inside
    | true =>
      intro item member
      obtain ⟨loose, isItem, rfl⟩ := List.mem_map.mp member
      exact ListItem.forall_tighten (fun _ => Block.Hides.hideParagraph) (inside loose isItem)

/-! ## Tokens with flags -/

/-- A token with a flag, which says of a list whether it is tight. -/
abbrev FlaggedToken := Token × Bool

/-- What is open behind a token when the tokens of `opened` are open in front of it, the innermost
one first. -/
def openPast (opened : List FlaggedToken) (flagged : FlaggedToken) : List FlaggedToken :=
  match flagged.1.nesting with
  | .opening => flagged :: opened
  | .selfClosing => opened
  | .closing => opened.tail

/-- What is open behind several tokens. -/
def openPastAll (opened tokens : List FlaggedToken) : List FlaggedToken :=
  tokens.foldl openPast opened

theorem openPastAll_cons (opened : List FlaggedToken) (token : FlaggedToken)
    (tokens : List FlaggedToken) :
    openPastAll opened (token :: tokens) = openPastAll (openPast opened token) tokens :=
  List.foldl_cons

theorem openPastAll_append (opened tokens more : List FlaggedToken) :
    openPastAll opened (tokens ++ more) = openPastAll (openPastAll opened tokens) more :=
  List.foldl_append

/-- Do these tokens open a list? -/
def TokenKind.OpensList (kind : TokenKind) : Prop :=
  kind = bulletListOpen ∨ kind = orderedListOpen

/-- Is what stands in these open tokens a direct child of an item of a tight list? -/
def InTightItem : List FlaggedToken → Prop
  | item :: list :: _ => item.1.kind = .listItemOpen ∧ list.1.kind.OpensList ∧ list.2 = true
  | _ => False

/-- A token is hidden as the lists around it say. -/
structure HiddenByLists (opened : List FlaggedToken) (token : Token)
    (behind : List FlaggedToken) : Prop where
  /-- A paragraph is hidden exactly where it is a direct child of an item of a tight list. -/
  opening : token.kind = .paragraphOpen → (token.hidden = true ↔ InTightItem opened)
  /-- Behind its text, a paragraph ends with a token that is hidden alike. -/
  answered : token.kind = .paragraphOpen → ∃ text closing more, behind = text :: closing :: more ∧
    text.1.nesting = .selfClosing ∧ closing.1.kind = .paragraphClose ∧
    closing.1.hidden = token.hidden
  closing : token.kind = .paragraphClose → ∃ opening outer, opened = opening :: outer ∧
    opening.1.kind = .paragraphOpen ∧ opening.1.hidden = token.hidden
  other : token.kind ≠ .paragraphOpen → token.kind ≠ .paragraphClose → token.hidden = false

theorem HiddenByLists.extend {opened behind : List FlaggedToken} {token : Token}
    (hidden : HiddenByLists opened token behind) (more : List FlaggedToken) :
    HiddenByLists opened token (behind ++ more) where
  opening := hidden.opening
  answered isOpening := by
    obtain ⟨text, closing, others, rfl, isAnswer⟩ := hidden.answered isOpening
    exact ⟨text, closing, others ++ more, rfl, isAnswer⟩
  closing := hidden.closing
  other := hidden.other

/-- Is this token shown, and no part of a paragraph? -/
def Token.isOther (token : Token) : Bool :=
  token.kind != .paragraphOpen && token.kind != .paragraphClose && !token.hidden

theorem Token.hiddenByLists {token : Token} (isOther : token.isOther)
    (opened behind : List FlaggedToken) : HiddenByLists opened token behind := by
  simp only [Token.isOther, Bool.and_eq_true, bne_iff_ne, Bool.not_eq_true'] at isOther
  obtain ⟨⟨notOpening, notClosing⟩, shown⟩ := isOther
  exact ⟨fun isOpening => absurd isOpening notOpening, fun isOpening => absurd isOpening notOpening,
    fun isClosing => absurd isClosing notClosing, fun _ _ => shown⟩

/-- All tokens inside those of `opened` are hidden as the lists around them say. -/
def AllHidden (opened tokens : List FlaggedToken) : Prop :=
  ∀ before token behind, tokens = before ++ token :: behind →
    HiddenByLists (openPastAll opened before) token.1 behind

section

variable {opened tokens more : List FlaggedToken} {token : FlaggedToken}

theorem allHidden_nil (opened : List FlaggedToken) : AllHidden opened [] := by
  intro before token behind split
  cases before <;> cases split

theorem AllHidden.cons (first : HiddenByLists opened token.1 tokens)
    (others : AllHidden (openPast opened token) tokens) : AllHidden opened (token :: tokens) := by
  intro before found behind split
  cases before with
  | nil =>
    cases split
    exact first
  | cons opening before =>
    cases split
    exact others before found behind rfl

theorem AllHidden.append (first : AllHidden opened tokens)
    (others : AllHidden (openPastAll opened tokens) more) : AllHidden opened (tokens ++ more) := by
  intro before found behind split
  rcases List.append_eq_append_iff.mp split with ⟨between, rfl, inMore⟩ | ⟨inFirst, rfl, rest⟩
  · rw [openPastAll_append]
    exact others between found behind inMore
  · cases inFirst with
    | nil =>
      rw [List.append_nil] at others
      exact others [] found behind rest.symm
    | cons other inFirst =>
      cases rest
      exact (first before found inFirst rfl).extend more

end

/-- Tokens inside those of `opened` are hidden as the lists around them say, and they leave open
what is open in front of them. -/
structure TightListsHide (opened tokens : List FlaggedToken) : Prop where
  leaves : openPastAll opened tokens = opened
  hidden : AllHidden opened tokens

/-- Each list among these tokens is tight or not, so that they are hidden as it says. -/
def HideByLists (opened : List FlaggedToken) (tokens : List Token) : Prop :=
  ∃ flagged : List FlaggedToken, flagged.map Prod.fst = tokens ∧ TightListsHide opened flagged

namespace HideByLists

variable {opened : List FlaggedToken} {tokens more : List Token}

theorem nil (opened : List FlaggedToken) : HideByLists opened [] :=
  ⟨[], rfl, rfl, allHidden_nil opened⟩

theorem append (first : HideByLists opened tokens) (others : HideByLists opened more) :
    HideByLists opened (tokens ++ more) := by
  obtain ⟨flagged, rfl, leaves, hidden⟩ := first
  obtain ⟨flagged', rfl, leaves', hidden'⟩ := others
  refine ⟨flagged ++ flagged', List.map_append, ?_, hidden.append (leaves.symm ▸ hidden')⟩
  rw [openPastAll_append, leaves, leaves']

/-- A shown token that is complete on its own. -/
theorem selfClosing {token : Token} (complete : token.nesting = .selfClosing)
    (isOther : token.isOther) (opened : List FlaggedToken) : HideByLists opened [token] := by
  refine ⟨[(token, false)], rfl, ?_, .cons (token.hiddenByLists isOther _ _) (allHidden_nil _)⟩
  simp [openPastAll, openPast, complete]

/-- Tokens between two that are shown. The flag is that of the opening one. -/
theorem enclosed {opening closing : Token} (tight : Bool)
    (inside : HideByLists ((opening, tight) :: opened) tokens)
    (opens : opening.nesting = .opening ∧ opening.isOther)
    (closes : closing.nesting = .closing ∧ closing.isOther) :
    HideByLists opened (opening :: tokens ++ [closing]) := by
  obtain ⟨flagged, rfl, leaves, hidden⟩ := inside
  have past : openPastAll opened ((opening, tight) :: flagged) = (opening, tight) :: opened := by
    rw [openPastAll_cons, openPast, opens.1, leaves]
  have first : AllHidden opened ((opening, tight) :: flagged) := by
    refine .cons (opening.hiddenByLists opens.2 _ _) ?_
    rw [openPast, opens.1]
    exact hidden
  have last : AllHidden ((opening, tight) :: opened) [(closing, false)] :=
    .cons (closing.hiddenByLists closes.2 _ _) (allHidden_nil _)
  refine ⟨(opening, tight) :: flagged ++ [(closing, false)], ?_, ?_,
    first.append (past.symm ▸ last)⟩
  · rw [List.map_append, List.map_cons]
    rfl
  · rw [openPastAll_append, past]
    simp [openPastAll, openPast, closes.1]

/-- A paragraph that is hidden where it is a direct child of an item of a tight list. -/
theorem paragraph {hidden : Bool} (level : Nat) (content : Text) (span : LineSpan)
    (inTightItem : hidden = true ↔ InTightItem opened) :
    HideByLists opened (Block.tokens level (.paragraph content span hidden)) := by
  refine ⟨(Block.tokens level (.paragraph content span hidden)).map (·, false), ?_, rfl, ?_⟩
  · rw [List.map_map]
    exact List.map_id _
  · refine .cons ?_ (.cons (Token.hiddenByLists rfl _ _) (.cons ?_ (allHidden_nil _)))
    · refine ⟨fun _ => inTightItem, fun _ => ⟨_, _, [], rfl, rfl, rfl, rfl⟩, ?_, ?_⟩
      · rintro ⟨⟩
      · exact fun notOpening => absurd rfl notOpening
    · refine ⟨?_, ?_, fun _ => ⟨_, opened, rfl, rfl, rfl⟩, ?_⟩
      · rintro ⟨⟩
      · rintro ⟨⟩
      · exact fun _ notClosing => absurd rfl notClosing

theorem allTokens {level : Nat} {blocks : List Block}
    (hide : ∀ block ∈ blocks, HideByLists opened (block.tokens level)) :
    HideByLists opened (Block.allTokens level blocks) := by
  induction blocks with
  | nil => exact .nil opened
  | cons block blocks ih =>
    obtain ⟨first, others⟩ := List.forall_mem_cons.mp hide
    rw [Block.allTokens]
    exact first.append (ih others)

theorem items {marker : Char} {level : Nat} {items : List ListItem}
    (hide : ∀ item ∈ items, ∀ block ∈ item.body, ∀ opening : FlaggedToken,
      opening.1.kind = .listItemOpen →
        HideByLists (opening :: opened) (block.tokens (level + 1))) :
    HideByLists opened (ListItem.allTokens marker level items) := by
  induction items with
  | nil => exact .nil opened
  | cons item items ih =>
    obtain ⟨first, others⟩ := List.forall_mem_cons.mp hide
    obtain ⟨number, blocks, span⟩ := item
    rw [ListItem.allTokens, ListItem.tokens]
    refine .append ?_ (ih others)
    exact .enclosed false (.allTokens fun block member => first block member _ rfl) ⟨rfl, rfl⟩
      ⟨rfl, rfl⟩

end HideByLists

/-- The tokens of a block whose lists are tight or not. -/
theorem Block.Hides.hideByLists {hidden : Bool} {block : Block} (hides : block.Hides hidden)
    {opened : List FlaggedToken} (inTightItem : hidden = true ↔ InTightItem opened)
    (level : Nat) : HideByLists opened (block.tokens level) := by
  induction hides generalizing opened level with
  | paragraph content span => exact .paragraph level content span inTightItem
  | @plain hidden block isPlain other =>
    cases block with
    | paragraph content span hidden => exact absurd rfl (other content span hidden)
    | heading depth content span =>
      exact .enclosed false (.selfClosing rfl rfl _) ⟨rfl, rfl⟩ ⟨rfl, rfl⟩
    | code | fence | hr | embedded => exact .selfClosing rfl rfl _
    | blockquote | list => exact isPlain.elim
  | blockquote span inside ih =>
    rw [Block.tokens]
    refine .enclosed false (.allTokens fun block member => ih block member ?_ _) ⟨rfl, rfl⟩
      ⟨rfl, rfl⟩
    cases opened <;> simp [InTightItem, blockToken]
  | list number marker span tight inside ih =>
    rw [Block.tokens]
    have kinds : (listKinds number.isSome).1.OpensList := by
      cases number.isSome with
      | false => exact .inl rfl
      | true => exact .inr rfl
    refine .enclosed tight (.items fun item member block isBlock opening isItem => ?_)
      ⟨rfl, ?_⟩ ⟨rfl, ?_⟩
    · refine ih item member block isBlock ?_ _
      simp [InTightItem, isItem, blockToken, kinds]
    · cases number <;> rfl
    · cases number <;> rfl

/-! ## Texts -/

/-- In the block tokens of a text, each list hides all paragraphs directly in its items or none of
them, and nothing else is hidden, for any grammar of tags, any transformer, any chain of block rules
and any greatest depth. A list may do so whatever the list around it does. -/
theorem tightLists_parse (md : Markdown) (rules : List BlockRule) :
    (∀ source, HideByLists []
      (BlockRun.parse { md with blockRules := ⟨rules.map BlockRule.entry⟩ } source)) ∧
    ∀ outer inner, ∃ source,
      ((BlockRun.parse { transform := .ok } source).take 8).map (fun token =>
        (token.kind, token.hidden)) =
        [(.bulletListOpen, false), (.listItemOpen, false),
          (.paragraphOpen, outer), (.inline, false), (.paragraphClose, outer),
          (.bulletListOpen, false), (.listItemOpen, false), (.paragraphOpen, inner)] := by
  refine ⟨fun source => ?_, ?_⟩
  · rw [BlockRun.parse_eq (keepsChains_entries md rules)]
    have keep := rulesKeep_hides { md with blockRules := ⟨rules.map BlockRule.entry⟩ }
    refine .allTokens fun block member => ?_
    exact (keep.parseBlocks _ _ _ _ _ block member).hideByLists (by simp [InTightItem]) 0
  · rintro (_ | _) (_ | _)
    · exact ⟨"- a\n\n  - b\n\n    c\n".toList, by decide +kernel⟩
    · exact ⟨"- a\n\n  - b\n".toList, by decide +kernel⟩
    · exact ⟨"- a\n  - b\n\n    c\n".toList, by decide +kernel⟩
    · exact ⟨"- a\n  - b\n".toList, by decide +kernel⟩

end ComponentMarkdown
