import Mathlib.Data.List.TakeWhile
import ComponentMarkdown.Proofs.Block.Spans

/-!
# The lines of tokens

On every level, a line of a text belongs to one block at most, and on the outermost one only blank
lines belong to none. The file has:

* `LinesNest`: the lines of tokens nest as the tokens do, and those of neighbours follow each other;
* `Block.Spanned.linesNest`: so do the lines of the tokens of a block;
* `isEmpty_of_uncovered`: the lines between the blocks of a text are empty;
* `coversLines_parse`, the result.
-/

namespace ComponentMarkdown

/-! ## The lines of tokens -/

namespace Token

/-- Where both tokens have lines, those of the other one lie inside. -/
def Covers (outer inner : Token) : Prop :=
  ∀ around ∈ outer.map, ∀ span ∈ inner.map, around.1 ≤ span.1 ∧ span.2 ≤ around.2

/-- Where both tokens have lines, those of the other one come later. -/
def Precedes (earlier later : Token) : Prop :=
  ∀ span ∈ earlier.map, ∀ other ∈ later.map, span.2 ≤ other.1

/-- Is this one of the token's lines? -/
def HasLine (token : Token) (number : Nat) : Prop :=
  ∃ span ∈ token.map, span.1 ≤ number ∧ number < span.2

end Token

/-- The tokens up to the one that closes `opening` are deeper than it, and it covers their lines. -/
def EnclosesLines (opening : Token) (behind : List Token) : Prop :=
  ∃ body closing more, behind = body ++ closing :: more ∧ closing.nesting = .closing ∧
    opening.isAnsweredBy closing ∧ ∀ token ∈ body, opening.level < token.level ∧
      opening.Covers token

/-- Tokens on a level or deeper, with lines from `first` on up to `stop`. -/
structure LinesNest (level first stop : Nat) (tokens : List Token) : Prop where
  deep : ∀ token ∈ tokens, level ≤ token.level
  /-- Closing tokens have no lines of their own. -/
  mapped : ∀ token ∈ tokens, token.map = none ↔ token.nesting = .closing
  within : ∀ token ∈ tokens, ∀ span ∈ token.map,
    first ≤ span.1 ∧ span.1 < span.2 ∧ span.2 ≤ stop
  encloses : ∀ before opening behind, tokens = before ++ opening :: behind →
    opening.nesting = .opening → EnclosesLines opening behind
  /-- What comes later and is not deeper has later lines. -/
  apart : tokens.Pairwise fun earlier later =>
    later.level ≤ earlier.level → earlier.Precedes later

theorem EnclosesLines.append {opening : Token} {behind : List Token}
    (encloses : EnclosesLines opening behind) (others : List Token) :
    EnclosesLines opening (behind ++ others) := by
  obtain ⟨body, closing, more, rfl, closes⟩ := encloses
  exact ⟨body, closing, more ++ others, by rw [List.append_assoc, List.cons_append], closes⟩

/-- A token of appended lists stands in the first one or in the second. -/
theorem split_append {α : Type} {tokens more before behind : List α} {token : α}
    (split : tokens ++ more = before ++ token :: behind) :
    (∃ rest, tokens = before ++ token :: rest ∧ behind = rest ++ more) ∨
      ∃ between, before = tokens ++ between ∧ more = between ++ token :: behind := by
  rcases List.append_eq_append_iff.mp split with ⟨between, rfl, found⟩ | ⟨rest, rfl, found⟩
  · exact .inr ⟨between, rfl, found⟩
  · cases rest with
    | nil => exact .inr ⟨[], by simp, found.symm⟩
    | cons other rest =>
      obtain ⟨rfl, rfl⟩ := List.cons.inj found
      exact .inl ⟨rest, rfl, rfl⟩

theorem mem_around {opening closing token : Token} {body : List Token}
    (member : token ∈ opening :: body ++ [closing]) :
    token = opening ∨ token ∈ body ∨ token = closing := by
  simpa using member

namespace LinesNest

variable {level first middle stop : Nat} {tokens more : List Token}

theorem nil (level first stop : Nat) : LinesNest level first stop [] where
  deep := List.forall_mem_nil _
  mapped := List.forall_mem_nil _
  within := List.forall_mem_nil _
  encloses := by
    intro before opening behind split
    exact absurd split.symm (List.append_ne_nil_of_right_ne_nil _ (List.cons_ne_nil _ _))
  apart := .nil

theorem append (nest : LinesNest level first middle tokens)
    (others : LinesNest level middle stop more) (begins : first ≤ middle) (ends : middle ≤ stop) :
    LinesNest level first stop (tokens ++ more) where
  deep token member := (List.mem_append.mp member).elim (nest.deep token) (others.deep token)
  mapped token member := (List.mem_append.mp member).elim (nest.mapped token) (others.mapped token)
  within := by
    intro token member span isSpan
    rcases List.mem_append.mp member with inFirst | inOthers
    · have := nest.within token inFirst span isSpan
      omega
    · have := others.within token inOthers span isSpan
      omega
  encloses := by
    intro before opening behind split opens
    rcases split_append split with ⟨rest, rfl, rfl⟩ | ⟨between, rfl, found⟩
    · exact (nest.encloses before opening rest rfl opens).append more
    · exact others.encloses between opening behind found opens
  apart := by
    refine List.pairwise_append.mpr ⟨nest.apart, others.apart, ?_⟩
    intro earlier inFirst later inOthers _ span isSpan other isOther
    have := nest.within earlier inFirst span isSpan
    have := others.within later inOthers other isOther
    omega

theorem mono {earlier later : Nat} (nest : LinesNest level first stop tokens)
    (before : earlier ≤ first) (behind : stop ≤ later) : LinesNest level earlier later tokens :=
  { nest with
    within := by
      intro token member span isSpan
      have := nest.within token member span isSpan
      omega }

/-- A token that is complete on its own. -/
theorem selfClosing {token : Token} (complete : token.nesting = .selfClosing)
    (here : token.level = level) (lines : token.map = some (first, stop))
    (notEmpty : first < stop) : LinesNest level first stop [token] where
  deep := List.forall_mem_singleton.mpr (Nat.le_of_eq here.symm)
  mapped := by
    rintro other member
    cases List.mem_singleton.mp member
    simp [complete, lines]
  within := by
    rintro other member span isSpan
    cases List.mem_singleton.mp member
    cases lines.symm.trans isSpan
    exact ⟨Nat.le_refl _, notEmpty, Nat.le_refl _⟩
  encloses := by
    intro before opening behind split opens
    have member : opening ∈ [token] := split ▸ List.mem_append_right _ List.mem_cons_self
    cases List.mem_singleton.mp member
    rw [complete] at opens
    cases opens
  apart := List.pairwise_singleton _ _

/-- Tokens around others that are one level deeper. -/
theorem enclosed {opening closing : Token} {body : List Token}
    (nest : LinesNest (level + 1) first stop body) (notEmpty : first < stop)
    (opens : opening.nesting = .opening ∧ opening.level = level)
    (lines : opening.map = some (first, stop))
    (closes : closing.nesting = .closing ∧ closing.level = level) (noLines : closing.map = none)
    (answered : opening.kind.closing? = some closing.kind ∧ opening.tag = closing.tag) :
    LinesNest level first stop (opening :: body ++ [closing]) := by
  obtain ⟨opens, rfl⟩ := opens
  obtain ⟨closes, same⟩ := closes
  have answers : opening.isAnsweredBy closing := by
    simp [Token.isAnsweredBy, answered, same]
  have covers : ∀ token ∈ body, opening.level < token.level ∧ opening.Covers token := by
    intro token member
    refine ⟨nest.deep token member, fun around isAround span isSpan => ?_⟩
    cases lines.symm.trans isAround
    have := nest.within token member span isSpan
    exact ⟨this.1, this.2.2⟩
  constructor
  case deep =>
    intro token member
    rcases mem_around member with rfl | inside | rfl
    · exact Nat.le_refl _
    · exact Nat.le_of_lt (covers token inside).1
    · exact Nat.le_of_eq same.symm
  case mapped =>
    intro token member
    rcases mem_around member with rfl | inside | rfl
    · simp [opens, lines]
    · exact nest.mapped token inside
    · simp [closes, noLines]
  case within =>
    intro token member span isSpan
    rcases mem_around member with rfl | inside | rfl
    · cases lines.symm.trans isSpan
      exact ⟨Nat.le_refl _, notEmpty, Nat.le_refl _⟩
    · exact nest.within token inside span isSpan
    · cases noLines.symm.trans isSpan
  case encloses =>
    intro before token behind split isOpening
    cases before with
    | nil =>
      obtain ⟨rfl, rfl⟩ := List.cons.inj split
      exact ⟨body, closing, [], rfl, closes, answers, covers⟩
    | cons head before =>
      rcases split_append (List.cons.inj split).2 with ⟨rest, rfl, rfl⟩ | ⟨between, -, found⟩
      · exact (nest.encloses before token rest rfl isOpening).append [closing]
      · -- Behind the body there is just the closing token.
        have member : token ∈ [closing] := found ▸ List.mem_append_right _ List.mem_cons_self
        cases List.mem_singleton.mp member
        rw [closes] at isOpening
        cases isOpening
  case apart =>
    refine List.pairwise_cons.mpr ⟨?_, List.pairwise_append.mpr ⟨nest.apart, ?_, ?_⟩⟩
    · intro token member notDeeper
      rcases List.mem_append.mp member with inside | isLast
      · exact absurd (covers token inside).1 (Nat.not_lt_of_le notDeeper)
      · cases List.mem_singleton.mp isLast
        intro span _ other isOther
        cases noLines.symm.trans isOther
    · exact List.pairwise_singleton _ _
    · intro token _ last isLast _ span _ other isOther
      cases List.mem_singleton.mp isLast
      cases noLines.symm.trans isOther

end LinesNest

/-! ## The tokens of blocks -/

theorem linesNest_allTokens {level first stop : Nat} {blocks : List Block}
    (inOrder : InOrder first stop (blocks.map Block.span))
    (nest : ∀ block ∈ blocks, block.span.1 < block.span.2 →
      LinesNest level block.span.1 block.span.2 (block.tokens level)) :
    LinesNest level first stop (Block.allTokens level blocks) := by
  induction blocks generalizing first with
  | nil => exact .nil level first stop
  | cons block blocks ih =>
    obtain ⟨begins, notEmpty, others⟩ := inOrder
    have here := nest block List.mem_cons_self notEmpty
    have behind := ih others fun other member => nest other (List.mem_cons_of_mem _ member)
    rw [Block.allTokens]
    exact (here.append behind (by omega) others.first_le_stop).mono begins (Nat.le_refl _)

theorem linesNest_items {level first stop : Nat} {marker : Char} {items : List ListItem}
    (inOrder : InOrder first stop (items.map ListItem.span))
    (nest : ∀ item ∈ items, LinesNest (level + 1) item.span.1 item.span.2
      (Block.allTokens (level + 1) item.body)) :
    LinesNest level first stop (ListItem.allTokens marker level items) := by
  induction items generalizing first with
  | nil => exact .nil level first stop
  | cons item items ih =>
    obtain ⟨begins, notEmpty, others⟩ := inOrder
    have body := nest item List.mem_cons_self
    have behind := ih others fun other member => nest other (List.mem_cons_of_mem _ member)
    have here : LinesNest level item.span.1 item.span.2 (item.tokens marker level) := by
      obtain ⟨number, blocks, span⟩ := item
      rw [ListItem.tokens]
      exact .enclosed body notEmpty ⟨rfl, rfl⟩ rfl ⟨rfl, rfl⟩ rfl ⟨rfl, rfl⟩
    rw [ListItem.allTokens]
    exact (here.append behind (by omega) others.first_le_stop).mono begins (Nat.le_refl _)

/-- The lines of the tokens of a block whose parts follow each other. -/
theorem Block.Spanned.linesNest {block : Block} (spanned : block.Spanned)
    (notEmpty : block.span.1 < block.span.2) (level : Nat) :
    LinesNest level block.span.1 block.span.2 (block.tokens level) := by
  induction spanned generalizing level with
  | @plain block isPlain =>
    -- The text of a paragraph or a heading has the lines of the block.
    have text : ∀ content, LinesNest (level + 1) block.span.1 block.span.2
        [inlineToken (level + 1) block.span content] :=
      fun content => .selfClosing rfl rfl rfl notEmpty
    cases block with
    | paragraph content span hidden =>
      exact .enclosed (text content) notEmpty ⟨rfl, rfl⟩ rfl ⟨rfl, rfl⟩ rfl ⟨rfl, rfl⟩
    | heading depth content span =>
      exact .enclosed (text content) notEmpty ⟨rfl, rfl⟩ rfl ⟨rfl, rfl⟩ rfl ⟨rfl, rfl⟩
    | code | fence | hr | embedded => exact .selfClosing rfl rfl rfl notEmpty
    | blockquote | list => exact isPlain.elim
  | blockquote inOrder inside ih =>
    have body := linesNest_allTokens inOrder fun block member notEmpty =>
      ih block member notEmpty (level + 1)
    rw [Block.tokens]
    exact .enclosed body notEmpty ⟨rfl, rfl⟩ rfl ⟨rfl, rfl⟩ rfl ⟨rfl, rfl⟩
  | list number marker inOrder bodies inside ih =>
    have items := @linesNest_items (level + 1) _ _ marker _ inOrder fun item member =>
      linesNest_allTokens (bodies item member) fun block isBlock notEmpty =>
        ih item member block isBlock notEmpty (level + 2)
    rw [Block.tokens]
    refine .enclosed items notEmpty ⟨rfl, rfl⟩ rfl ⟨rfl, rfl⟩ rfl ⟨?_, rfl⟩
    cases number <;> rfl

/-- A block has a token on its level with its lines. -/
theorem Block.exists_token (block : Block) (level : Nat) :
    ∃ token ∈ block.tokens level, token.level = level ∧ token.map = some block.span := by
  cases block <;> exact ⟨_, List.mem_cons_self, rfl, rfl⟩

theorem Block.mem_allTokens {blocks : List Block} {block : Block} (member : block ∈ blocks)
    {level : Nat} {token : Token} (inBlock : token ∈ block.tokens level) :
    token ∈ Block.allTokens level blocks := by
  induction blocks with
  | nil => cases member
  | cons other blocks ih =>
    rw [Block.allTokens]
    rcases List.mem_cons.mp member with rfl | member
    · exact List.mem_append_left _ inBlock
    · exact List.mem_append_right _ (ih member)

/-! ## The lines between blocks -/

/-- In a scope that no line is dedented in, the lines of no block are empty. -/
theorem isEmpty_of_uncovered {md : Markdown} {scope : Scope}
    {run : Progress → Nat → Option Made}
    (makes : MakesBlocks md scope scope.lines.size run) (room : scope.level < md.maxNesting)
    (flat : ∀ number, scope.isDedented number = false) (fuel : Nat) {next : Nat}
    (enough : scope.lines.size - next < fuel) (progress : Progress) (sawEmpty : Bool) {number : Nat}
    (behind : next ≤ number) (inText : number < scope.lines.size)
    (uncovered : ∀ block ∈
      (blocksFrom md run scope scope.lines.size fuel progress next sawEmpty).1,
      ¬ (block.span.1 ≤ number ∧ number < block.span.2)) : scope.isEmpty number = true := by
  induction fuel generalizing next progress sawEmpty with
  | zero => omega
  | succ fuel ih =>
    have skipped : number < scope.skipEmpty next → scope.isEmpty number = true :=
      scope.isEmpty_of_skipEmptyUpTo _ behind
    rcases blocksFrom_cases makes (Nat.lt_of_le_of_lt behind inText) fuel progress sawEmpty with
      ⟨-, line, ends | dedented⟩ | ⟨-, -, tooDeep⟩ | made
    · exact skipped (Nat.lt_of_lt_of_le inText ends)
    · rw [flat] at dedented
      cases dedented
    · exact absurd room (Nat.not_lt_of_le tooDeep)
    · obtain ⟨block, stopped, after, tight, sawEmpty, -, takes, -, goesOn, same⟩ := made
      rw [same] at uncovered
      have here := uncovered block List.mem_cons_self
      have moved := takes.behind
      have begins := scope.le_skipEmpty next
      rw [takes.span] at here
      dsimp only at here moved
      by_cases later : after ≤ number
      · refine ih (by omega) ⟨after, tight⟩ sawEmpty later fun other member => ?_
        exact uncovered other (List.mem_cons_of_mem _ member)
      · rcases Nat.lt_or_ge number (scope.skipEmpty next) with before | _
        · exact skipped before
        · -- The line is the empty one behind the block.
          rcases goesOn with _ | ⟨_, _, empty⟩
          · omega
          · have : number = stopped.line := by omega
            exact this ▸ empty

/-! ## Lines of a text -/

theorem columns_nonneg_linesFrom (start : Nat) (texts : List Text) :
    ∀ line ∈ linesFrom start texts, 0 ≤ line.columns := by
  induction texts generalizing start with
  | nil => exact List.forall_mem_nil _
  | cons text texts ih =>
    cases texts with
    | nil =>
      rw [linesFrom]
      split
      · exact List.forall_mem_nil _
      · exact List.forall_mem_singleton.mpr (Int.natCast_nonneg _)
    | cons other texts => exact List.forall_mem_cons.mpr ⟨Int.natCast_nonneg _, ih _⟩

/-- No line of a text is dedented, nor are those behind the last one. -/
theorem isDedented_ofSource (source : Text) (number : Nat) :
    (Scope.ofSource source).isDedented number = false := by
  have columns : 0 ≤ ((Scope.ofSource source).line number).columns := by
    unfold Scope.line
    cases found : (Scope.ofSource source).lines[number]? with
    | none => exact Int.le_refl 0
    | some line =>
      obtain ⟨inText, rfl⟩ := Array.getElem?_eq_some_iff.mp found
      exact columns_nonneg_linesFrom 0 _ _ (Array.mem_toList_iff.mpr (Array.getElem_mem inText))
  exact decide_eq_false (Int.not_lt.mpr columns)

/-- A line with something other than spaces and tabs is a line of the text, with content. -/
theorem exists_linesFrom (start : Nat) {texts : List Text} {number : Nat} {text : Text}
    (found : texts[number]? = some text) (notBlank : ¬ ∀ c ∈ text, isSpaceOrTab c) :
    ∃ line, (linesFrom start texts)[number]? = some line ∧ line.isEmpty = false := by
  have content : (text.dropWhile isSpaceOrTab).isEmpty = false := by
    rw [List.isEmpty_eq_false_iff, ne_eq, List.dropWhile_eq_nil_iff]
    exact notBlank
  induction texts generalizing start number with
  | nil => cases found
  | cons first texts ih =>
    cases number with
    | succ number =>
      cases texts with
      | nil => cases found
      | cons other texts => exact ih _ found
    | zero =>
      cases found
      cases texts with
      | cons other texts => exact ⟨_, rfl, content⟩
      | nil =>
        refine ⟨Line.ofText start text false, ?_, content⟩
        cases text with
        | nil => exact absurd (List.forall_mem_nil _) notBlank
        | cons c text => rfl

theorem isSpaceOrTab_of_isEmpty {source text : Text} {number : Nat}
    (found : source.splitLines[number]? = some text)
    (empty : number < (linesOf source).length →
      (Scope.ofSource source).isEmpty number = true) : ∀ c ∈ text, isSpaceOrTab c := by
  refine Classical.byContradiction fun notBlank => ?_
  obtain ⟨line, isLine, notEmpty⟩ := exists_linesFrom 0 found notBlank
  have here : (Scope.ofSource source).line number = line := by
    show ((linesOf source).toArray[number]?).getD _ = line
    rw [List.getElem?_toArray, linesOf, isLine]
    rfl
  obtain ⟨inText, -⟩ := List.getElem?_eq_some_iff.mp isLine
  have := empty inText
  rw [Scope.isEmpty, here, notEmpty] at this
  cases this

/-! ## Texts -/

/-- Block tokens of a text: their lines nest, and just blank lines belong to no token of the
outermost level. -/
structure CoversLines (source : Text) (tokens : List Token) : Prop where
  nest : LinesNest 0 0 (linesOf source).length tokens
  blank : ∀ number text, source.splitLines[number]? = some text →
    (∀ token ∈ tokens, token.level = 0 → ¬ token.HasLine number) → ∀ c ∈ text, isSpaceOrTab c

theorem parseBlocks_of_le (md : Markdown) (depth : Nat) (scope : Scope) (progress : Progress)
    {first stop : Nat} (noLines : stop ≤ first) :
    parseBlocks md depth scope progress first stop = ([], progress) := by
  cases depth <;> exact if_pos noLines

theorem coversLines_allTokens {md : Markdown}
    (paragraphs : .paragraph ∈ md.blockChain RuleTable.mainChain) (room : 0 < md.maxNesting)
    (source : Text) : CoversLines source (Block.allTokens 0 (Block.parse md source)) := by
  generalize isScope : Scope.ofSource source = scope
  have size : scope.lines.size = (linesOf source).length := by rw [← isScope]; rfl
  have level : scope.level = 0 := by rw [← isScope]; rfl
  have parsed : Block.parse md source =
      (parseBlocks md (md.maxNesting + 1) scope {} 0 scope.lines.size).1 := by rw [← isScope]; rfl
  rcases Nat.eq_zero_or_pos scope.lines.size with noLines | hasLines
  · have noBlocks : Block.parse md source = [] := by
      rw [parsed, parseBlocks_of_le md _ scope {} (Nat.le_of_eq noLines)]
    rw [noBlocks]
    refine ⟨.nil _ _ _, fun number text found _ => isSpaceOrTab_of_isEmpty found fun inText => ?_⟩
    omega
  · have takesLines := @takesLines_parseBlocks md paragraphs
    have ⟨all, _⟩ := takesLines (md.maxNesting + 1) scope {} 0 scope.lines.size hasLines
      (Nat.le_refl _) (by omega)
    refine ⟨?_, fun number text found uncovered => isSpaceOrTab_of_isEmpty found fun inText => ?_⟩
    · have inOrder := all.inOrder.mono (Nat.le_refl 0) (Nat.le_trans all.inText (Nat.le_of_eq size))
      rw [parsed]
      exact linesNest_allTokens inOrder fun block member notEmpty =>
        (all.spanned block member).linesNest notEmpty 0
    · rw [isScope]
      have levels : md.maxNesting ≤ scope.level + (md.maxNesting + 1) := by omega
      have makes := makesBlocks_rules (takesLines md.maxNesting) paragraphs levels (Nat.le_refl _)
      refine isEmpty_of_uncovered makes (by omega) (isScope ▸ isDedented_ofSource source)
        (scope.lines.size + 1) (by omega) {} false (Nat.zero_le number) (size ▸ inText) ?_
      intro block member inBlock
      obtain ⟨token, isToken, here, lines⟩ := block.exists_token 0
      exact uncovered token (Block.mem_allTokens (parsed ▸ member) isToken) here
        ⟨block.span, lines, inBlock⟩

/-- Every rule of a table belongs to the chain of all rules. -/
theorem mem_mainChain (md : Markdown) {rules : List BlockRule} {rule : BlockRule}
    (member : rule ∈ rules) :
    rule ∈ { md with blockRules := ⟨rules.map BlockRule.entry⟩ }.blockChain
      RuleTable.mainChain := by
  refine List.mem_append_left _ ?_
  rw [if_pos (beq_self_eq_true _), List.map_map]
  exact List.mem_map.mpr ⟨rule, member, rfl⟩

/-- The block tokens of a text cover its lines, for any grammar of tags, any transformer and any
chain of block rules that makes paragraphs, as the usual one does. -/
theorem coversLines_parse (md : Markdown) (room : 1 ≤ md.maxNesting) {rules : List BlockRule}
    (paragraphs : .paragraph ∈ rules) (source : Text) :
    CoversLines source
      (BlockRun.parse { md with blockRules := ⟨rules.map BlockRule.entry⟩ } source) := by
  rw [BlockRun.parse_eq (keepsChains_entries md rules)]
  exact coversLines_allTokens (mem_mainChain md paragraphs) room source

/-- A quote around a list, an empty line and a line of blanks, and a heading. -/
theorem coversLines_parse_quote :
    let md : Markdown :=
      { transform := .ok, blockRules := ⟨BlockRule.all.map BlockRule.entry⟩ }
    let source := "> - a\n>   b\n\n \t\n# c\n".toList
    (BlockRun.parse md source).filterMap (·.map) =
        [(0, 2), (0, 2), (0, 2), (0, 2), (0, 2), (4, 5), (4, 5)] ∧
      (linesOf source).length = 5 ∧ CoversLines source (BlockRun.parse md source) :=
  ⟨by decide +kernel, by decide +kernel,
    coversLines_parse { transform := .ok } (by decide)
      (show .paragraph ∈ BlockRule.all by decide) _⟩

end ComponentMarkdown
