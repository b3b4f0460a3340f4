import Mathlib.Data.Option.Basic
import Mathlib.Tactic.SplitIfs
import ComponentMarkdown.Block.Parse
import ComponentMarkdown.Block.Tokens
import ComponentMarkdown.Proofs.Block.Lines

/-!
# Blocks further down

Blocks depend on what their lines say, not on where the lines stand nor on how deep the blocks are
nested. The file has:

* `Block.later`, a block some lines further down, and `Token.moved` for its tokens;
* `Scope.Mirrors`: a scope has the lines of another one further down, and is deeper than it;
* `mirrors_parseBlocks`: the same blocks are parsed there.
-/

namespace ComponentMarkdown

/-! ## Blocks and tokens -/

/-- The span `ahead` lines further down. -/
def LineSpan.later (ahead : Nat) (span : LineSpan) : LineSpan :=
  (span.1 + ahead, span.2 + ahead)

mutual

/-- The block `ahead` lines further down. -/
def Block.later (ahead : Nat) : Block → Block
  | .paragraph content span hidden => .paragraph content (LineSpan.later ahead span) hidden
  | .heading depth content span => .heading depth content (LineSpan.later ahead span)
  | .code content span => .code content (LineSpan.later ahead span)
  | .fence markup info content span => .fence markup info content (LineSpan.later ahead span)
  | .hr markup span => .hr markup (LineSpan.later ahead span)
  | .embedded call span => .embedded call (LineSpan.later ahead span)
  | .blockquote body span => .blockquote (Block.allLater ahead body) (LineSpan.later ahead span)
  | .list number marker items span =>
    .list number marker (ListItem.allLater ahead items) (LineSpan.later ahead span)

def Block.allLater (ahead : Nat) : List Block → List Block
  | [] => []
  | block :: blocks => block.later ahead :: Block.allLater ahead blocks

/-- The item `ahead` lines further down. -/
def ListItem.later (ahead : Nat) : ListItem → ListItem
  | .mk number body span => .mk number (Block.allLater ahead body) (LineSpan.later ahead span)

def ListItem.allLater (ahead : Nat) : List ListItem → List ListItem
  | [] => []
  | item :: items => item.later ahead :: ListItem.allLater ahead items

end

/-- The token `ahead` lines further down and `deeper` levels deeper. -/
def Token.moved (ahead deeper : Nat) (token : Token) : Token :=
  { token with map := token.map.map (LineSpan.later ahead), level := token.level + deeper }

variable {ahead deeper : Nat}

/-- A token that stays on its lines. -/
theorem Token.moved_zero (deeper : Nat) (token : Token) :
    token.moved 0 deeper = { token with level := token.level + deeper } := by
  unfold moved
  cases token.map <;> rfl

theorem Block.allLater_eq_map (blocks : List Block) :
    Block.allLater ahead blocks = blocks.map (Block.later ahead) := by
  induction blocks with
  | nil => rfl
  | cons block blocks ih => rw [Block.allLater, ih, List.map_cons]

theorem ListItem.allLater_eq_map (items : List ListItem) :
    ListItem.allLater ahead items = items.map (ListItem.later ahead) := by
  induction items with
  | nil => rfl
  | cons item items ih => rw [ListItem.allLater, ih, List.map_cons]

theorem Block.span_later (block : Block) :
    (block.later ahead).span = LineSpan.later ahead block.span := by
  cases block <;> rfl

theorem Block.later_hideParagraph (block : Block) :
    block.hideParagraph.later ahead = (block.later ahead).hideParagraph := by
  cases block <;> rfl

theorem ListItem.later_tighten (item : ListItem) :
    item.tighten.later ahead = (item.later ahead).tighten := by
  obtain ⟨number, body, span⟩ := item
  simp only [tighten, later, Block.allLater_eq_map, List.map_map, Function.comp_def,
    Block.later_hideParagraph]

theorem ListItem.allLater_tighten (items : List ListItem) :
    ListItem.allLater ahead (items.map (·.tighten)) =
      (ListItem.allLater ahead items).map (·.tighten) := by
  simp only [allLater_eq_map, List.map_map, Function.comp_def, later_tighten]

theorem map_moved_encloseBlock (kinds : TokenKind × TokenKind) (tag : Text) (level : Nat)
    (span : LineSpan) (markup : Text) (body : List Token) :
    (encloseBlock kinds tag level span markup body).map (Token.moved ahead deeper) =
      encloseBlock kinds tag (level + deeper) (LineSpan.later ahead span) markup
        (body.map (Token.moved ahead deeper)) := by
  unfold encloseBlock
  rw [List.map_append, List.map_cons]
  rfl

/-- What `adjust` changes has nothing to do with the place of a token. -/
theorem map_moved_adjustFirst {adjust : Token → Token}
    (commutes : ∀ token, (adjust token).moved ahead deeper = adjust (token.moved ahead deeper))
    (tokens : List Token) :
    (adjustFirst adjust tokens).map (Token.moved ahead deeper) =
      adjustFirst adjust (tokens.map (Token.moved ahead deeper)) := by
  cases tokens with
  | nil => rfl
  | cons token tokens => rw [adjustFirst, List.map_cons, List.map_cons, adjustFirst, commutes]

mutual

/-- The tokens of a block that stands elsewhere. -/
theorem Block.tokens_later (level : Nat) (block : Block) :
    (block.later ahead).tokens (level + deeper) =
      (block.tokens level).map (Token.moved ahead deeper) := by
  have deeper_succ : level + deeper + 1 = level + 1 + deeper := by omega
  cases block with
  | paragraph | heading => simp [Block.later, Block.tokens, encloseBlock, inlineToken, blockToken,
      Token.moved, deeper_succ]
  | code | fence | hr | embedded => rfl
  | blockquote body span =>
    rw [Block.later, Block.tokens, Block.tokens, map_moved_encloseBlock, deeper_succ,
      Block.allTokens_allLater]
  | list number marker items span =>
    rw [Block.later, Block.tokens, Block.tokens, map_moved_adjustFirst, map_moved_encloseBlock,
      deeper_succ, ListItem.allTokens_allLater]
    exact fun _ => rfl

theorem Block.allTokens_allLater (level : Nat) (blocks : List Block) :
    Block.allTokens (level + deeper) (Block.allLater ahead blocks) =
      (Block.allTokens level blocks).map (Token.moved ahead deeper) := by
  cases blocks with
  | nil => rfl
  | cons block blocks =>
    rw [Block.allLater, Block.allTokens, Block.allTokens, List.map_append, Block.tokens_later,
      Block.allTokens_allLater]

theorem ListItem.tokens_later (marker : Char) (level : Nat) (item : ListItem) :
    (item.later ahead).tokens marker (level + deeper) =
      (item.tokens marker level).map (Token.moved ahead deeper) := by
  have deeper_succ : level + deeper + 1 = level + 1 + deeper := by omega
  obtain ⟨number, body, span⟩ := item
  rw [ListItem.later, ListItem.tokens, ListItem.tokens, map_moved_adjustFirst,
    map_moved_encloseBlock, deeper_succ, Block.allTokens_allLater]
  exact fun _ => rfl

theorem ListItem.allTokens_allLater (marker : Char) (level : Nat) (items : List ListItem) :
    ListItem.allTokens marker (level + deeper) (ListItem.allLater ahead items) =
      (ListItem.allTokens marker level items).map (Token.moved ahead deeper) := by
  cases items with
  | nil => rfl
  | cons item items =>
    rw [ListItem.allLater, ListItem.allTokens, ListItem.allTokens, List.map_append,
      ListItem.tokens_later,
      ListItem.allTokens_allLater]

end

/-! ## Scopes -/

/-- The line without its place in the document. -/
def Line.unplaced (line : Line) : Line :=
  { line with start := 0 }

/-- The other scope has the lines of this one `ahead` lines further down, whatever else it has, and
is `deeper` levels deeper. -/
structure Scope.Mirrors (ahead deeper : Nat) (scope other : Scope) : Prop where
  size : other.lines.size = scope.lines.size + ahead
  lines : ∀ number : Nat, (other.lines[number + ahead]?).map Line.unplaced =
    (scope.lines[number]?).map Line.unplaced
  indent : other.indent = scope.indent
  /-- Only paragraphs are told apart from other parents. -/
  parent : other.parent = .paragraph ↔ scope.parent = .paragraph
  level : other.level = scope.level + deeper

/-- How far parsing has come, `ahead` lines further down. -/
def Progress.later (ahead : Nat) (progress : Progress) : Progress :=
  { progress with line := progress.line + ahead }

/-- The dialect with room for more nesting. -/
def Markdown.deepened (deeper : Nat) (md : Markdown) : Markdown :=
  { md with maxNesting := md.maxNesting + deeper }

theorem sourceOf_unplaced (indent : Nat) (keepEnd : Bool) (lines : List Line) :
    sourceOf indent keepEnd (lines.map Line.unplaced) = sourceOf indent keepEnd lines := by
  induction lines with
  | nil => rfl
  | cons line lines ih =>
    cases lines with
    | nil => rfl
    | cons next lines => exact congrArg (line.strip indent ++ line.lineFeed ++ ·) ih

namespace Scope.Mirrors

variable {scope other : Scope} (mirrors : scope.Mirrors ahead deeper other)
include mirrors

theorem line (number : Nat) :
    (other.line (number + ahead)).unplaced = (scope.line number).unplaced := by
  have same := mirrors.lines number
  unfold Scope.line
  -- The lines behind the last one are alike but for their place.
  cases here : scope.lines[number]? with
  | none =>
    rw [here, Option.map_none, Option.map_eq_none_iff] at same
    rw [same]
    rfl
  | some line =>
    rw [here, Option.map_some, Option.map_eq_some_iff] at same
    obtain ⟨line', there, same⟩ := same
    rw [there]
    exact same

theorem content (number : Nat) : other.content (number + ahead) = scope.content number :=
  (congrArg Line.content (mirrors.line number) :)

theorem columns (number : Nat) :
    (other.line (number + ahead)).columns = (scope.line number).columns :=
  (congrArg Line.columns (mirrors.line number) :)

theorem isEmpty (number : Nat) : other.isEmpty (number + ahead) = scope.isEmpty number :=
  congrArg List.isEmpty (mirrors.content number)

theorem isDedented (number : Nat) :
    other.isDedented (number + ahead) = scope.isDedented number := by
  unfold Scope.isDedented
  rw [mirrors.columns, mirrors.indent]

theorem isDeeplyIndented (number : Nat) :
    other.isDeeplyIndented (number + ahead) = scope.isDeeplyIndented number := by
  unfold Scope.isDeeplyIndented
  rw [mirrors.columns, mirrors.indent]

theorem source (first stop indent : Nat) (keepEnd : Bool) :
    other.source (first + ahead) (stop + ahead) indent keepEnd =
      scope.source first stop indent keepEnd := by
  unfold Scope.source
  rw [← sourceOf_unplaced, ← sourceOf_unplaced _ _ (List.map scope.line _), Nat.add_sub_add_right,
    Nat.add_comm first, ← List.map_add_range', List.map_map, List.map_map, List.map_map]
  congr 1
  refine List.map_congr_left fun number _ => ?_
  rw [Function.comp_apply, Function.comp_apply, Function.comp_apply, Nat.add_comm ahead,
    mirrors.line]

theorem skipEmptyUpTo {fuel number : Nat} (enough : scope.lines.size - number ≤ fuel)
    (more : Nat) : other.skipEmptyUpTo (fuel + more) (number + ahead) =
      scope.skipEmptyUpTo fuel number + ahead := by
  have goesOn : ∀ number, (decide (number + ahead < other.lines.size) &&
      other.isEmpty (number + ahead)) = (decide (number < scope.lines.size) &&
        scope.isEmpty number) := by
    intro number
    rw [mirrors.isEmpty, mirrors.size, decide_eq_decide.mpr Nat.add_lt_add_iff_right]
  induction fuel generalizing number with
  | zero =>
    -- There are no lines left, so that more fuel makes no difference.
    have ends : (decide (number < scope.lines.size) && scope.isEmpty number) = false := by
      rw [decide_eq_false (by omega), Bool.false_and]
    cases more with
    | zero => rfl
    | succ more =>
      rw [Nat.zero_add, Scope.skipEmptyUpTo, Scope.skipEmptyUpTo, goesOn, ends]
      rfl
  | succ fuel ih =>
    rw [Nat.add_right_comm, Scope.skipEmptyUpTo, Scope.skipEmptyUpTo, goesOn]
    split
    · rw [Nat.add_right_comm, ih (by omega)]
    · rfl

theorem skipEmpty (number : Nat) :
    other.skipEmpty (number + ahead) = scope.skipEmpty number + ahead := by
  rw [Scope.skipEmpty, mirrors.size]
  exact mirrors.skipEmptyUpTo (Nat.sub_le _ _) ahead

/-! ### Changes -/

theorem withParent (parent : Parent) :
    Mirrors ahead deeper { scope with parent } { other with parent } :=
  { mirrors with parent := Iff.rfl }

theorem withIndent (indent : Nat) :
    Mirrors ahead deeper { scope with indent } { other with indent } :=
  { mirrors with indent := rfl }

theorem withLevel (more : Nat) :
    Mirrors ahead deeper { scope with level := scope.level + more }
      { other with level := other.level + more } :=
  { mirrors with
    level := by
      dsimp only
      rw [mirrors.level]
      exact Nat.add_right_comm _ _ _ }

theorem setLine (number : Nat) {line line' : Line} (same : line'.unplaced = line.unplaced) :
    Mirrors ahead deeper { scope with lines := scope.lines.setIfInBounds number line }
      { other with lines := other.lines.setIfInBounds (number + ahead) line' } where
  size := by
    rw [Array.size_setIfInBounds, Array.size_setIfInBounds, mirrors.size]
  lines looked := by
    rw [Array.getElem?_setIfInBounds, Array.getElem?_setIfInBounds, mirrors.size]
    by_cases here : number = looked
    · subst here
      rw [if_pos rfl, if_pos rfl]
      by_cases inText : number < scope.lines.size
      · rw [if_pos inText, if_pos (Nat.add_lt_add_right inText ahead), Option.map_some,
          Option.map_some, same]
      · rw [if_neg inText, if_neg (by omega)]
    · rw [if_neg here, if_neg (by omega)]
      exact mirrors.lines looked
  indent := mirrors.indent
  parent := mirrors.parent
  level := mirrors.level

theorem replaceLines {first : Nat} {more more' : List Line}
    (same : more'.map Line.unplaced = more.map Line.unplaced) :
    Mirrors ahead deeper { scope with lines := replaceLines scope.lines first more }
      { other with lines := ComponentMarkdown.replaceLines other.lines (first + ahead) more' } := by
  induction more generalizing first more' scope other with
  | nil =>
    cases List.map_eq_nil_iff.mp same
    exact mirrors
  | cons line more ih =>
    obtain ⟨line', more', rfl, here, behind⟩ := List.map_eq_cons_iff.mp same
    have others := @ih _ _ (mirrors.setLine first here) (first + 1) more' behind
    rwa [Nat.add_right_comm] at others

end Scope.Mirrors

/-! ## What begins at a line -/

section

variable (md : Markdown) {scope other : Scope} (mirrors : scope.Mirrors ahead deeper other)
include mirrors

theorem mirrors_hr? (first : Nat) :
    hr? other (first + ahead) = (hr? scope first).map (Block.later ahead) := by
  unfold hr?
  rw [mirrors.isDeeplyIndented, mirrors.content, Nat.add_right_comm]
  cases scope.isDeeplyIndented first with
  | true => rfl
  | false => cases breakMarks? (scope.content first) <;> rfl

theorem mirrors_heading? (first : Nat) :
    heading? other (first + ahead) = (heading? scope first).map (Block.later ahead) := by
  unfold heading?
  rw [mirrors.isDeeplyIndented, mirrors.content, Nat.add_right_comm]
  cases scope.isDeeplyIndented first with
  | true => rfl
  | false => cases headingDepth? (scope.content first) <;> rfl

theorem mirrors_openTagAt? (number : Nat) :
    openTagAt? (md.deepened deeper) other (number + ahead) = openTagAt? md scope number := by
  unfold openTagAt?
  rw [mirrors.content]
  rfl

theorem mirrors_opens (rule : BlockRule) (number : Nat) :
    rule.opens (md.deepened deeper) other (number + ahead) = rule.opens md scope number := by
  cases rule with
  | code => exact mirrors.isDeeplyIndented number
  | fence => rw [BlockRule.opens, mirrors.isDeeplyIndented, mirrors.content, BlockRule.opens]
  | blockquote =>
    unfold BlockRule.opens opensBlockquote
    rw [mirrors.isDeeplyIndented, mirrors.content]
  | hr => rw [BlockRule.opens, mirrors_hr? mirrors, Option.isSome_map, BlockRule.opens]
  | list =>
    unfold BlockRule.opens opensList
    rw [mirrors.isDeeplyIndented, mirrors.content, mirrors.isDedented,
      decide_eq_decide.mpr (not_congr mirrors.parent)]
  | embedded => rw [BlockRule.opens, mirrors_openTagAt? md mirrors, BlockRule.opens]
  | heading => rw [BlockRule.opens, mirrors.isDeeplyIndented, mirrors.content, BlockRule.opens]
  | paragraph => rfl

theorem mirrors_endsAt (chain : String) (number : Nat) :
    endsAt (md.deepened deeper) chain other (number + ahead) = endsAt md chain scope number := by
  unfold endsAt
  simp only [mirrors_opens md mirrors]
  rfl

/-! ## Blocks without blocks in them -/

theorem mirrors_codeEnd (stop fuel next last : Nat) :
    codeEnd other (stop + ahead) fuel (next + ahead) (last + ahead) =
      codeEnd scope stop fuel next last + ahead := by
  induction fuel generalizing next last with
  | zero => rfl
  | succ fuel ih =>
    unfold codeEnd
    simp only [Nat.add_le_add_iff_right, mirrors.isEmpty, mirrors.isDeeplyIndented,
      Nat.add_right_comm _ ahead 1, ih]
    split_ifs <;> rfl

theorem mirrors_indentedCode? (first stop : Nat) :
    indentedCode? other (first + ahead) (stop + ahead) =
      (indentedCode? scope first stop).map (Block.later ahead) := by
  unfold indentedCode?
  dsimp only
  rw [mirrors.isDeeplyIndented, Nat.add_right_comm first, Nat.add_sub_add_right,
    mirrors_codeEnd mirrors, mirrors.source, mirrors.indent]
  cases scope.isDeeplyIndented first <;> rfl

theorem mirrors_fenceEnd (mark : Char) (length stop fuel next : Nat) :
    fenceEnd other mark length (stop + ahead) fuel (next + ahead) =
      ((fenceEnd scope mark length stop fuel next).1 + ahead,
        (fenceEnd scope mark length stop fuel next).2) := by
  induction fuel generalizing next with
  | zero => rfl
  | succ fuel ih =>
    unfold fenceEnd
    simp only [Nat.add_le_add_iff_right, mirrors.isEmpty, mirrors.isDedented,
      mirrors.isDeeplyIndented, mirrors.content, Nat.add_right_comm _ ahead 1, ih]
    split_ifs <;> rfl

theorem mirrors_fence? (first stop : Nat) :
    fence? other (first + ahead) (stop + ahead) =
      (fence? scope first stop).map (Block.later ahead) := by
  unfold fence?
  rw [mirrors.isDeeplyIndented, mirrors.content, mirrors.columns, Nat.add_right_comm first,
    Nat.add_sub_add_right]
  cases scope.isDeeplyIndented first with
  | true => rfl
  | false =>
    cases fenceOpening? (scope.content first) with
    | none => rfl
    | some opening =>
      obtain ⟨mark, length, info⟩ := opening
      simp only [mirrors_fenceEnd mirrors, mirrors.source]
      have behind : ∀ found : Nat × Bool,
          (if found.2 then found.1 + ahead + 1 else found.1 + ahead) =
            (if found.2 then found.1 + 1 else found.1) + ahead := by
        intro found
        split
        · exact Nat.add_right_comm _ _ _
        · rfl
      exact congrArg (fun line => some (Block.fence _ _ _ (first + ahead, line))) (behind _)

theorem mirrors_paragraphEnd (stop fuel next : Nat) :
    paragraphEnd (md.deepened deeper) other (stop + ahead) fuel (next + ahead) =
      paragraphEnd md scope stop fuel next + ahead := by
  have ends := mirrors_endsAt md (mirrors.withParent .paragraph) "paragraph"
  induction fuel generalizing next with
  | zero => rfl
  | succ fuel ih =>
    unfold paragraphEnd
    simp only [Nat.add_le_add_iff_right, mirrors.isEmpty, mirrors.isDeeplyIndented,
      mirrors.columns, ends, Nat.add_right_comm _ ahead 1, ih]
    split_ifs <;> rfl

theorem mirrors_paragraph (first stop : Nat) :
    paragraph (md.deepened deeper) other (first + ahead) (stop + ahead) =
      (paragraph md scope first stop).later ahead := by
  unfold paragraph
  dsimp only
  rw [Nat.add_right_comm first, Nat.add_sub_add_right, mirrors_paragraphEnd md mirrors,
    mirrors.source, mirrors.indent]
  rfl

theorem mirrors_embedLines? (first stop : Nat) :
    embedLines? (md.deepened deeper) other (first + ahead) (stop + ahead) =
      embedLines? md scope first stop := by
  unfold embedLines?
  rw [mirrors.source, mirrors.indent]
  rfl

theorem mirrors_findBlockClose (name : Text) (first stop fuel next : Nat) :
    findBlockClose (md.deepened deeper) other name (first + ahead) (stop + ahead) fuel
        (next + ahead) =
      ((findBlockClose md scope name first stop fuel next).1 + ahead,
        (findBlockClose md scope name first stop fuel next).2) := by
  induction fuel generalizing next with
  | zero => rfl
  | succ fuel ih =>
    unfold findBlockClose
    simp only [Nat.add_le_add_iff_right, mirrors.isDedented, mirrors.content,
      Nat.add_right_comm _ ahead 1, mirrors_embedLines? md mirrors, ih]
    simp only [show (md.deepened deeper).grammar = md.grammar from rfl]
    split_ifs
    · rfl
    · cases embedLines? md scope first (next + 1) <;> rfl
    · rfl

theorem mirrors_embeddedBlock? (first stop : Nat) :
    embeddedBlock? (md.deepened deeper) other (first + ahead) (stop + ahead) =
      (embeddedBlock? md scope first stop).map (Block.later ahead) := by
  have make : ∀ found : Nat × Option Text,
      ((found.2 <|> embedLines? (md.deepened deeper) other (first + ahead) (found.1 + ahead)).map
        fun code => Block.embedded code (first + ahead, found.1 + ahead)) =
      ((found.2 <|> embedLines? md scope first found.1).map
        fun code => Block.embedded code (first, found.1)).map (Block.later ahead) := by
    intro found
    rw [mirrors_embedLines? md mirrors, Option.map_map]
    rfl
  unfold embeddedBlock?
  rw [mirrors_openTagAt? md mirrors, mirrors.content, Nat.add_right_comm first,
    Nat.add_sub_add_right]
  simp only [mirrors_findBlockClose md mirrors,
    show (md.deepened deeper).grammar = md.grammar from rfl, Option.map_eq_bind] at make ⊢
  cases openTagAt? md scope first with
  | none => rfl
  | some tag =>
    cases (md.grammar.selfClosing .block (scope.content first).trim).isSome with
    | true => exact make (first + 1, none)
    | false => exact make (findBlockClose md scope tag.name first stop (stop - first) (first + 1))

end

/-! ## Containers -/

/-- Wherever a scope mirrors another one, the other parser makes the same blocks further down. -/
def ParsesLater (ahead deeper : Nat) (tree other : ParseBlocks) : Prop :=
  ∀ {scope mirror : Scope}, scope.Mirrors ahead deeper mirror → ∀ progress first stop,
    other mirror (progress.later ahead) (first + ahead) (stop + ahead) =
      (Block.allLater ahead (tree scope progress first stop).1,
        (tree scope progress first stop).2.later ahead)

/-- A block that was made, `ahead` lines further down. -/
def Made.later (ahead : Nat) (made : Made) : Made :=
  (made.1.later ahead, made.2.later ahead)

/-- The items of a list, `ahead` lines further down. -/
def Items.later (ahead : Nat) (found : Items) : Items :=
  { found with items := ListItem.allLater ahead found.items, next := found.next + ahead }

theorem unplaced_unquote (line : Line) (behind : Text) :
    (unquote line behind).unplaced = (unquote line.unplaced behind).unplaced := by
  cases behind <;> rfl

theorem unplaced_itemLine (line : Line) (marker : Marker) :
    (itemLine line marker).unplaced = (itemLine line.unplaced marker).unplaced := rfl

theorem itemIndent_unplaced (line : Line) (marker : Marker) :
    itemIndent line.unplaced marker = itemIndent line marker := rfl

section

variable (md : Markdown) {scope other : Scope} (mirrors : scope.Mirrors ahead deeper other)
variable {tree tree' : ParseBlocks} (later : ParsesLater ahead deeper tree tree')
include mirrors

theorem mirrors_quoteLines (stop fuel : Nat) (lastEmpty : Bool) (next : Nat) :
    (quoteLines (md.deepened deeper) other (stop + ahead) fuel lastEmpty (next + ahead)).map
        Line.unplaced =
      (quoteLines md scope stop fuel lastEmpty next).map Line.unplaced := by
  have ends := mirrors_endsAt md ((mirrors.withIndent 0).withParent .blockquote)
    "blockquote"
  induction fuel generalizing lastEmpty next with
  | zero => rfl
  | succ fuel ih =>
    have inner : ∀ behind, (unquote (other.line (next + ahead)) behind).unplaced =
        (unquote (scope.line next) behind).unplaced := by
      intro behind
      rw [unplaced_unquote, mirrors.line, ← unplaced_unquote]
    unfold quoteLines
    dsimp only
    rw [show (other.line (next + ahead)).content = (scope.line next).content from
      mirrors.content next]
    simp only [Nat.add_le_add_iff_right, mirrors.isDedented, ends, Nat.add_right_comm _ ahead 1]
    by_cases ended : stop ≤ next
    · rw [if_pos ended, if_pos ended]
    · rw [if_neg ended, if_neg ended]
      cases (scope.line next).content with
      | nil => rfl
      | cons mark behind =>
        dsimp only
        split_ifs
        · have isEmpty := congrArg Line.isEmpty (inner behind)
          rw [List.map_cons, List.map_cons, inner, ← ih]
          exact congrArg (fun lastEmpty => _ :: (quoteLines _ _ _ _ lastEmpty _).map _) isEmpty
        · rfl
        · rw [List.map_cons, List.map_cons, ih]
          refine congrArg (· :: _) ?_
          exact congrArg (fun line : Line => { line with columns := -1, content := mark :: behind })
            (mirrors.line next)

theorem mirrors_nextMarker? (marker : Marker) (next : Nat) :
    nextMarker? other marker (next + ahead) = nextMarker? scope marker next := by
  unfold nextMarker?
  rw [mirrors.content]

include later

theorem mirrors_blockquote? (progress : Progress) (first stop : Nat) :
    blockquote? (md.deepened deeper) tree' other (progress.later ahead) (first + ahead)
        (stop + ahead) =
      (blockquote? md tree scope progress first stop).map (Made.later ahead) := by
  have opens := mirrors_opens md mirrors .blockquote first
  have lines := mirrors_quoteLines md mirrors stop (stop - first) false first
  have length := congrArg List.length lines
  rw [List.length_map, List.length_map] at length
  have inner := ((((@Scope.Mirrors.replaceLines _ _ _ _ mirrors first _ _ lines).withIndent
    0).withParent .blockquote).withLevel 1)
  unfold blockquote?
  rw [show opensBlockquote other (first + ahead) = opensBlockquote scope first from opens,
    Nat.add_sub_add_right]
  dsimp only
  rw [length, Nat.add_right_comm first, later inner]
  cases opensBlockquote scope first <;> rfl

theorem mirrors_itemBlocks (stop next : Nat) (marker : Marker) :
    itemBlocks tree' other (stop + ahead) (next + ahead) marker =
      (Block.allLater ahead (itemBlocks tree scope stop next marker).1,
        (itemBlocks tree scope stop next marker).2.later ahead) := by
  have line : (itemLine (other.line (next + ahead)) marker).unplaced =
      (itemLine (scope.line next) marker).unplaced := by
    rw [unplaced_itemLine, mirrors.line, ← unplaced_itemLine]
  have indent : itemIndent (other.line (next + ahead)) marker =
      itemIndent (scope.line next) marker := by
    rw [← itemIndent_unplaced, mirrors.line, itemIndent_unplaced]
  have inner := ((((mirrors.setLine next line).withIndent (itemIndent (scope.line next)
    marker)).withParent .list).withLevel 2)
  have isEmpty : (itemLine (other.line (next + ahead)) marker).isEmpty =
      (itemLine (scope.line next) marker).isEmpty := (congrArg Line.isEmpty line :)
  unfold itemBlocks
  dsimp only
  rw [isEmpty, Nat.add_right_comm next, mirrors.isEmpty, indent]
  split
  · rw [Nat.add_right_comm next, Nat.add_min_add_right]
    rfl
  · exact later inner ⟨next, true⟩ next stop

theorem mirrors_listItems (stop fuel next : Nat) (marker : Marker) (gapBefore : Bool) :
    listItems (md.deepened deeper) tree' other (stop + ahead) fuel (next + ahead) marker
        gapBefore =
      (listItems md tree scope stop fuel next marker gapBefore).later ahead := by
  have ends := mirrors_endsAt md (mirrors.withParent .list) "list"
  induction fuel generalizing next marker gapBefore with
  | zero => rfl
  | succ fuel ih =>
    unfold listItems
    rw [mirrors_itemBlocks mirrors later]
    generalize itemBlocks tree scope stop next marker = made
    obtain ⟨body, progress⟩ := made
    simp only [Nat.add_le_add_iff_right]
    by_cases ended : stop ≤ next
    · rw [if_pos ended, if_pos ended]
      rfl
    · rw [if_neg ended, if_neg ended]
      have gap : (decide (1 < progress.line + ahead - (next + ahead)) &&
          other.isEmpty (progress.line + ahead - 1)) =
        (decide (1 < progress.line - next) && scope.isEmpty (progress.line - 1)) := by
        rw [Nat.add_sub_add_right]
        by_cases behind : 1 < progress.line - next
        · rw [show progress.line + ahead - 1 = progress.line - 1 + ahead by omega, mirrors.isEmpty]
        · rw [decide_eq_false behind, Bool.false_and, Bool.false_and]
      have after : max (progress.line + ahead) (next + ahead + 1) =
          max progress.line (next + 1) + ahead := by omega
      dsimp +instances only [Progress.later]
      rw [gap, after]
      simp only [Nat.add_le_add_iff_right, mirrors.isDedented, mirrors.isDeeplyIndented, ends,
        mirrors_nextMarker? mirrors, ih]
      split <;> rfl

theorem mirrors_list? (progress : Progress) (first stop : Nat) :
    list? (md.deepened deeper) tree' other (progress.later ahead) (first + ahead)
        (stop + ahead) =
      (list? md tree scope progress first stop).map (Made.later ahead) := by
  unfold list?
  rw [mirrors.isDeeplyIndented, mirrors.content, Nat.add_sub_add_right]
  simp only [mirrors_listItems md mirrors later]
  cases scope.isDeeplyIndented first with
  | true => rfl
  | false =>
    cases Marker.of? (scope.content first) with
    | none => rfl
    | some marker =>
      have items : ∀ found : Items, (if found.tight then
          (ListItem.allLater ahead found.items).map (·.tighten)
          else ListItem.allLater ahead found.items) =
            ListItem.allLater ahead
              (if found.tight then found.items.map (·.tighten) else found.items) := by
        intro found
        split
        · exact (ListItem.allLater_tighten _).symm
        · rfl
      exact congrArg (fun items => some (Block.list _ _ items _, _))
        (items (listItems md tree scope stop (stop - first + 1) first marker false))

end

/-! ## Parsing -/

section

variable (md : Markdown) {scope other : Scope} (mirrors : scope.Mirrors ahead deeper other)
include mirrors

theorem mirrors_runRule {tree tree' : ParseBlocks} (later : ParsesLater ahead deeper tree tree')
    (rule : BlockRule) (progress : Progress) (first stop : Nat) :
    runRule (md.deepened deeper) tree' rule other (progress.later ahead) (first + ahead)
        (stop + ahead) =
      (runRule md tree rule scope progress first stop).map (Made.later ahead) := by
  have leaf : ∀ {found found' : Option Block}, found' = found.map (Block.later ahead) →
      found'.map (·.made (progress.later ahead)) =
        (found.map (·.made progress)).map (Made.later ahead) := by
    rintro found _ rfl
    rw [Option.map_map, Option.map_map]
    refine congrArg (found.map ·) (funext fun block => ?_)
    exact Prod.ext rfl (congrArg (Progress.mk · _) (congrArg Prod.snd block.span_later))
  cases rule with
  | code => exact leaf (mirrors_indentedCode? mirrors first stop)
  | fence => exact leaf (mirrors_fence? mirrors first stop)
  | blockquote => exact mirrors_blockquote? md mirrors later progress first stop
  | hr => exact leaf (mirrors_hr? mirrors first)
  | list => exact mirrors_list? md mirrors later progress first stop
  | embedded => exact leaf (mirrors_embeddedBlock? md mirrors first stop)
  | heading => exact leaf (mirrors_heading? mirrors first)
  | paragraph =>
    have made := congrArg some (mirrors_paragraph md mirrors first stop)
    exact @leaf (some (paragraph md scope first stop)) _ made

theorem mirrors_blocksFrom {run run' : Progress → Nat → Option Made}
    (same : ∀ progress first, run' (progress.later ahead) (first + ahead) =
      (run progress first).map (Made.later ahead))
    (stop fuel : Nat) (progress : Progress) (next : Nat) (sawEmpty : Bool) :
    blocksFrom (md.deepened deeper) run' other (stop + ahead) fuel (progress.later ahead)
        (next + ahead) sawEmpty =
      (Block.allLater ahead (blocksFrom md run scope stop fuel progress next sawEmpty).1,
        (blocksFrom md run scope stop fuel progress next sawEmpty).2.later ahead) := by
  induction fuel generalizing progress next sawEmpty with
  | zero => rfl
  | succ fuel ih =>
    have tooDeep : (md.deepened deeper).maxNesting ≤ other.level ↔ md.maxNesting ≤ scope.level := by
      rw [mirrors.level]
      exact Nat.add_le_add_iff_right
    unfold blocksFrom
    simp only [Nat.add_le_add_iff_right, mirrors.skipEmpty, mirrors.isDedented, tooDeep]
    have found : ∀ first, run' ⟨first + ahead, (progress.later ahead).tight⟩ (first + ahead) =
        (run ⟨first, progress.tight⟩ first).map (Made.later ahead) :=
      fun first => same ⟨first, progress.tight⟩ first
    split_ifs
    · rfl
    · rfl
    · rfl
    · generalize scope.skipEmpty next = first
      rw [found]
      cases run { progress with line := first } first with
      | none => rfl
      | some made =>
        obtain ⟨block, behind⟩ := made
        have last : first < behind.line → other.isEmpty (behind.line + ahead - 1) =
            scope.isEmpty (behind.line - 1) := by
          intro moved
          rw [show behind.line + ahead - 1 = behind.line - 1 + ahead by omega, mirrors.isEmpty]
        dsimp +instances only [Option.map_some, Made.later, Progress.later]
        simp only [Nat.add_le_add_iff_right, Nat.add_lt_add_iff_right, mirrors.isEmpty]
        by_cases stuck : behind.line ≤ first
        · rw [if_pos stuck, if_pos stuck]
          rfl
        · rw [if_neg stuck, if_neg stuck, last (Nat.lt_of_not_le stuck)]
          -- An empty line behind the block is skipped in both scopes.
          cases emptyBehind : decide (behind.line < stop) && scope.isEmpty behind.line with
          | true =>
            simp only [if_true, Nat.add_right_comm _ ahead 1]
            rw [show Progress.mk (behind.line + 1 + ahead) (!sawEmpty) =
              Progress.later ahead ⟨behind.line + 1, !sawEmpty⟩ from rfl, ih]
            rfl
          | false =>
            simp only [Bool.false_eq_true, if_false]
            rw [show Progress.mk (behind.line + ahead) (!sawEmpty) =
              Progress.later ahead ⟨behind.line, !sawEmpty⟩ from rfl, ih]
            rfl

end

theorem mirrors_parseBlocks (md : Markdown) (depth : Nat) :
    ParsesLater ahead deeper (parseBlocks md depth) (parseBlocks (md.deepened deeper) depth) := by
  induction depth with
  | zero =>
    intro scope mirror mirrors progress first stop
    unfold parseBlocks
    rw [Nat.add_sub_add_right]
    exact mirrors_blocksFrom md mirrors (fun _ _ => rfl) stop _ progress first false
  | succ depth ih =>
    intro scope mirror mirrors progress first stop
    unfold parseBlocks
    rw [Nat.add_sub_add_right]
    refine mirrors_blocksFrom md mirrors (fun progress first => ?_) stop _ progress first false
    rw [show (md.deepened deeper).blockChain = md.blockChain from rfl]
    simp only [mirrors_runRule md mirrors ih]
    exact List.map_findSome?.symm

end ComponentMarkdown
