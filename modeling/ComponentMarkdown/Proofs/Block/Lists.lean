import ComponentMarkdown.Proofs.Block.Rules

/-!
# Lists in place and on a scope

The items of a list are parsed one after the other with their markers as indentation. The paragraphs
of a tight list are hidden at the end, among tokens that were added long before. The file has:

* `Block.deep`: the tokens of a block stand on its level or deeper;
* `hideParagraphs_items`: hiding among the tokens of items is hiding in the items;
* `listItems_eq` for the items, and `list_eq` for a whole list.
-/

namespace ComponentMarkdown

/-! ## The level of tokens -/

/-- A token of a block on this level or deeper. -/
def Token.Deep (level : Nat) (token : Token) : Prop :=
  level ≤ token.level ∧ token.block = true

theorem Token.Deep.outer {level : Nat} {token : Token} (deep : token.Deep (level + 1)) :
    token.Deep level :=
  ⟨Nat.le_of_succ_le deep.1, deep.2⟩

theorem mem_encloseBlock {kinds : TokenKind × TokenKind} {tag markup : Text} {level : Nat}
    {span : LineSpan} {body : List Token} {token : Token}
    (member : token ∈ encloseBlock kinds tag level span markup body) :
    (token.level = level ∧ token.block = true ∧ (token.kind = kinds.1 ∨ token.kind = kinds.2)) ∨
      token ∈ body := by
  unfold encloseBlock at member
  simp only [List.cons_append, List.mem_cons, List.mem_append, List.not_mem_nil, or_false] at member
  rcases member with rfl | inside | rfl
  · exact .inl ⟨rfl, rfl, .inl rfl⟩
  · exact .inr inside
  · exact .inl ⟨rfl, rfl, .inr rfl⟩

theorem deep_encloseBlock {kinds : TokenKind × TokenKind} {tag markup : Text} {level : Nat}
    {span : LineSpan} {body : List Token} (inside : ∀ token ∈ body, token.Deep (level + 1)) :
    ∀ token ∈ encloseBlock kinds tag level span markup body, token.Deep level := by
  intro token member
  rcases mem_encloseBlock member with ⟨same, isBlock, -⟩ | inBody
  · exact ⟨Nat.le_of_eq same.symm, isBlock⟩
  · exact (inside token inBody).outer

/-- What is adjusted in a first token does not matter for what holds of it either way. -/
theorem forall_adjustFirst {adjust : Token → Token} {holds : Token → Prop} {tokens : List Token}
    (keeps : ∀ token, holds token → holds (adjust token)) (all : ∀ token ∈ tokens, holds token) :
    ∀ token ∈ adjustFirst adjust tokens, holds token := by
  intro token member
  cases tokens with
  | nil => cases member
  | cons first tokens =>
    rcases List.mem_cons.mp member with rfl | member
    · exact keeps first (all first List.mem_cons_self)
    · exact all token (List.mem_cons_of_mem _ member)

mutual

/-- The tokens of a block stand on its level or deeper. -/
theorem Block.deep (level : Nat) (block : Block) :
    ∀ token ∈ block.tokens level, token.Deep level := by
  cases block with
  | paragraph content span hidden =>
    intro token member
    simp only [Block.tokens, List.mem_cons, List.not_mem_nil, or_false] at member
    rcases member with rfl | rfl | rfl
    · exact ⟨Nat.le_refl _, rfl⟩
    · exact ⟨Nat.le_succ _, rfl⟩
    · exact ⟨Nat.le_refl _, rfl⟩
  | heading depth content span =>
    refine deep_encloseBlock fun token member => ?_
    cases List.mem_singleton.mp member
    exact ⟨Nat.le_refl _, rfl⟩
  | code | fence | hr | embedded =>
    intro token member
    cases List.mem_singleton.mp member
    exact ⟨Nat.le_refl _, rfl⟩
  | blockquote body span => exact deep_encloseBlock (Block.deep_all (level + 1) body)
  | list number marker items span =>
    rw [Block.tokens]
    refine forall_adjustFirst ?_ (deep_encloseBlock (ListItem.deep_all marker (level + 1) items))
    exact fun _ deep => deep

theorem Block.deep_all (level : Nat) (blocks : List Block) :
    ∀ token ∈ Block.allTokens level blocks, token.Deep level := by
  intro token member
  cases blocks with
  | nil => cases member
  | cons block blocks =>
    rw [Block.allTokens, List.mem_append] at member
    rcases member with inFirst | inOthers
    · exact Block.deep level block token inFirst
    · exact Block.deep_all level blocks token inOthers

theorem ListItem.deep (marker : Char) (level : Nat) (item : ListItem) :
    ∀ token ∈ item.tokens marker level, token.Deep level := by
  cases item with
  | mk number body span =>
    rw [ListItem.tokens]
    refine forall_adjustFirst ?_ (deep_encloseBlock (Block.deep_all (level + 1) body))
    exact fun _ deep => deep

theorem ListItem.deep_all (marker : Char) (level : Nat) (items : List ListItem) :
    ∀ token ∈ ListItem.allTokens marker level items, token.Deep level := by
  intro token member
  cases items with
  | nil => cases member
  | cons item items =>
    rw [ListItem.allTokens, List.mem_append] at member
    rcases member with inFirst | inOthers
    · exact ListItem.deep marker level item token inFirst
    · exact ListItem.deep_all marker level items token inOthers

end

/-! ## Hidden paragraphs -/

namespace BlockRun

/-- Does the token begin a paragraph of the level? -/
def BeginsParagraph (level : Nat) (token : Token) : Prop :=
  token.level = level ∧ token.kind = .paragraphOpen

theorem hideParagraphs_cons {level : Nat} {token : Token} (other : ¬ BeginsParagraph level token)
    (tokens : List Token) :
    hideParagraphs level (token :: tokens) = token :: hideParagraphs level tokens := by
  match tokens with
  | [] | [_] => rfl
  | text :: closing :: tokens =>
    rw [hideParagraphs, if_neg]
    simpa [BeginsParagraph] using other

theorem hideParagraphs_append {level : Nat} {tokens : List Token}
    (others : ∀ token ∈ tokens, ¬ BeginsParagraph level token) (more : List Token) :
    hideParagraphs level (tokens ++ more) = tokens ++ hideParagraphs level more := by
  induction tokens with
  | nil => rfl
  | cons token tokens ih =>
    rw [List.cons_append, hideParagraphs_cons (others token List.mem_cons_self),
      ih fun other member => others other (List.mem_cons_of_mem _ member)]
    rfl

/-- Only the tokens around a block can begin a paragraph of its level. -/
theorem not_beginsParagraph_encloseBlock {kinds : TokenKind × TokenKind} {tag markup : Text}
    {level : Nat} {span : LineSpan} {body : List Token}
    (other : kinds.1 ≠ .paragraphOpen ∧ kinds.2 ≠ .paragraphOpen)
    (inside : ∀ token ∈ body, token.Deep (level + 1)) :
    ∀ token ∈ encloseBlock kinds tag level span markup body, ¬ BeginsParagraph level token := by
  rintro token member ⟨same, begins⟩
  rcases mem_encloseBlock member with ⟨-, -, isFirst | isLast⟩ | inBody
  · exact other.1 (isFirst.symm.trans begins)
  · exact other.2 (isLast.symm.trans begins)
  · -- What stands inside is deeper than the level.
    have := (inside token inBody).1
    omega

/-- Among the tokens of a block on the level, just a paragraph is hidden. -/
theorem hideParagraphs_tokens (level : Nat) (block : Block) (more : List Token) :
    hideParagraphs level (block.tokens level ++ more) =
      block.hideParagraph.tokens level ++ hideParagraphs level more := by
  cases block with
  | paragraph content span hidden =>
    simp [Block.tokens, Block.hideParagraph, blockToken, inlineToken, hideParagraphs]
  | heading depth content span =>
    refine hideParagraphs_append (not_beginsParagraph_encloseBlock ?_ ?_) more
    · exact ⟨by decide, by decide⟩
    · intro token member
      cases List.mem_singleton.mp member
      exact ⟨Nat.le_refl _, rfl⟩
  | code | fence | hr | embedded =>
    refine hideParagraphs_cons ?_ more
    rintro ⟨-, ⟨⟩⟩
  | blockquote body span =>
    refine hideParagraphs_append (not_beginsParagraph_encloseBlock ?_ ?_) more
    · exact ⟨by decide, by decide⟩
    · exact Block.deep_all (level + 1) body
  | list number marker items span =>
    have same : (Block.list number marker items span).hideParagraph =
        .list number marker items span := rfl
    rw [same, Block.tokens]
    refine hideParagraphs_append (forall_adjustFirst ?_ ?_) more
    · exact fun _ other => other
    · refine not_beginsParagraph_encloseBlock ?_ (ListItem.deep_all marker (level + 1) items)
      cases number.isSome <;> exact ⟨by decide, by decide⟩

theorem hideParagraphs_allTokens (level : Nat) (blocks : List Block) (more : List Token) :
    hideParagraphs level (Block.allTokens level blocks ++ more) =
      Block.allTokens level (blocks.map Block.hideParagraph) ++ hideParagraphs level more := by
  induction blocks with
  | nil => rfl
  | cons block blocks ih =>
    rw [Block.allTokens, List.append_assoc, hideParagraphs_tokens, ih, List.map_cons,
      Block.allTokens, List.append_assoc]

/-- Hiding the paragraphs one level below the items makes the items tight. -/
theorem hideParagraphs_items (marker : Char) (level : Nat) (items : List ListItem)
    (more : List Token) :
    hideParagraphs (level + 1) (ListItem.allTokens marker level items ++ more) =
      ListItem.allTokens marker level (items.map ListItem.tighten) ++
        hideParagraphs (level + 1) more := by
  induction items with
  | nil => rfl
  | cons item items ih =>
    obtain ⟨number, body, span⟩ := item
    have outside : ∀ token : Token, token.level = level → ¬ BeginsParagraph (level + 1) token := by
      rintro token same ⟨deeper, -⟩
      omega
    simp only [ListItem.allTokens, ListItem.tokens, encloseBlock, adjustFirst, List.map_cons,
      ListItem.tighten, List.cons_append, List.append_assoc, List.nil_append]
    rw [hideParagraphs_cons (outside _ rfl), hideParagraphs_allTokens,
      hideParagraphs_cons (outside _ rfl), ih]

/-! ## Items -/

section

variable {md : Markdown} {parse : Nat → Nat → BlockRun → BlockRun} {tree : ParseBlocks}
  {scope : Scope} {stop : Nat} {marker : Marker}

/-- Where parsing came from does not matter when there are lines to parse. -/
def StartsAnew (tree : ParseBlocks) : Prop :=
  ∀ (scope : Scope) (before other : Progress) (first stop : Nat), first < stop →
    before.tight = other.tight → tree scope before first stop = tree scope other first stop

/-- The scope of the items of a list. -/
def itemScope (scope : Scope) : Scope :=
  { scope with parent := .list, level := scope.level + 1 }

/-- The scope of the blocks of the item at line `next`. -/
def insideItem (scope : Scope) (next : Nat) (marker : Marker) : Scope :=
  { lines := scope.lines.setIfInBounds next (itemLine (scope.line next) marker)
    indent := itemIndent (scope.line next) marker
    parent := .list
    level := scope.level + 2 }

/-- A line other than the one of the item is empty in the item if it is empty in the list. -/
theorem isEmpty_insideItem (scope : Scope) {next number : Nat} (marker : Marker)
    (other : next ≠ number) :
    (insideItem scope next marker).isEmpty number = scope.isEmpty number := by
  have size : (insideItem scope next marker).lines.size = scope.lines.size :=
    Array.size_setIfInBounds
  rcases Nat.lt_or_ge number scope.lines.size with inText | beyond
  · unfold Scope.isEmpty
    rw [Scope.line_congr size (size ▸ inText) (Array.getElem?_setIfInBounds_ne other)]
  · rw [Scope.isEmpty_of_le beyond, Scope.isEmpty_of_le (size ▸ beyond)]

theorem itemBody_eq (parses : ParsesAs parse tree) (anew : StartsAnew tree) (scope : Scope)
    (marker : Marker) {next stop : Nat} (inWindow : next < stop)
    (inText : stop ≤ scope.lines.size) (line : Nat) (tokens : List Token) :
    itemBody parse stop next (itemLine (scope.line next) marker)
        ⟨insideItem scope next marker, ⟨line, true⟩, tokens⟩ =
      ⟨insideItem scope next marker, (itemBlocks tree scope stop next marker).2,
        tokens ++
          Block.allTokens (scope.level + 2) (itemBlocks tree scope stop next marker).1⟩ := by
  unfold itemBody itemBlocks
  dsimp only
  rw [isEmpty_insideItem scope marker (Nat.ne_of_lt (Nat.lt_succ_self next))]
  split
  · simp [moveTo, Block.allTokens]
  · have size : stop ≤ (insideItem scope next marker).lines.size :=
      Nat.le_trans inText (Nat.le_of_eq (Array.size_setIfInBounds).symm)
    rw [parses next stop ⟨insideItem scope next marker, ⟨line, true⟩, tokens⟩ size]
    dsimp only
    rw [anew _ ⟨line, true⟩ ⟨next, true⟩ next stop inWindow rfl]
    rfl

theorem enterItem_eq (scope : Scope) (next : Nat) (marker : Marker) (progress : Progress)
    (tokens : List Token) :
    enterItem next marker ⟨itemScope scope, progress, tokens⟩ =
      ⟨insideItem scope next marker, ⟨progress.line, true⟩,
        tokens ++
          [{ kind := .listItemOpen, tag := "li".toList, nesting := .opening,
             level := scope.level + 1, markup := [marker.mark], info := marker.number.getD [],
             block := true }]⟩ := by
  unfold enterItem
  rw [add_opening _ rfl]
  rfl

/-- An item adds its tokens, and leaves the scope of the list as it was. -/
theorem listItem_eq (parses : ParsesAs parse tree) (anew : StartsAnew tree) (scope : Scope)
    (marker : Marker) {next stop : Nat} (inWindow : next < stop)
    (inText : stop ≤ scope.lines.size) (progress : Progress) (tokens : List Token) :
    listItem parse stop next marker ⟨itemScope scope, progress, tokens⟩ =
      let parsed := itemBlocks tree scope stop next marker
      let after := max parsed.2.line (next + 1)
      (parsed.2.tight, 1 < parsed.2.line - next && scope.isEmpty (parsed.2.line - 1),
        ⟨itemScope scope, { progress with line := after },
          tokens ++ (ListItem.mk (marker.number.getD []) parsed.1 (next, after)).tokens marker.mark
            (scope.level + 1)⟩) := by
  have line : (itemScope scope).line next = scope.line next := rfl
  have restored := scope.restore_line (Nat.lt_of_lt_of_le inWindow inText)
    (itemLine (scope.line next) marker)
  unfold listItem
  dsimp only
  rw [enterItem_eq, line, itemBody_eq parses anew scope marker inWindow inText]
  generalize itemBlocks tree scope stop next marker = parsed
  obtain ⟨blocks, behind⟩ := parsed
  have gap : (1 < behind.line - next && (insideItem scope next marker).isEmpty (behind.line - 1)) =
      (1 < behind.line - next && scope.isEmpty (behind.line - 1)) := by
    by_cases far : 1 < behind.line - next
    · rw [isEmpty_insideItem scope marker (show next ≠ behind.line - 1 by omega)]
    · simp only [far, decide_false, Bool.false_and]
  dsimp only
  rw [add_closing _ rfl, gap]
  dsimp only [setMap, moveTo, setIndent, setLine, setTight, insideItem, itemScope]
  rw [restored, List.append_assoc, List.append_assoc, List.singleton_append, modify_length_append]
  rfl

/-- All items of a list have the mark of the first one. -/
theorem mark_nextMarker {next : Nat} {other : Marker}
    (found : nextMarker? scope marker next = some other) : other.mark = marker.mark := by
  obtain ⟨-, continues⟩ := Option.filter_eq_some_iff.mp found
  simp only [Marker.continues, Bool.and_eq_true, beq_iff_eq] at continues
  exact continues.2.symm

/-- In place, the items of a list are the items that are parsed on the scope. -/
theorem listItems_eq (parses : ParsesAs parse tree) (anew : StartsAnew tree) {ends : Step}
    (answers : Answers md "list" ends) (scope : Scope) {stop : Nat}
    (inText : stop ≤ scope.lines.size) (fuel next : Nat) (marker : Marker) (gapBefore : Bool)
    (progress : Progress) (tokens : List Token) :
    let found := ComponentMarkdown.listItems md tree scope stop fuel next marker gapBefore
    ∃ line, listItems parse ends stop fuel next marker gapBefore
        ⟨itemScope scope, progress, tokens⟩ =
      (found.tight, found.next,
        ⟨itemScope scope, { progress with line },
          tokens ++ ListItem.allTokens marker.mark (scope.level + 1) found.items⟩) := by
  induction fuel generalizing next marker gapBefore progress tokens with
  | zero =>
    refine ⟨progress.line, ?_⟩
    simp [listItems, ComponentMarkdown.listItems, ListItem.allTokens]
  | succ fuel ih =>
    unfold listItems ComponentMarkdown.listItems
    by_cases ended : stop ≤ next
    · exact ⟨progress.line, by simp [ended, ListItem.allTokens]⟩
    · rw [if_neg ended, if_neg ended, listItem_eq parses anew scope marker (by omega) inText]
      generalize itemBlocks tree scope stop next marker = parsed
      obtain ⟨blocks, behind⟩ := parsed
      dsimp only
      generalize max behind.line (next + 1) = after
      -- The level, which differs here, has no say in what ends a list.
      have asked : ∀ run : BlockRun, run.scope = itemScope scope → ends after stop run =
          (endsAt md "list" { scope with parent := .list } after, run) := by
        intro run inside
        rw [answers, inside]
        rfl
      have dedented : (itemScope scope).isDedented after = scope.isDedented after := rfl
      have deep : (itemScope scope).isDeeplyIndented after = scope.isDeeplyIndented after := rfl
      have following : nextMarker? (itemScope scope) marker after =
          nextMarker? scope marker after := rfl
      rw [dedented, deep, asked _ rfl]
      cases stop ≤ after || scope.isDedented after || scope.isDeeplyIndented after with
      | true => exact ⟨after, by simp [ListItem.allTokens]⟩
      | false =>
        cases endsAt md "list" { scope with parent := .list } after with
        | true => exact ⟨after, by simp [ListItem.allTokens]⟩
        | false =>
          simp only [Bool.false_eq_true, if_false, Bool.or_self, following]
          cases found : nextMarker? scope marker after with
          | none => exact ⟨after, by simp [ListItem.allTokens]⟩
          | some other =>
            -- The next item has another number perhaps, but the same mark.
            obtain ⟨line, others⟩ := ih after other
              (1 < behind.line - next && scope.isEmpty (behind.line - 1))
              { progress with line := after }
              (tokens ++ (ListItem.mk (marker.number.getD []) blocks (next, after)).tokens
                marker.mark (scope.level + 1))
            refine ⟨line, ?_⟩
            dsimp only
            rw [others, mark_nextMarker found, ListItem.allTokens, List.append_assoc]

/-! ## Whole lists -/

/-- The tokens of items do not begin with a paragraph two levels below the list. -/
theorem not_beginsParagraph_items {marker : Char} {level : Nat} {items : List ListItem}
    {closing first : Token} {tokens : List Token} (outside : closing.level = level)
    (begins : ListItem.allTokens marker (level + 1) items ++ [closing] = first :: tokens) :
    ¬ BeginsParagraph (level + 2) first := by
  rintro ⟨deeper, -⟩
  cases items with
  | nil =>
    obtain ⟨rfl, -⟩ := List.cons.inj begins
    omega
  | cons item items =>
    obtain ⟨number, body, span⟩ := item
    obtain ⟨rfl, -⟩ := List.cons.inj begins
    exact absurd deeper (Nat.ne_of_lt (Nat.lt_succ_self (level + 1)))

/-- The paragraphs that are hidden are those of the items. -/
theorem hideItemParagraphs_eq (scope : Scope) (progress : Progress) (tokens : List Token)
    (opening : Token) {closing : Token} (marker : Char) (items : List ListItem)
    (outside : closing.level = scope.level) :
    hideItemParagraphs
        ⟨scope, progress, tokens ++ opening ::
          (ListItem.allTokens marker (scope.level + 1) items ++ [closing])⟩ tokens.length =
      ⟨scope, progress, tokens ++ opening ::
        (ListItem.allTokens marker (scope.level + 1) (items.map ListItem.tighten) ++
          [closing])⟩ := by
  have hidden := hideParagraphs_items marker (scope.level + 1) items [closing]
  have stays : hideParagraphs (scope.level + 2) [closing] = [closing] := rfl
  rw [stays] at hidden
  rw [← hidden]
  unfold hideItemParagraphs
  cases begins : ListItem.allTokens marker (scope.level + 1) items ++ [closing] with
  | nil => exact absurd begins (List.append_ne_nil_of_right_ne_nil _ (List.cons_ne_nil _ _))
  | cons first more =>
    dsimp only
    rw [hideParagraphs_cons (not_beginsParagraph_items outside begins),
      List.take_length_add_append, List.drop_length_add_append, List.append_assoc]
    rfl

theorem isSome_value (marker : Marker) : marker.value.isSome = marker.number.isSome := by
  unfold Marker.value
  cases marker.number <;> rfl

/-- The token that begins a list of the level. -/
def listOpening (marker : Marker) (level : Nat) : Token :=
  { kind := (listKinds marker.number.isSome).1
    tag := (if marker.number.isSome then "ol" else "ul").toList
    nesting := .opening
    markup := [marker.mark]
    attrs := startAttributes marker.value
    level
    block := true }

/-- The tokens of a list, around those of its items. -/
theorem tokens_list (marker : Marker) (items : List ListItem) (span : LineSpan) (level : Nat) :
    (Block.list marker.value marker.mark items span).tokens level =
      { listOpening marker level with map := some span } ::
        (ListItem.allTokens marker.mark (level + 1) items ++
          [{ kind := (listKinds marker.number.isSome).2
             tag := (if marker.number.isSome then "ol" else "ul").toList
             nesting := .closing
             markup := [marker.mark]
             level
             block := true }]) := by
  rw [Block.tokens, isSome_value]
  rfl

theorem list_eq (parses : ParsesAs parse tree) (anew : StartsAnew tree) {ends : Step}
    (answers : Answers md "list" ends) (first : Nat) {stop : Nat} {run : BlockRun}
    (inText : stop ≤ run.lineCount) :
    list parse ends false first stop run =
      run.accept (list? md tree run.scope run.progress first stop) := by
  unfold list list?
  cases run.scope.isDeeplyIndented first with
  | true => rfl
  | false =>
    cases Marker.of? (run.scope.content first) with
    | none => rfl
    | some marker =>
      obtain ⟨scope, progress, tokens⟩ := run
      obtain ⟨line, entered⟩ := listItems_eq parses anew answers scope inText (stop - first + 1)
        first marker false progress (tokens ++ [listOpening marker scope.level])
      have begun : (add ⟨scope, progress, tokens⟩
          { kind := (listKinds marker.number.isSome).1
            tag := (if marker.number.isSome then "ol" else "ul").toList
            nesting := .opening
            markup := [marker.mark]
            attrs := startAttributes marker.value }).setParent .list =
          ⟨itemScope scope, progress, tokens ++ [listOpening marker scope.level]⟩ := by
        rw [add_opening _ rfl]
        rfl
      -- Either side is a match, whatever the items are.
      show (true, _) = (true, _)
      dsimp only
      rw [begun, entered, add_closing _ rfl]
      generalize ComponentMarkdown.listItems md tree scope stop (stop - first + 1) first marker
        false = found
      obtain ⟨items, next, tight⟩ := found
      dsimp only [setMap, setParent, moveTo, itemScope]
      rw [Nat.add_sub_cancel, List.append_assoc, List.append_assoc, List.singleton_append,
        List.cons_append, modify_length_append, tokens_list]
      cases tight with
      | true => exact congrArg _ (hideItemParagraphs_eq _ _ _ _ _ _ rfl)
      | false => rfl

end

end BlockRun

end ComponentMarkdown
