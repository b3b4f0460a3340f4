import ComponentMarkdown.Proofs.Block.Append
import ComponentMarkdown.Proofs.Block.Lazy
import ComponentMarkdown.Proofs.Block.Outline

/-!
# What follows a paragraph

The rule of paragraphs asks other rules whether a block begins at a line. The answers depend on the
content of the line, and containers around the paragraph see the same content, whatever they make of
it. The file has:

* `Scope.Sees`: the lines of a scope are those of the text behind the marks of quotes;
* `Scope.BeginsBlock`, which asks for the content of a line only, and `paragraphEnd_ends`;
* `DividesBlock` and `DividesBlocks`: what the tokens of blocks say about where paragraphs end, with
  a line that may be left open behind the last of them;
* how this holds for quotes, for lists and for blocks one after the other;
* `paragraphs_apart`, the result for the tokens of a text.
-/

namespace ComponentMarkdown

variable {md : Markdown} {source : Text} {scope : Scope} {quotes first stop number : Nat}

/-! ## What a scope sees of a text -/

/-- Behind line `first`, the scope sees the lines of the text without the marks of its quotes, or
lines with content that go on lazily. -/
def Scope.Sees (scope : Scope) (source : Text) (quotes first stop : Nat) : Prop :=
  ∀ number, first < number → number < stop →
    HasContent source quotes number (scope.content number) ∧ 0 ≤ (scope.line number).columns ∨
      scope.isEmpty number = false ∧ (scope.line number).columns < 0

namespace Scope.Sees

theorem mono (sees : scope.Sees source quotes first stop) {later earlier : Nat}
    (behind : first ≤ later) (inWindow : earlier ≤ stop) :
    scope.Sees source quotes later earlier :=
  fun number begins ends =>
    sees number (Nat.lt_of_le_of_lt behind begins) (Nat.lt_of_lt_of_le ends inWindow)

theorem blank (sees : scope.Sees source quotes first stop) (behind : first < number)
    (inWindow : number < stop) (empty : scope.isEmpty number = true) :
    HasContent source quotes number [] := by
  rcases sees number behind inWindow with ⟨content, -⟩ | ⟨filled, -⟩
  · rwa [show scope.content number = [] from List.isEmpty_iff.mp empty] at content
  · rw [filled] at empty
    cases empty

theorem content (sees : scope.Sees source quotes first stop) (behind : first < number)
    (inWindow : number < stop) (inside : scope.isDedented number = false) :
    HasContent source quotes number (scope.content number) := by
  rcases sees number behind inWindow with ⟨content, -⟩ | ⟨-, isLazy⟩
  · exact content
  · have indented := Int.not_lt.mp (of_decide_eq_false inside)
    omega

end Scope.Sees

theorem hasContent_ofText {start : Nat} {text : Text} {ended : Bool}
    (found : source.splitLines[number]? = some text) :
    HasContent source 0 number (Line.ofText start text ended).content := by
  refine ⟨text.takeWhile isSpaceOrTab, ?_, ?_, ?_⟩
  · rw [found]
    exact congrArg some List.takeWhile_append_dropWhile.symm
  · exact fun c member => .inl (List.mem_takeWhile_imp member)
  · refine List.count_eq_zero.mpr fun member => ?_
    cases List.mem_takeWhile_imp member

/-- The lines of a text are its pieces. -/
theorem exists_ofText (start : Nat) {texts : List Text} {line : Line}
    (found : (linesFrom start texts)[number]? = some line) :
    ∃ start text ended, texts[number]? = some text ∧ line = Line.ofText start text ended := by
  induction texts generalizing start number with
  | nil => cases found
  | cons text texts ih =>
    cases texts with
    | nil =>
      rw [linesFrom] at found
      split at found
      · cases found
      · cases number with
        | zero => exact ⟨start, text, false, rfl, (Option.some.inj found).symm⟩
        | succ number => cases found
    | cons other texts =>
      cases number with
      | zero => exact ⟨start, text, true, rfl, (Option.some.inj found).symm⟩
      | succ number => exact ih _ found

theorem sees_ofSource (source : Text) (first : Nat) :
    (Scope.ofSource source).Sees source 0 first (Scope.ofSource source).lines.size := by
  intro number _ inText
  obtain ⟨start, text, ended, found, isLine⟩ := @exists_ofText number 0 source.splitLines
    ((Scope.ofSource source).line number) (by
      rw [Scope.line_eq_getElem _ inText, ← List.getElem?_toArray]
      exact Array.getElem?_eq_getElem inText)
  refine .inl ?_
  rw [Scope.content, isLine]
  exact ⟨hasContent_ofText found, Int.natCast_nonneg _⟩

/-! ## Lines of quotes -/

/-- What a quote makes of a line of the scope: it drops the mark, or the line has content and goes
on lazily. -/
def Scope.ShowsInQuote (scope : Scope) (number : Nat) (line : Line) : Prop :=
  (∃ behind, scope.content number = '>' :: behind ∧ scope.isDedented number = false ∧
      line = unquote (scope.line number) behind) ∨
    scope.isEmpty number = false ∧ line = { scope.line number with columns := -1 }

theorem showsInQuote_quoteLines (md : Markdown) (scope : Scope) (stop fuel : Nat)
    (lastEmpty : Bool) (next : Nat) {index : Nat} {line : Line}
    (found : (quoteLines md scope stop fuel lastEmpty next)[index]? = some line) :
    scope.ShowsInQuote (next + index) line := by
  induction fuel generalizing lastEmpty next index with
  | zero => cases found
  | succ fuel ih =>
    -- A line in front of the others.
    have cons {first : Line} {lastEmpty : Bool} (here : scope.ShowsInQuote next first)
        (found :
          (first :: quoteLines md scope stop fuel lastEmpty (next + 1))[index]? = some line) :
        scope.ShowsInQuote (next + index) line := by
      cases index with
      | zero => exact Option.some.inj found ▸ here
      | succ index =>
        have others := ih lastEmpty (next + 1) found
        rwa [Nat.add_right_comm, Nat.add_assoc] at others
    unfold quoteLines at found
    split at found
    · cases found
    · dsimp only at found
      split at found
      · cases found
      · next mark behind content =>
        split at found
        · next isMarked =>
          rw [Bool.and_eq_true, beq_iff_eq, Bool.not_eq_true'] at isMarked
          obtain ⟨rfl, inside⟩ := isMarked
          exact cons (.inl ⟨behind, content, inside, rfl⟩) found
        · split at found
          · cases found
          · exact cons (.inr ⟨congrArg List.isEmpty content, rfl⟩) found

/-- May a quote end at the line? It may do so where its container ends, before an empty line or
behind one, and where a block begins. -/
def Scope.EndsQuote (md : Markdown) (scope : Scope) (stop : Nat) (lastEmpty : Bool)
    (number : Nat) : Prop :=
  stop ≤ number ∨ scope.isEmpty number = true ∨ lastEmpty = true ∨
    endsAt md "blockquote" { scope with indent := 0, parent := .blockquote } number = true

theorem endsQuote_quoteLines (md : Markdown) (scope : Scope) (stop fuel : Nat) (lastEmpty : Bool)
    (next : Nat) (enough : stop - next ≤ fuel) :
    let lines := quoteLines md scope stop fuel lastEmpty next
    scope.EndsQuote md stop ((lines.getLast?.map Line.isEmpty).getD lastEmpty)
      (next + lines.length) := by
  induction fuel generalizing lastEmpty next with
  | zero => exact .inl (Nat.sub_eq_zero_iff_le.mp (Nat.le_zero.mp enough))
  | succ fuel ih =>
    -- A line in front of the others.
    have cons (first : Line) :
        let lines := first :: quoteLines md scope stop fuel first.isEmpty (next + 1)
        scope.EndsQuote md stop ((lines.getLast?.map Line.isEmpty).getD lastEmpty)
          (next + lines.length) := by
      have others := ih first.isEmpty (next + 1) (by omega)
      generalize quoteLines md scope stop fuel first.isEmpty (next + 1) = lines at others
      dsimp only at others ⊢
      rw [List.length_cons, List.getLast?_cons, ← Nat.add_assoc, Nat.add_right_comm]
      cases last : lines.getLast? <;> simpa [last] using others
    unfold quoteLines
    split
    · next atEnd => exact .inl atEnd
    · dsimp only
      split
      · next content => exact .inr (.inl (congrArg List.isEmpty content))
      · next mark behind content =>
        split
        · exact cons (unquote (scope.line next) behind)
        · split
          · next ends => exact .inr (.inr (Bool.or_eq_true_iff.mp ends))
          · have filled : Line.isEmpty { scope.line next with columns := -1 } = false :=
              congrArg List.isEmpty content
            have others := cons { scope.line next with columns := -1 }
            rwa [filled] at others

/-! ## Where a paragraph ends -/

/-- The content of the line begins a block, of whatever indentation. -/
def Scope.BeginsBlock (md : Markdown) (scope : Scope) (number : Nat) : Prop :=
  fenceOpening? (scope.content number) ≠ none ∨ (scope.content number).head? = some '>' ∨
    breakMarks? (scope.content number) ≠ none ∨ Marker.of? (scope.content number) ≠ none ∨
      headingDepth? (scope.content number) ≠ none ∨ (openTagAt? md scope number).isSome = true

theorem Scope.BeginsBlock.filled (begins : scope.BeginsBlock md number) :
    scope.isEmpty number = false := by
  cases empty : scope.isEmpty number with
  | false => rfl
  | true =>
    rw [BeginsBlock, openTagAt?, show scope.content number = [] from List.isEmpty_iff.mp empty]
      at begins
    simp [fenceOpening?, breakMarks?, Marker.of?, Marker.ordered?, Marker.bullet?, headingDepth?,
      Text.runLength] at begins

theorem Scope.BeginsBlock.congr {other : Scope} (begins : scope.BeginsBlock md number)
    (content : other.content number = scope.content number) : other.BeginsBlock md number := by
  rw [BeginsBlock, openTagAt?, content]
  exact begins

theorem beginsBlock_of_endsAt {name : String} (rules : md.blockChain name = BlockRule.enders)
    (ends : endsAt md name scope number = true) : scope.BeginsBlock md number := by
  rw [endsAt, rules, List.any_eq_true] at ends
  obtain ⟨rule, member, opens⟩ := ends
  rw [BlockRule.enders] at member
  simp only [List.mem_cons, List.not_mem_nil, or_false] at member
  rcases member with rfl | rfl | rfl | rfl | rfl | rfl
  · exact .inl (Option.isSome_iff_ne_none.mp (Bool.and_eq_true_iff.mp opens).2)
  · exact .inr (.inl (beq_iff_eq.mp (Bool.and_eq_true_iff.mp opens).2))
  · have opens : (hr? scope number).isSome = true := opens
    rw [isSome_hr?, Bool.and_eq_true] at opens
    exact .inr (.inr (.inl (Option.isSome_iff_ne_none.mp opens.2)))
  · refine .inr (.inr (.inr (.inl fun noMarker => ?_)))
    have isMarked := (Bool.and_eq_true_iff.mp opens).2
    rw [noMarker] at isMarked
    cases isMarked
  · exact .inr (.inr (.inr (.inr (.inr opens))))
  · exact .inr (.inr (.inr (.inr (.inl (Option.isSome_iff_ne_none.mp
      (Bool.and_eq_true_iff.mp opens).2)))))

/-- A paragraph begins at such a line only if the line begins with a tag. -/
theorem Scope.BeginsBlock.tag (begins : scope.BeginsBlock md number)
    (ordinary : scope.IsOrdinary number) :
    (scope.content number).head? = some '<' ∧
      (md.grammar.openTag .block (scope.content number).trim).isSome = true := by
  rcases begins with fence | quote | hr | list | heading | tag
  · exact absurd ordinary.fence fence
  · exact absurd quote ordinary.quote
  · exact absurd ordinary.hr hr
  · exact absurd ordinary.list list
  · exact absurd ordinary.heading heading
  · rw [openTagAt?] at tag
    split at tag
    · next opens => exact ⟨beq_iff_eq.mp opens, tag⟩
    · cases tag

theorem Scope.Sees.beginsTag (sees : scope.Sees source quotes first stop) (behind : first < number)
    (inWindow : number < stop) (inside : scope.isDedented number = false)
    (begins : scope.BeginsBlock md number) (ordinary : scope.IsOrdinary number) :
    BeginsTag md source quotes number :=
  ⟨_, sees.content behind inWindow inside, begins.tag ordinary⟩

/-- The lines of a paragraph have content, and it ends with its container, before an empty line or
where a block begins. -/
theorem paragraphEnd_ends (rules : md.blockChain "paragraph" = BlockRule.enders) (fuel next : Nat)
    (enough : stop - next ≤ fuel) (ordered : next ≤ stop) :
    let behind := paragraphEnd md scope stop fuel next
    (∀ number, next ≤ number → number < behind → scope.isEmpty number = false) ∧
      (behind = stop ∨ scope.isEmpty behind = true ∨ scope.BeginsBlock md behind) := by
  induction fuel generalizing next with
  | zero =>
    have atEnd : next = stop := by omega
    exact ⟨fun number begins ends => absurd ends (Nat.not_lt_of_le begins), .inl atEnd⟩
  | succ fuel ih =>
    -- The paragraph goes on behind a line with content.
    have goesOn (inWindow : next < stop) (filled : scope.isEmpty next = false) := by
      obtain ⟨allFilled, ends⟩ := ih (next + 1) (by omega) inWindow
      have filled : ∀ number, next ≤ number →
          number < paragraphEnd md scope stop fuel (next + 1) → scope.isEmpty number = false := by
        intro number begins upTo
        rcases Nat.eq_or_lt_of_le begins with rfl | further
        · exact filled
        · exact allFilled number further upTo
      exact And.intro filled ends
    have here (ends : next = stop ∨ scope.isEmpty next = true ∨ scope.BeginsBlock md next) :
        (∀ number, next ≤ number → number < next → scope.isEmpty number = false) ∧
          (next = stop ∨ scope.isEmpty next = true ∨ scope.BeginsBlock md next) :=
      ⟨fun number begins upTo => absurd upTo (Nat.not_lt_of_le begins), ends⟩
    unfold paragraphEnd
    split
    · next atEnd =>
      rw [Bool.or_eq_true, decide_eq_true_eq] at atEnd
      exact here (atEnd.imp (Nat.le_antisymm ordered) .inl)
    · next inside =>
      rw [Bool.or_eq_true, decide_eq_true_eq, not_or, Nat.not_le, Bool.not_eq_true] at inside
      split
      · exact goesOn inside.1 inside.2
      · split
        · next ends => exact here (.inr (.inr (beginsBlock_of_endsAt rules ends :)))
        · exact goesOn inside.1 inside.2

/-! ## What follows a block -/

/-- A paragraph behind line `first` may end before line `number`: the line behind it lies behind the
container, or a block begins there. -/
structure Scope.Cuts (md : Markdown) (scope : Scope) (first stop number : Nat) : Prop where
  behind : first < number
  filled : scope.isEmpty (number - 1) = false
  here : number = stop ∨ number < stop ∧ scope.BeginsBlock md number

theorem Scope.Cuts.mono (cuts : scope.Cuts md first stop number) {earlier : Nat}
    (before : earlier ≤ first) : scope.Cuts md earlier stop number :=
  { cuts with behind := Nat.lt_of_le_of_lt before cuts.behind }

/-- The block that a rule makes at line `first`. Where a paragraph ends, blocks behind it may
begin. -/
structure DividesBlock (md : Markdown) (source : Text) (scope : Scope) (quotes first stop : Nat)
    (made : Made) : Prop where
  divides : ∀ level, Divides md source quotes
    (fun number => number = made.2.line ∧ scope.Cuts md first stop number)
    ((made.1.tokens level).map Token.outline)
  ordinary : ∀ {text span hidden}, made.1 = .paragraph text span hidden → scope.IsOrdinary first
  ends : ∀ {text span hidden}, made.1 = .paragraph text span hidden →
    made.2.line = stop ∨ scope.isEmpty made.2.line = true ∨ scope.BeginsBlock md made.2.line

/-- The blocks of a scope. Where they end before the end of the scope, the line is dedented. -/
def DividesBlocks (md : Markdown) (source : Text) (scope : Scope) (quotes first stop : Nat)
    (found : List Block × Progress) : Prop :=
  ∀ level, Divides md source quotes
    (fun number => number = found.2.line ∧ scope.Cuts md first stop number ∧
      (number < stop → scope.isDedented number = true))
    ((Block.allTokens level found.1).map Token.outline)

/-- Parsing divides the lines of every scope. -/
def DividesScopes (md : Markdown) (source : Text) (depth : Nat) (tree : ParseBlocks) : Prop :=
  ∀ scope quotes progress first stop, first < stop → stop ≤ scope.lines.size →
    md.maxNesting ≤ scope.level + depth → scope.Sees source quotes first stop →
      DividesBlocks md source scope quotes first stop (tree scope progress first stop)

section

variable {tree : ParseBlocks} {depth : Nat} {progress : Progress} {made : Made}

theorem DividesBlock.of_ne (notParagraph : ∀ text span hidden, made.1 ≠ .paragraph text span hidden)
    (divides : ∀ level, Divides md source quotes
      (fun number => number = made.2.line ∧ scope.Cuts md first stop number)
      ((made.1.tokens level).map Token.outline)) :
    DividesBlock md source scope quotes first stop made where
  divides := divides
  ordinary isParagraph := absurd isParagraph (notParagraph _ _ _)
  ends isParagraph := absurd isParagraph (notParagraph _ _ _)

/-- A block that is no paragraph and no container. -/
theorem dividesBlock_plain {block : Block} (isPlain : block.IsPlain)
    (notParagraph : ∀ text span hidden, block ≠ .paragraph text span hidden) :
    DividesBlock md source scope quotes first stop (block.made progress) := by
  refine .of_ne notParagraph fun level => ?_
  show Divides md source quotes _ ((block.tokens level).map Token.outline)
  cases block with
  | paragraph text span hidden => exact absurd rfl (notParagraph text span hidden)
  | blockquote | list => exact isPlain.elim
  | heading | code | fence | hr | embedded =>
    refine .of_forall_ne ?_ rfl
    simp [Block.tokens, encloseBlock, Token.outline, blockToken, inlineToken]

theorem dividesBlock_paragraph (rules : md.blockChain "paragraph" = BlockRule.enders)
    (inWindow : first < stop) (sees : scope.Sees source quotes first stop)
    (ordinary : scope.IsOrdinary first) :
    DividesBlock md source scope quotes first stop
      ((paragraph md scope first stop).made progress) := by
  have ⟨behind, inside⟩ := paragraphEnd_bounds md scope (stop - first)
    (show first + 1 ≤ stop from inWindow)
  have ⟨allFilled, ends⟩ := @paragraphEnd_ends md scope stop rules (stop - first) (first + 1)
    (by omega) inWindow
  refine ⟨fun level => .paragraph ?_, fun _ => ordinary, fun _ => ends⟩
  dsimp only [Block.made, paragraph, Block.span]
  generalize paragraphEnd md scope stop (stop - first) (first + 1) = next at *
  have filled : scope.isEmpty (next - 1) = false := by
    rcases Nat.eq_or_lt_of_le (Nat.le_sub_one_of_lt behind) with same | further
    · exact same ▸ ordinary.filled
    · exact allFilled (next - 1) further (Nat.sub_one_lt_of_lt behind)
  rcases ends with atEnd | empty | begins
  · exact .inr ⟨rfl, behind, filled, .inl atEnd⟩
  · rcases Nat.eq_or_lt_of_le inside with atEnd | before
    · exact .inr ⟨rfl, behind, filled, .inl atEnd⟩
    · exact .inl ⟨quotes, Nat.le_refl _, sees.blank behind before empty⟩
  · rcases Nat.eq_or_lt_of_le inside with atEnd | before
    · exact .inr ⟨rfl, behind, filled, .inl atEnd⟩
    · exact .inr ⟨rfl, behind, filled, .inr ⟨before, begins⟩⟩

/-! ## Quotes -/

/-- Behind its mark, a line of a quote is its content behind blanks. -/
theorem exists_unquote (line : Line) (behind : Text) :
    ∃ blanks, behind = blanks ++ (unquote line behind).content ∧
      ∀ c ∈ blanks, isSpaceOrTab c = true := by
  have parted (rest : Text) : ∃ blanks, rest = blanks ++ rest.dropWhile isSpaceOrTab ∧
      ∀ c ∈ blanks, isSpaceOrTab c = true :=
    ⟨rest.takeWhile isSpaceOrTab, List.takeWhile_append_dropWhile.symm,
      fun c member => List.mem_takeWhile_imp member⟩
  unfold unquote
  cases behind with
  | nil => exact ⟨[], rfl, List.forall_mem_nil _⟩
  | cons c rest =>
    by_cases blank : isSpaceOrTab c = true
    · obtain ⟨blanks, isRest, areBlanks⟩ := parted rest
      simp only [blank, if_true]
      exact ⟨c :: blanks, congrArg (c :: ·) isRest, List.forall_mem_cons.mpr ⟨blank, areBlanks⟩⟩
    · simp only [if_neg blank]
      exact parted (c :: rest)

theorem hasContent_unquote {line : Line} {behind : Text}
    (marked : HasContent source quotes number ('>' :: behind)) :
    HasContent source (quotes + 1) number (unquote line behind).content := by
  obtain ⟨marks, found, areMarks, count⟩ := marked
  obtain ⟨blanks, isBehind, areBlanks⟩ := exists_unquote line behind
  refine ⟨marks ++ '>' :: blanks, ?_, ?_, ?_⟩
  · rw [found, List.append_assoc, List.cons_append, ← isBehind]
  · intro c member
    rcases List.mem_append.mp member with member | member
    · exact areMarks c member
    · rcases List.mem_cons.mp member with rfl | member
      · exact .inr rfl
      · exact .inl (areBlanks c member)
  · have noMark : blanks.count '>' = 0 := List.count_eq_zero.mpr fun member => by
      cases areBlanks '>' member
    rw [List.count_append, List.count_cons_self, count, noMark]

theorem sees_inQuote (sees : scope.Sees source quotes first stop)
    (inText : stop ≤ scope.lines.size) {lines : List Line} (fits : first + lines.length ≤ stop)
    (shows : ∀ index line, lines[index]? = some line → scope.ShowsInQuote (first + index) line)
    (level : Nat) :
    Scope.Sees ⟨replaceLines scope.lines first lines, 0, .blockquote, level⟩ source (quotes + 1)
      first (first + lines.length) := by
  intro number behind inWindow
  obtain ⟨index, rfl⟩ := Nat.exists_eq_add_of_le (Nat.le_of_lt behind)
  have inLines : index < lines.length := Nat.lt_of_add_lt_add_left inWindow
  have found := List.getElem?_eq_getElem inLines
  have isLine := line_replaceLines found (Nat.le_trans fits inText) 0 .blockquote level
  rcases shows index _ found with ⟨rest, content, inside, isInner⟩ | ⟨filled, isInner⟩
  · refine .inl ?_
    rw [Scope.content, isLine, isInner]
    have here := sees.content behind (Nat.lt_of_lt_of_le inWindow fits) inside
    rw [content] at here
    exact ⟨hasContent_unquote here, Int.natCast_nonneg _⟩
  · refine .inr ?_
    rw [Scope.isEmpty, isLine, isInner]
    exact ⟨filled, Int.negSucc_lt_zero 0⟩

/-- What is left open at the end of a quote is left open behind it, or an empty line follows. -/
theorem cuts_of_quote (enders : md.blockChain "blockquote" = BlockRule.enders)
    (sees : scope.Sees source quotes first stop) (inText : stop ≤ scope.lines.size)
    {lines : List Line} (fits : first + lines.length ≤ stop)
    (shows : ∀ index line, lines[index]? = some line → scope.ShowsInQuote (first + index) line)
    (ends : scope.EndsQuote md stop ((lines.getLast?.map Line.isEmpty).getD false)
      (first + lines.length)) {level : Nat} :
    let inner : Scope := ⟨replaceLines scope.lines first lines, 0, .blockquote, level⟩
    inner.Cuts md first (first + lines.length) number →
      (number < first + lines.length → inner.isDedented number = true) →
        HasContent source quotes number [] ∨ scope.Cuts md first stop number := by
  intro inner cuts dedented
  have shown (number : Nat) (behind : first ≤ number) (inLines : number < first + lines.length) :
      ∃ line, inner.line number = line ∧ scope.ShowsInQuote number line := by
    obtain ⟨index, rfl⟩ := Nat.exists_eq_add_of_le behind
    have found := List.getElem?_eq_getElem (Nat.lt_of_add_lt_add_left inLines)
    exact ⟨_, line_replaceLines found (Nat.le_trans fits inText) 0 .blockquote level,
      shows index _ found⟩
  have filled : scope.isEmpty (number - 1) = false := by
    have upTo : number ≤ first + lines.length := by
      rcases cuts.here with atEnd | ⟨before, -⟩
      · exact Nat.le_of_eq atEnd
      · exact Nat.le_of_lt before
    obtain ⟨-, -, ⟨behind, content, -⟩ | ⟨filled, -⟩⟩ := shown (number - 1)
      (Nat.le_sub_one_of_lt cuts.behind) (by have := cuts.behind; omega)
    · exact congrArg List.isEmpty content
    · exact filled
  rcases cuts.here with atEnd | ⟨before, begins⟩
  · rcases Nat.eq_or_lt_of_le (atEnd ▸ fits) with same | inWindow
    · exact .inr ⟨cuts.behind, filled, .inl same⟩
    · have lastFilled : (lines.getLast?.map Line.isEmpty).getD false = false := by
        cases last : lines.getLast? with
        | none => rfl
        | some line =>
          have isLast := last
          rw [List.getLast?_eq_getElem?] at isLast
          have isLine := line_replaceLines isLast (Nat.le_trans fits inText) 0 .blockquote level
          have notEmpty : inner.isEmpty (number - 1) = false := cuts.filled
          have begins := cuts.behind
          rw [show number - 1 = first + (lines.length - 1) by omega, Scope.isEmpty,
            isLine] at notEmpty
          exact notEmpty
      rw [← atEnd, lastFilled] at ends
      rcases ends with beyond | empty | empty | ends
      · exact absurd inWindow (Nat.not_lt_of_le beyond)
      · exact .inl (sees.blank cuts.behind inWindow empty)
      · cases empty
      · exact .inr ⟨cuts.behind, filled, .inr ⟨inWindow, (beginsBlock_of_endsAt enders ends :)⟩⟩
  · obtain ⟨line, isLine, shows⟩ := shown number (Nat.le_of_lt cuts.behind) before
    rcases shows with ⟨behind, -, -, rfl⟩ | ⟨-, rfl⟩
    · -- Behind its mark, a line of the quote is not dedented.
      have isDedented := dedented before
      rw [Scope.isDedented, isLine] at isDedented
      exact absurd (of_decide_eq_true isDedented) (Int.not_lt.mpr (Int.natCast_nonneg _))
    · refine .inr ⟨cuts.behind, filled, .inr ⟨Nat.lt_of_lt_of_le before fits, ?_⟩⟩
      exact begins.congr ((congrArg Line.content isLine).symm :)

theorem dividesBlock_blockquote (enders : md.blockChain "blockquote" = BlockRule.enders)
    (divides : DividesScopes md source depth tree)
    (levels : md.maxNesting ≤ scope.level + (depth + 1)) (inWindow : first < stop)
    (inText : stop ≤ scope.lines.size) (inside : scope.isDedented first = false)
    (sees : scope.Sees source quotes first stop)
    (matched : blockquote? md tree scope progress first stop = some made) :
    DividesBlock md source scope quotes first stop made := by
  obtain ⟨opens, rfl⟩ := blockquote?_eq_some matched
  have fits := BlockRun.quoteLines_length md scope (stop - first) false (Nat.le_of_lt inWindow)
  have ends := endsQuote_quoteLines md scope stop (stop - first) false first (Nat.le_refl _)
  have shows := @showsInQuote_quoteLines md scope stop (stop - first) false first
  obtain ⟨behind, more, isLines⟩ := exists_quoteLines md opens inside inWindow
  have begins : first < first + (quoteLines md scope stop (stop - first) false first).length := by
    rw [isLines, List.length_cons]
    omega
  generalize quoteLines md scope stop (stop - first) false first = lines at *
  have size := size_replaceLines scope.lines first lines
  have body := divides ⟨replaceLines scope.lines first lines, 0, .blockquote, scope.level + 1⟩
    (quotes + 1) progress first (first + lines.length) begins (size ▸ Nat.le_trans fits inText)
    (by dsimp only; omega) (sees_inQuote sees inText fits (fun _ _ => shows) _)
  refine .of_ne (fun _ _ _ same => by cases same) fun level =>
    .blockquote ((body (level + 1)).mono ?_)
  rintro number ⟨isBehind, cuts, dedented⟩
  rcases cuts_of_quote enders sees inText fits (fun _ _ => shows) ends cuts dedented with
    empty | cuts
  · exact .inl ⟨quotes, Nat.le_succ quotes, empty⟩
  · exact .inr ⟨isBehind, cuts⟩

/-! ## Lists -/

/-- Behind its first line, the scope of an item has the lines of the list. -/
theorem line_setIfInBounds {line : Line} {indent : Nat} {parent : Parent} {level next : Nat}
    (inText : number < scope.lines.size) (apart : number ≠ next) :
    Scope.line ⟨scope.lines.setIfInBounds next line, indent, parent, level⟩ number =
      scope.line number := by
  refine Scope.line_congr Array.size_setIfInBounds ?_ (Array.getElem?_setIfInBounds_ne apart.symm)
  rwa [Array.size_setIfInBounds]

theorem divides_itemBlocks (divides : DividesScopes md source depth tree)
    (levels : md.maxNesting ≤ scope.level + (depth + 1)) {next : Nat} (inWindow : next < stop)
    (inText : stop ≤ scope.lines.size) (sees : scope.Sees source quotes next stop)
    (filled : scope.isEmpty next = false) (marker : Marker) (level : Nat) :
    let found := itemBlocks tree scope stop next marker
    Divides md source quotes
      (fun number => number = found.2.line ∧ scope.Cuts md next stop number)
      ((Block.allTokens level found.1).map Token.outline) := by
  unfold itemBlocks
  dsimp only
  split
  · exact .of_forall_ne (List.forall_mem_nil _) rfl
  · have size : (scope.lines.setIfInBounds next (itemLine (scope.line next) marker)).size =
        scope.lines.size := Array.size_setIfInBounds
    have body := divides
      { lines := scope.lines.setIfInBounds next (itemLine (scope.line next) marker)
        indent := itemIndent (scope.line next) marker
        parent := .list
        level := scope.level + 2 }
      quotes ⟨next, true⟩ next stop inWindow (size ▸ inText) (by dsimp only; omega) (by
        intro number behind inWindow
        rw [Scope.content, Scope.isEmpty, line_setIfInBounds (Nat.lt_of_lt_of_le inWindow inText)
          (Nat.ne_of_gt behind)]
        exact sees number behind inWindow)
    refine (body level).mono ?_
    rintro number ⟨isBehind, ⟨behind, innerFilled, here⟩, -⟩
    refine .inr ⟨isBehind, behind, ?_, here.imp_right ?_⟩
    · rcases Nat.eq_or_lt_of_le (Nat.le_sub_one_of_lt behind) with same | further
      · exact same ▸ filled
      · rw [Scope.isEmpty, line_setIfInBounds (by omega) (Nat.ne_of_gt further)] at innerFilled
        exact innerFilled
    · rintro ⟨before, begins⟩
      refine ⟨before, begins.congr (congrArg Line.content ?_)⟩
      exact (line_setIfInBounds (Nat.lt_of_lt_of_le before inText) (Nat.ne_of_gt behind)).symm

theorem filled_of_nextMarker? {marker other : Marker}
    (found : nextMarker? scope marker number = some other) : scope.isEmpty number = false := by
  cases content : scope.content number with
  | cons c behind => exact congrArg List.isEmpty content
  | nil =>
    rw [nextMarker?, content] at found
    split at found <;> cases found

/-- The items of a list begin at their lines, and what is left open at the end of an item is so
where the next one begins, or at the end of the list. -/
theorem divides_listItems (divides : DividesScopes md source depth tree)
    (levels : md.maxNesting ≤ scope.level + (depth + 1)) (inText : stop ≤ scope.lines.size)
    (fuel : Nat) {next : Nat} (enough : stop - next < fuel) (inWindow : next < stop)
    (sees : scope.Sees source quotes next stop) (filled : scope.isEmpty next = false)
    (marker : Marker) (gapBefore : Bool) (mark : Char) (level : Nat) :
    let found := listItems md tree scope stop fuel next marker gapBefore
    let parts := (ListItem.allTokens mark level found.items).map Token.outline
    Divides md source quotes
        (fun number => number = found.next ∧ scope.Cuts md next stop number) parts ∧
      ∃ part ∈ parts, Begins md source next part := by
  induction fuel generalizing next marker gapBefore with
  | zero => exact absurd enough (Nat.not_lt_zero _)
  | succ fuel ih =>
    have body := divides_itemBlocks divides levels inWindow inText sees filled marker (level + 1)
    unfold listItems
    rw [if_neg (Nat.not_le_of_lt inWindow)]
    generalize itemBlocks tree scope stop next marker = made at *
    obtain ⟨blocks, progress⟩ := made
    dsimp only at body ⊢
    generalize isAfter : max progress.line (next + 1) = after
    -- What is left open in the item is so behind it.
    have item : Divides md source quotes
        (fun number => number = after ∧ scope.Cuts md next stop number)
        (((ListItem.mk (marker.number.getD []) blocks (next, after)).tokens mark level).map
          Token.outline) := by
      refine .item (body.mono ?_)
      rintro number ⟨rfl, cuts⟩
      have behind := cuts.behind
      exact .inr ⟨by omega, cuts⟩
    have begins {others : List ListItem} : ∃ part ∈ (ListItem.allTokens mark level
        (.mk (marker.number.getD []) blocks (next, after) :: others)).map Token.outline,
          Begins md source next part := by
      rw [ListItem.allTokens, List.map_append, outline_item]
      exact ⟨_, List.mem_cons_self, begins_of_ne (by decide) (by decide) (next, after)⟩
    split
    · refine ⟨?_, begins⟩
      rw [ListItem.allTokens, ListItem.allTokens, List.append_nil]
      exact item
    · next other following =>
      refine ⟨?_, begins⟩
      split at following
      · cases following
      · next goesOn =>
        simp only [Bool.or_eq_true, decide_eq_true_eq, not_or, Nat.not_le] at goesOn
        have inOthers := goesOn.1.1.1
        have behind : next < after := by omega
        have ⟨others, part, member, begins⟩ := @ih after (by omega) inOthers
          (sees.mono (Nat.le_of_lt behind) (Nat.le_refl _)) (filled_of_nextMarker? following) other
          (decide (1 < progress.line - next) && scope.isEmpty (progress.line - 1))
        rw [ListItem.allTokens, List.map_append]
        refine item.append (others.mono ?_) ?_ ?_
        · rintro number ⟨isBehind, cuts⟩
          exact .inr ⟨isBehind, cuts.mono (Nat.le_of_lt behind)⟩
        · rintro number ⟨rfl, -⟩
          exact .inl ⟨part, member, begins⟩
        · intro before closing opening rest isItem _ closes
          rw [outline_item] at isItem
          cases (List.cons.inj (List.append_inj_right' isItem rfl)).1
          cases closes

theorem outline_tighten (mark : Char) (level : Nat) (items : List ListItem) :
    (ListItem.allTokens mark level (items.map ListItem.tighten)).map Token.outline =
      (ListItem.allTokens mark level items).map Token.outline := by
  have body (level : Nat) (blocks : List Block) :
      (Block.allTokens level (blocks.map Block.hideParagraph)).map Token.outline =
        (Block.allTokens level blocks).map Token.outline := by
    induction blocks with
    | nil => rfl
    | cons block blocks ih =>
      rw [List.map_cons, Block.allTokens, Block.allTokens, List.map_append, List.map_append, ih]
      cases block <;> rfl
  induction items with
  | nil => rfl
  | cons item items ih =>
    obtain ⟨number, blocks, span⟩ := item
    rw [List.map_cons, ListItem.tighten, ListItem.allTokens, ListItem.allTokens, List.map_append,
      List.map_append, ih, outline_item, outline_item, body]

theorem dividesBlock_list (divides : DividesScopes md source depth tree)
    (levels : md.maxNesting ≤ scope.level + (depth + 1)) (inWindow : first < stop)
    (inText : stop ≤ scope.lines.size) (sees : scope.Sees source quotes first stop)
    (filled : scope.isEmpty first = false)
    (matched : list? md tree scope progress first stop = some made) :
    DividesBlock md source scope quotes first stop made := by
  obtain ⟨-, -, matched⟩ := Option.bind_eq_some_iff.mp matched
  obtain ⟨marker, -, matched⟩ := Option.bind_eq_some_iff.mp matched
  cases matched
  refine .of_ne (fun _ _ _ same => by cases same) fun level => .list ?_
  have items := (divides_listItems divides levels inText (stop - first + 1) (Nat.lt_succ_self _)
    inWindow sees filled marker false marker.mark (level + 1)).1
  split
  · rw [outline_tighten]
    exact items
  · exact items

/-! ## Blocks one after the other -/

/-- The chains of the usual rules. -/
structure Markdown.UsualChains (md : Markdown) : Prop where
  main : md.blockChain RuleTable.mainChain = BlockRule.all
  paragraph : md.blockChain "paragraph" = BlockRule.enders
  blockquote : md.blockChain "blockquote" = BlockRule.enders

variable (chains : md.UsualChains) (divides : DividesScopes md source depth tree)
  (levels : md.maxNesting ≤ scope.level + (depth + 1)) (inText : stop ≤ scope.lines.size)
include chains divides levels inText

theorem dividesBlock_run (inWindow : first < stop) (inside : scope.isDedented first = false)
    (filled : scope.isEmpty first = false) (sees : scope.Sees source quotes first stop)
    (matched : (BlockRule.all.findSome? fun rule =>
      runRule md tree rule scope progress first stop) = some made) :
    DividesBlock md source scope quotes first stop made := by
  obtain ⟨rule, -, isMade⟩ := List.exists_of_findSome?_eq_some matched
  cases rule with
  | paragraph =>
    cases isMade
    exact dividesBlock_paragraph chains.paragraph inWindow sees
      (isOrdinary_of_paragraph filled matched).1
  | blockquote =>
    exact dividesBlock_blockquote chains.blockquote divides levels inWindow inText inside sees
      isMade
  | list => exact dividesBlock_list divides levels inWindow inText sees filled isMade
  | code | fence | hr | embedded | heading =>
    obtain ⟨block, isLeaf, rfl⟩ := plain_runRule (by decide) (by decide) isMade
    refine dividesBlock_plain isLeaf.1 ?_
    rintro text span hidden rfl
    exact runRule_special (by decide) isMade

end

section

variable {run : Progress → Nat → Option Made}

/-- Whatever `run` makes at a line of the scope divides the lines. -/
def DividesRun (md : Markdown) (source : Text) (scope : Scope) (quotes bottom stop : Nat)
    (run : Progress → Nat → Option Made) : Prop :=
  ∀ progress first made, bottom ≤ first → first < stop → scope.isDedented first = false →
    scope.isEmpty first = false → run progress first = some made →
      DividesBlock md source scope quotes first stop made

variable (makes : MakesBlocks md scope stop run) (inText : stop ≤ scope.lines.size) {bottom : Nat}
  (divides : DividesRun md source scope quotes bottom stop run)
include makes inText divides

/-- The first of the blocks stands on the first line with content. -/
theorem head_blocksFrom (fuel : Nat) {next : Nat} (behind : bottom ≤ next) (progress : Progress)
    (sawEmpty : Bool) {block : Block} {others : List Block}
    (begins : (blocksFrom md run scope stop fuel progress next sawEmpty).1 = block :: others) :
    let first := scope.skipEmpty next
    first < stop ∧ scope.isDedented first = false ∧ block.span.1 = first ∧
      ∃ behind, DividesBlock md source scope quotes first stop (block, behind) := by
  intro first
  cases fuel with
  | zero => cases begins
  | succ fuel =>
    rcases Nat.lt_or_ge next stop with inWindow | beyond
    · rcases blocksFrom_cases makes inWindow fuel progress sawEmpty with
        ⟨nothing, -⟩ | ⟨nothing, -⟩ | made
      · rw [nothing] at begins
        cases begins
      · rw [nothing] at begins
        cases begins
      · obtain ⟨made, progress, after, tight, sawEmpty, inWindow, takes, ⟨-, inside, isMade⟩, -,
          same⟩ := made
        rw [same] at begins
        cases begins
        have filled := Scope.isEmpty_skipEmpty (Nat.lt_of_lt_of_le inWindow inText)
        have divided := divides _ _ _ (Nat.le_trans behind (scope.le_skipEmpty next)) inWindow
          inside filled isMade
        exact ⟨inWindow, inside, congrArg Prod.fst takes.span, progress, divided⟩
    · rw [blocksFrom_of_le beyond] at begins
      cases begins

/-- Where a paragraph ends, and where the next one begins. -/
theorem apart_blocksFrom (sees : scope.Sees source quotes bottom stop) (fuel : Nat)
    {block : Block} {line after : Nat} (isFirst : bottom ≤ first)
    (takes : block.span = (first, line) ∧ first < line)
    (ends : line = stop ∨ scope.isEmpty line = true ∨ scope.BeginsBlock md line)
    (goesOn : after = line ∨ after = line + 1 ∧ line < stop ∧ scope.isEmpty line = true)
    (progress : Progress) (sawEmpty : Bool) {other : Block} {others : List Block}
    (follows : (blocksFrom md run scope stop fuel progress after sawEmpty).1 = other :: others)
    (isParagraph : ∃ text span hidden, other = .paragraph text span hidden) :
    Apart md source quotes block.span.2 other.span.1 := by
  obtain ⟨isSpan, behind⟩ := takes
  obtain ⟨inWindow, inside, begins, _, here⟩ := head_blocksFrom makes inText divides fuel
    (show bottom ≤ after by omega) progress sawEmpty follows
  have skips := scope.le_skipEmpty after
  have filled := Scope.isEmpty_skipEmpty (Nat.lt_of_lt_of_le inWindow inText)
  rw [isSpan, begins]
  refine ⟨by dsimp only; omega, fun number begins upTo => ?_, fun same => ?_⟩
  · refine sees.blank (by dsimp only at begins; omega) (Nat.lt_trans upTo inWindow) ?_
    rcases Nat.lt_or_ge number after with before | later
    · rcases goesOn with same | ⟨same, -, empty⟩
      · exact absurd begins (Nat.not_le_of_lt (same ▸ before))
      · rwa [show number = line by dsimp only at begins; omega]
    · exact scope.isEmpty_of_skipEmptyUpTo _ later upTo
  · dsimp only at same
    rw [← same] at inWindow inside filled here ⊢
    obtain ⟨text, span, hidden, isParagraph⟩ := isParagraph
    refine sees.beginsTag (Nat.lt_of_le_of_lt isFirst behind) inWindow inside ?_
      (here.ordinary isParagraph)
    rcases ends with atEnd | empty | begins
    · exact absurd atEnd (Nat.ne_of_lt inWindow)
    · rw [filled] at empty
      cases empty
    · exact begins

omit inText in
/-- What is left open behind a block is settled by the next one, or left open behind all. -/
theorem settled_blocksFrom (room : scope.level < md.maxNesting)
    (sees : scope.Sees source quotes bottom stop) {fuel line after : Nat}
    (enough : stop - after < fuel) (isFirst : bottom ≤ first) (cuts : scope.Cuts md first stop line)
    (goesOn : after = line ∨ after = line + 1 ∧ line < stop ∧ scope.isEmpty line = true)
    (tight sawEmpty : Bool) (level : Nat) :
    let found := blocksFrom md run scope stop fuel ⟨after, tight⟩ after sawEmpty
    (∃ part ∈ (Block.allTokens level found.1).map Token.outline, Begins md source line part) ∨
      line = found.2.line ∧ scope.Cuts md bottom stop line ∧
        (line < stop → scope.isDedented line = true) := by
  intro found
  have cuts' := cuts.mono isFirst
  obtain ⟨fuel, rfl⟩ := Nat.exists_eq_add_one_of_ne_zero (Nat.ne_zero_of_lt enough)
  rcases cuts.here with atEnd | ⟨inWindow, begins⟩
  · have same : after = line := goesOn.resolve_right fun gap => absurd gap.2.1 (by omega)
    have nothing : found = ([], ⟨after, tight⟩) := if_pos (by omega)
    exact .inr ⟨by rw [nothing, same], cuts', fun before => absurd atEnd (Nat.ne_of_lt before)⟩
  · have same : after = line := goesOn.resolve_right fun gap => by
      rw [begins.filled] at gap
      cases gap.2.2
    subst same
    have here := scope.skipEmpty_eq begins.filled
    rcases blocksFrom_cases makes inWindow fuel ⟨after, tight⟩ sawEmpty with
      ⟨-, line, ends⟩ | ⟨-, -, tooDeep⟩ | made
    · rw [here] at line ends
      exact .inr ⟨line.symm, cuts', fun _ => ends.resolve_left (Nat.not_le_of_lt inWindow)⟩
    · exact absurd room (Nat.not_lt_of_le tooDeep)
    · obtain ⟨block, behind, _, _, _, -, takes, ⟨-, inside, isMade⟩, -, isFound⟩ := made
      rw [here] at takes inside isMade
      have divided := divides _ _ _ (Nat.le_of_lt (Nat.lt_of_le_of_lt isFirst cuts.behind)) inWindow
        inside begins.filled isMade
      obtain ⟨kind, rest, isParts, notInline, isParagraph⟩ := exists_outline block level
      refine .inl ⟨(kind, some block.span), ?_, notInline, ⟨behind.line, ?_⟩, fun opens => ?_⟩
      · rw [show found = _ from isFound, Block.allTokens, List.map_append, isParts]
        exact List.mem_cons_self
      · exact congrArg some takes.span
      · obtain ⟨text, span, hidden, isBlock⟩ := isParagraph opens
        exact ⟨quotes, sees.beginsTag cuts'.behind inWindow inside begins
          (divided.ordinary isBlock)⟩

theorem dividesBlocks_blocksFrom (sees : scope.Sees source quotes bottom stop) (fuel : Nat)
    {next : Nat} (enough : stop - next < fuel) (behind : bottom ≤ next) (progress : Progress)
    (sawEmpty : Bool) :
    DividesBlocks md source scope quotes bottom stop
      (blocksFrom md run scope stop fuel progress next sawEmpty) := by
  have nothing {found : List Block × Progress} (noBlocks : found.1 = []) :
      DividesBlocks md source scope quotes bottom stop found := by
    intro level
    rw [noBlocks]
    exact .of_forall_ne (List.forall_mem_nil _) rfl
  induction fuel generalizing next progress sawEmpty with
  | zero => exact absurd enough (Nat.not_lt_zero _)
  | succ fuel ih =>
    rcases Nat.lt_or_ge next stop with inWindow | beyond
    · rcases blocksFrom_cases makes inWindow fuel progress sawEmpty with
        ⟨noBlocks, -⟩ | ⟨noBlocks, -⟩ | made
      · exact nothing noBlocks
      · exact nothing noBlocks
      · obtain ⟨block, made, after, tight, sawEmpty, inWindow, takes, ⟨room, inside, isMade⟩,
          goesOn, isFound⟩ := made
        have skips := scope.le_skipEmpty next
        have filled := Scope.isEmpty_skipEmpty (Nat.lt_of_lt_of_le inWindow inText)
        have first := divides _ _ _ (Nat.le_trans behind skips) inWindow inside filled isMade
        have moved := takes.behind
        dsimp only at moved
        have others := ih (show stop - after < fuel by omega) (by omega) ⟨after, tight⟩ sawEmpty
        intro level
        rw [isFound, Block.allTokens, List.map_append]
        refine (first.divides level).append (others level) ?_ ?_
        · rintro number ⟨rfl, cuts⟩
          exact settled_blocksFrom makes divides room sees (by omega)
            (Nat.le_trans behind skips) cuts goesOn tight sawEmpty level
        · intro before closing opening rest isBlock isOthers closes opens
          obtain ⟨⟨text, span, hidden, isParagraph⟩, rfl⟩ := paragraph_of_closing isBlock closes
          cases follows : (blocksFrom md run scope stop fuel ⟨after, tight⟩ after sawEmpty).1 with
          | nil =>
            rw [follows] at isOthers
            cases isOthers
          | cons other more =>
            obtain ⟨kind, rest, isParts, -, isParagraph'⟩ := exists_outline other level
            rw [follows, Block.allTokens, List.map_append, isParts] at isOthers
            cases isOthers
            exact ⟨[], block.span, other.span, quotes, rfl, rfl, rfl,
              apart_blocksFrom makes inText divides sees fuel (Nat.le_trans behind skips)
                ⟨takes.span, moved⟩ (first.ends isParagraph) goesOn _ _ follows
                (isParagraph' opens)⟩
    · rw [blocksFrom_of_le beyond]
      exact nothing rfl

end

theorem dividesScopes_parseBlocks (chains : md.UsualChains) (source : Text) (depth : Nat) :
    DividesScopes md source depth (parseBlocks md depth) := by
  have paragraphs : .paragraph ∈ md.blockChain RuleTable.mainChain := chains.main ▸ by decide
  induction depth with
  | zero =>
    intro scope quotes progress first stop inWindow inText levels sees
    refine dividesBlocks_blocksFrom (fun room => absurd room (by omega)) inText ?_ sees _ (by omega)
      (Nat.le_refl _) progress false
    intro progress first made _ _ _ _ isMade
    cases isMade
  | succ depth ih =>
    intro scope quotes progress first stop inWindow inText levels sees
    refine dividesBlocks_blocksFrom
      (makesBlocks_rules (takesLines_parseBlocks paragraphs depth) paragraphs levels inText) inText
      ?_ sees _ (by omega) (Nat.le_refl _) progress false
    intro progress number made behind inWindow inside filled isMade
    rw [chains.main] at isMade
    exact dividesBlock_run chains ih levels inText inWindow inside filled
      (sees.mono behind (Nat.le_refl _)) isMade

/-- The blocks of a text. -/
theorem divides_parse (chains : md.UsualChains) (source : Text) :
    Divides md source 0 (· = (linesOf source).length)
      ((Block.allTokens 0 (Block.parse md source)).map Token.outline) := by
  have paragraphs : .paragraph ∈ md.blockChain RuleTable.mainChain := chains.main ▸ by decide
  have size : (Scope.ofSource source).lines.size = (linesOf source).length := rfl
  rcases Nat.eq_zero_or_pos (Scope.ofSource source).lines.size with noLines | hasLines
  · have noBlocks : Block.parse md source = [] := by
      show (parseBlocks md _ (Scope.ofSource source) {} 0 (Scope.ofSource source).lines.size).1 = []
      rw [parseBlocks_of_le md _ _ {} (Nat.le_of_eq noLines)]
    rw [noBlocks]
    exact .of_forall_ne (List.forall_mem_nil _) rfl
  · have divides := dividesScopes_parseBlocks chains source (md.maxNesting + 1)
      (Scope.ofSource source) 0 {} 0 _ hasLines (Nat.le_refl _) (by omega)
      (sees_ofSource source 0)
    refine (divides 0).mono ?_
    rintro number ⟨isBehind, -, -⟩
    exact .inr (isBehind.trans (line_parseScope paragraphs source))

/-! ## Tokens -/

/-- How many quotes are open behind the tokens. -/
def quotesOpen (tokens : List Token) : Nat :=
  tokens.countP (·.kind == .blockquoteOpen) - tokens.countP (·.kind == .blockquoteClose)

theorem eq_quotesOpen {tokens : List Token} {inner : Nat}
    (leads : Leads 0 inner (tokens.map Token.outline)) : inner = quotesOpen tokens := by
  rw [Leads, List.countP_map, List.countP_map] at leads
  exact Nat.eq_sub_of_add_eq (by simpa [Function.comp_def, Token.outline] using leads)

/-- Between two paragraphs of a container there are empty lines, or nothing if the second one begins
with a tag. Behind each paragraph there is the end of the text, an empty line, or a line at which a
block begins that is no paragraph, unless the line begins with a tag. For any grammar of tags, any
transformer and any depth of nesting. -/
theorem paragraphs_apart (md : Markdown) (source : Text) :
    let usual : Markdown := { md with blockRules := ⟨BlockRule.all.map BlockRule.entry⟩ }
    let tokens := BlockRun.parse usual source
    (∀ before closing opening behind, tokens = before ++ closing :: opening :: behind →
      closing.kind = .paragraphClose → opening.kind = .paragraphOpen →
        ∃ others first text span next, before = others ++ [first, text] ∧
          first.kind = .paragraphOpen ∧ first.map = some span ∧ opening.map = some next ∧
          Apart usual source (quotesOpen before) span.2 next.1) ∧
      ∀ before opening behind, tokens = before ++ opening :: behind →
        opening.kind = .paragraphOpen → ∃ span, opening.map = some span ∧
          (span.2 = (linesOf source).length ∨
            (∃ marks, marks ≤ quotesOpen before ∧ HasContent source marks span.2 []) ∨
            ∃ token ∈ behind, Begins usual source span.2 token.outline) := by
  intro usual tokens
  have keeps : usual.KeepsChains := keepsChains_entries md _
  have divides : Divides usual source 0 _ _ := divides_parse ⟨rfl, rfl, rfl⟩ source
  rw [← BlockRun.parse_eq keeps] at divides
  constructor
  · intro before closing opening behind split closes opens
    obtain ⟨others, span, next, inner, isBefore, isNext, leads, apart⟩ :=
      divides.apart (before.map Token.outline) closing.outline opening.outline
        (behind.map Token.outline)
        (by rw [show BlockRun.parse usual source = _ from split, List.map_append]; rfl) closes opens
    obtain ⟨others', pair, rfl, -, isPair⟩ := List.map_eq_append_iff.mp isBefore
    obtain ⟨first, pair, rfl, isFirst, isRest⟩ := List.map_eq_cons_iff.mp isPair
    obtain ⟨text, pair, rfl, -, isNil⟩ := List.map_eq_cons_iff.mp isRest
    cases List.map_eq_nil_iff.mp isNil
    refine ⟨others', first, text, span, next, rfl, congrArg Prod.fst isFirst,
      congrArg Prod.snd isFirst, isNext, ?_⟩
    rwa [← eq_quotesOpen leads]
  · intro before opening behind split opens
    obtain ⟨span, inner, isSpan, -, leads, ends⟩ :=
      divides.ends (before.map Token.outline) opening.outline (behind.map Token.outline)
        (by rw [show BlockRun.parse usual source = _ from split, List.map_append]; rfl) opens
    refine ⟨span, isSpan, ?_⟩
    rw [← eq_quotesOpen leads]
    rcases ends with empty | ⟨part, member, begins⟩ | atEnd
    · exact .inr (.inl empty)
    · obtain ⟨token, isToken, rfl⟩ := List.mem_map.mp member
      exact .inr (.inr ⟨token, isToken, begins⟩)
    · exact .inl atEnd

/-- Two paragraphs of a quote, with a line between them that holds nothing but the mark. -/
theorem paragraphs_apart_quote :
    let md : Markdown :=
      { transform := .ok, blockRules := ⟨BlockRule.all.map BlockRule.entry⟩ }
    let tokens := BlockRun.parse md "> a\n>\n> b\n".toList
    tokens.map Token.outline =
        [(.blockquoteOpen, some (0, 3)), (.paragraphOpen, some (0, 1)), (.inline, some (0, 1)),
          (.paragraphClose, none), (.paragraphOpen, some (2, 3)), (.inline, some (2, 3)),
          (.paragraphClose, none), (.blockquoteClose, none)] ∧
      ∃ first ∈ tokens, first.kind = .paragraphOpen ∧ ∃ span, first.map = some span ∧
        Apart md "> a\n>\n> b\n".toList 1 span.2 2 := by
  intro md tokens
  have parts : tokens.map Token.outline =
      [(.blockquoteOpen, some (0, 3)), (.paragraphOpen, some (0, 1)), (.inline, some (0, 1)),
        (.paragraphClose, none), (.paragraphOpen, some (2, 3)), (.inline, some (2, 3)),
        (.paragraphClose, none), (.blockquoteClose, none)] := by
    decide +kernel
  refine ⟨parts, ?_⟩
  obtain ⟨before, behind, split, isBefore, isBehind⟩ := List.map_eq_append_iff.mp
    (show tokens.map Token.outline =
      [(.blockquoteOpen, some (0, 3)), (.paragraphOpen, some (0, 1)), (.inline, some (0, 1))] ++
        [(.paragraphClose, none), (.paragraphOpen, some (2, 3)), (.inline, some (2, 3)),
          (.paragraphClose, none), (.blockquoteClose, none)] from parts)
  obtain ⟨closing, behind, rfl, isClosing, isBehind⟩ := List.map_eq_cons_iff.mp isBehind
  obtain ⟨opening, behind, rfl, isOpening, -⟩ := List.map_eq_cons_iff.mp isBehind
  obtain ⟨others, first, text, span, next, isOthers, opens, isSpan, isNext, apart⟩ :=
    (paragraphs_apart { transform := .ok } "> a\n>\n> b\n".toList).1 _ _ _ _ split
      (congrArg Prod.fst isClosing) (congrArg Prod.fst isOpening)
  have opened : quotesOpen before = 1 := by
    rw [← eq_quotesOpen (show Leads 0 1 (before.map Token.outline) by rw [isBefore]; rfl)]
  cases isNext.symm.trans (congrArg Prod.snd isOpening)
  rw [opened] at apart
  exact ⟨first, by simp [split, isOthers], opens, span, isSpan, apart⟩

/-- Markup that is refused begins a paragraph right behind another one. -/
theorem paragraphs_refused :
    (BlockRun.parse { transform := .createElement } "a\n<B>\n".toList).map Token.outline =
      [(.paragraphOpen, some (0, 1)), (.inline, some (0, 1)), (.paragraphClose, none),
        (.paragraphOpen, some (1, 2)), (.inline, some (1, 2)), (.paragraphClose, none)] := by
  decide +kernel

end ComponentMarkdown
