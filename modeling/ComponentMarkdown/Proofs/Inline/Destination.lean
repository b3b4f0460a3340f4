import Mathlib.Data.Option.Basic
import Mathlib.Data.List.Infix
import ComponentMarkdown.Compiler
import ComponentMarkdown.Proofs.Bytes.Targets
import ComponentMarkdown.Proofs.Inline.Fits
import ComponentMarkdown.Proofs.Inline.Invariant
import ComponentMarkdown.Proofs.Inline.Rules
import ComponentMarkdown.Proofs.Text.LineEnding
import ComponentMarkdown.Proofs.Text.Reference

/-!
# Bare destinations

The parenthesis that ends a link also ends the destination in front of it. A destination that is
not in angle brackets goes on over parentheses that match. The file has:

* `ParenthesesMatch`, counted in every prefix of a text, and what one character changes;
* `Target.bare?_iff`: the search for the end of a destination follows it;
* `Target.IsBare.read?_of_matches` and `Target.IsBare.matches_of_read?`, the same for a target;
* `InlineRun.parse_x`, where parsing goes on behind a label and its target;
* `parseInline_destination`, the result.
-/

namespace ComponentMarkdown

/-- With `depth` parentheses open before the text, none is closed that is not open, at most `limit`
are open at a time, and none at the end. -/
structure ParenthesesMatch (limit depth : Nat) (s : Text) : Prop where
  ordered : ∀ front, front <+: s → front.count ')' ≤ depth + front.count '('
  shallow : ∀ front, front <+: s → depth + front.count '(' ≤ front.count ')' + limit
  closed : s.count ')' = depth + s.count '('

namespace ParenthesesMatch

variable {limit depth : Nat} {s : Text}

/-- A text has finitely many prefixes. -/
theorem iff_inits :
    ParenthesesMatch limit depth s ↔
      (∀ front ∈ s.inits, front.count ')' ≤ depth + front.count '(' ∧
        depth + front.count '(' ≤ front.count ')' + limit) ∧
      s.count ')' = depth + s.count '(' := by
  constructor
  · intro balanced
    refine ⟨fun front member => ?_, balanced.closed⟩
    have isFront := (List.mem_inits front s).mp member
    exact ⟨balanced.ordered front isFront, balanced.shallow front isFront⟩
  · rintro ⟨fronts, closed⟩
    exact ⟨fun front isFront => (fronts front ((List.mem_inits front s).mpr isFront)).1,
      fun front isFront => (fronts front ((List.mem_inits front s).mpr isFront)).2, closed⟩

instance (limit depth : Nat) (s : Text) : Decidable (ParenthesesMatch limit depth s) :=
  decidable_of_iff' _ iff_inits

theorem nil_iff (inside : depth ≤ limit) : ParenthesesMatch limit depth [] ↔ depth = 0 := by
  constructor
  · exact fun balanced => balanced.closed.symm
  · rintro rfl
    have empty : ∀ front : Text, front <+: [] → front = [] := fun _ => List.prefix_nil.mp
    exact ⟨fun front isFront => by simp [empty front isFront],
      fun front isFront => by simp [empty front isFront], rfl⟩

/-- A prefix of a text is empty or begins with its first character. -/
theorem forall_prefix_cons {holds : Text → Prop} {c : Char} :
    (∀ front, front <+: c :: s → holds front) ↔
      holds [] ∧ ∀ front, front <+: s → holds (c :: front) := by
  constructor
  · intro fronts
    exact ⟨fronts [] List.nil_prefix, fun front isFront =>
      fronts (c :: front) ((List.prefix_cons_inj c).mpr isFront)⟩
  · rintro ⟨empty, fronts⟩ front isFront
    rcases List.prefix_cons_iff.mp isFront with rfl | ⟨rest, rfl, isRest⟩
    · exact empty
    · exact fronts rest isRest

/-- A first character that opens `opened` parentheses and closes `closed` of them. -/
theorem cons_iff {c : Char} {opened closed later : Nat} (opens : List.count '(' [c] = opened)
    (closes : List.count ')' [c] = closed) (balance : later + closed = depth + opened)
    (inside : depth ≤ limit) :
    ParenthesesMatch limit depth (c :: s) ↔ ParenthesesMatch limit later s := by
  have opensFirst (front : Text) : (c :: front).count '(' = opened + front.count '(' := by
    rw [← opens, ← List.count_append, List.singleton_append]
  have closesFirst (front : Text) : (c :: front).count ')' = closed + front.count ')' := by
    rw [← closes, ← List.count_append, List.singleton_append]
  constructor
  · rintro ⟨ordered, shallow, isClosed⟩
    rw [forall_prefix_cons] at ordered shallow
    refine ⟨fun front isFront => ?_, fun front isFront => ?_, ?_⟩
    · have := ordered.2 front isFront
      rw [opensFirst, closesFirst] at this
      omega
    · have := shallow.2 front isFront
      rw [opensFirst, closesFirst] at this
      omega
    · rw [opensFirst, closesFirst] at isClosed
      omega
  · rintro ⟨ordered, shallow, isClosed⟩
    refine ⟨forall_prefix_cons.mpr ⟨Nat.zero_le _, fun front isFront => ?_⟩,
      forall_prefix_cons.mpr ⟨by simpa using inside, fun front isFront => ?_⟩, ?_⟩
    · have := ordered front isFront
      rw [opensFirst, closesFirst]
      omega
    · have := shallow front isFront
      rw [opensFirst, closesFirst]
      omega
    · rw [opensFirst, closesFirst]
      omega

theorem not_opens : ¬ParenthesesMatch limit limit ('(' :: s) := by
  intro balanced
  have first := balanced.shallow ['('] ⟨s, rfl⟩
  rw [List.count_singleton_self, List.count_eq_zero_of_not_mem (by decide), Nat.zero_add] at first
  exact Nat.not_succ_le_self limit first

theorem not_closes : ¬ParenthesesMatch limit 0 (')' :: s) := by
  intro balanced
  exact absurd (balanced.ordered [')'] ⟨s, rfl⟩) (by decide)

end ParenthesesMatch

namespace Target

variable {depth : Nat} {s d raw rest : Text} {c : Char}

theorem cons_singleton_eq_some {more behind : Text} {found : Option (Text × Text)} :
    cons [c] found = some (c :: more, behind) ↔ found = some (more, behind) := by
  cases found with
  | none => exact iff_of_false nofun nofun
  | some read => simp [cons, Prod.ext_iff]

/-- What is read and what is left are the text. -/
theorem bare_append (found : bare? depth s = some (raw, rest)) : raw ++ rest = s := by
  rw [bare_eq] at found
  obtain ⟨⟨level, front, behind⟩, isRead, isFound⟩ := Option.bind_eq_some_iff.mp found
  cases level with
  | zero =>
    cases isFound
    exact (readEscaped_append isRead).symm
  | succ => cases isFound

/-- A bare destination goes up to the parenthesis behind it exactly when its own match. -/
theorem bare?_iff (plain : ∀ c ∈ d, endsBare c = false ∧ c ≠ '\\') (inside : depth ≤ 32) :
    bare? depth (d ++ [')']) = some (d, [')']) ↔ ParenthesesMatch 32 depth d := by
  induction d generalizing depth with
  | nil =>
    rw [ParenthesesMatch.nil_iff inside]
    cases depth with
    | zero => exact iff_of_true rfl rfl
    | succ depth =>
      refine iff_of_false (fun found => ?_) (Nat.succ_ne_zero depth)
      simp [bare?, endsBare, cons] at found
  | cons c d ih =>
    obtain ⟨⟨goesOn, noEscape⟩, others⟩ := List.forall_mem_cons.mp plain
    have here : bare? depth (c :: d ++ [')']) =
        if c == '(' then if depth < 32 then cons [c] (bare? (depth + 1) (d ++ [')'])) else none
        else if c == ')' then
          if depth == 0 then some ([], c :: (d ++ [')']))
          else cons [c] (bare? (depth - 1) (d ++ [')']))
        else cons [c] (bare? depth (d ++ [')'])) := by
      rw [List.cons_append, bare?, goesOn]
      · rfl
      · exact fun _ _ same => absurd same noEscape
    rw [here]
    split
    · next isOpen =>
      obtain rfl := eq_of_beq isOpen
      split
      · next fits =>
        rw [cons_singleton_eq_some, ih others fits]
        exact (ParenthesesMatch.cons_iff rfl rfl rfl inside).symm
      · next full =>
        obtain rfl : depth = 32 := Nat.le_antisymm inside (Nat.le_of_not_lt full)
        exact iff_of_false (by rintro ⟨⟩) ParenthesesMatch.not_opens
    · next notOpen =>
      split
      · next isClose =>
        obtain rfl := eq_of_beq isClose
        cases depth with
        | zero => exact iff_of_false (by rintro ⟨⟩) ParenthesesMatch.not_closes
        | succ depth =>
          have less : depth ≤ 32 := Nat.le_of_succ_le inside
          simp only [Nat.add_one_ne_zero, beq_iff_eq, if_false, Nat.add_sub_cancel]
          rw [cons_singleton_eq_some, ih others less]
          exact (ParenthesesMatch.cons_iff rfl rfl rfl inside).symm
      · next notClose =>
        rw [cons_singleton_eq_some, ih others inside]
        have other {mark : Char} (differs : ¬(c == mark) = true) : List.count mark [c] = 0 :=
          List.count_eq_zero.mpr fun member =>
            differs (beq_iff_eq.mpr (List.mem_singleton.mp member).symm)
        exact (ParenthesesMatch.cons_iff (other notOpen) (other notClose) rfl inside).symm

/-! ## Targets -/

/-- Text in which nothing stands for anything else, and that cannot be a destination in angle
brackets. -/
structure IsBare (d : Text) : Prop where
  plain : ∀ c ∈ d, (0x20 < c.toNat ∧ c.toNat ≠ 0x7F) ∧ c ≠ '\\' ∧ c ≠ '&'
  notAngled : d.head? ≠ some '<'

instance (d : Text) : Decidable (IsBare d) :=
  have : Decidable (∀ c ∈ d, (0x20 < c.toNat ∧ c.toNat ≠ 0x7F) ∧ c ≠ '\\' ∧ c ≠ '&') :=
    List.decidableBAll _ d
  decidable_of_iff
    ((∀ c ∈ d, (0x20 < c.toNat ∧ c.toNat ≠ 0x7F) ∧ c ≠ '\\' ∧ c ≠ '&') ∧ d.head? ≠ some '<')
    ⟨fun ⟨plain, notAngled⟩ => ⟨plain, notAngled⟩, fun ⟨plain, notAngled⟩ => ⟨plain, notAngled⟩⟩

theorem IsBare.goesOn (bare : IsBare d) : ∀ c ∈ d, endsBare c = false ∧ c ≠ '\\' := by
  intro c member
  obtain ⟨⟨visible, notDelete⟩, noEscape, -⟩ := bare.plain c member
  exact ⟨by simp [endsBare, Nat.not_le.mpr visible, notDelete], noEscape⟩

theorem IsBare.isLine (bare : IsBare d) : IsLine d := by
  intro c member
  obtain ⟨⟨visible, -⟩, -⟩ := bare.plain c member
  refine ⟨?_, ?_, ?_⟩ <;> rintro rfl <;> exact absurd visible (by decide)

/-- Without backslashes and ampersands there is nothing to resolve. -/
theorem unescape_eq_self (plain : ∀ c ∈ s, c ≠ '\\' ∧ c ≠ '&') : unescape s = s := by
  have kept : dropEscapes s = s := by
    fun_induction dropEscapes s with
    | case1 c rest punctuation ih => exact absurd rfl (plain '\\' List.mem_cons_self).1
    | case2 c rest other ih => exact absurd rfl (plain '\\' List.mem_cons_self).1
    | case3 c rest noEscape ih => rw [ih (List.forall_mem_cons.mp plain).2]
    | case4 => rfl
  rw [unescape, kept, Reference.decodeAll_eq_self_iff]
  rintro ⟨front, behind, rfl, -⟩
  exact (plain '&' (List.mem_append_right _ List.mem_cons_self)).2 rfl

theorem IsBare.unescape_eq (bare : IsBare d) : unescape d = d :=
  unescape_eq_self fun c member => (bare.plain c member).2

/-- The front of a target is skipped only in front of a blank. -/
theorem IsBare.skipBlanks_eq (bare : IsBare d) : skipBlanks (d ++ [')']) = d ++ [')'] := by
  cases d with
  | nil => rfl
  | cons c d =>
    obtain ⟨⟨visible, -⟩, -⟩ := bare.plain c List.mem_cons_self
    have notBlank : (c == ' ' || c == '\t' || c == '\n') = false := by
      rcases Bool.eq_false_or_eq_true (c == ' ' || c == '\t' || c == '\n') with blank | shown
      · simp only [Bool.or_eq_true, beq_iff_eq] at blank
        rcases blank with (rfl | rfl) | rfl <;> exact absurd visible (by decide)
      · exact shown
    rw [skipBlanks, List.cons_append, List.dropWhile_cons, notBlank]
    rfl

theorem IsBare.destination?_eq (bare : IsBare d) :
    destination? (d ++ [')']) = (do
      let (raw, rest) ← bare? 0 (d ++ [')'])
      guard !raw.isEmpty
      return (unescape raw, rest)) := by
  rw [destination?]
  intro rest same
  cases d with
  | nil => cases same
  | cons c d => exact bare.notAngled (congrArg some (List.cons.inj same).1)

/-- A target whose destination is closed where it should be has nothing else in it. -/
theorem IsBare.read?_of_matches (bare : IsBare d) (balanced : ParenthesesMatch 32 0 d) :
    read? ('(' :: (d ++ [')'])) = some ({ href := d }, []) := by
  rw [read?, bare.skipBlanks_eq]
  split
  · next rest same =>
    cases d with
    | nil =>
      obtain rfl := (List.cons.inj same).2
      rfl
    | cons c d =>
      obtain rfl := (List.cons.inj same).1
      exact absurd balanced ParenthesesMatch.not_closes
  · next notClose =>
    have notEmpty : d.isEmpty = false := by
      cases d with
      | nil => exact absurd rfl (notClose [])
      | cons c d => rfl
    have shown : (d ++ [')']).isEmpty = false := by simp
    have found := (bare?_iff bare.goesOn (Nat.zero_le 32)).mpr balanced
    rw [bare.destination?_eq, found, shown]
    simp only [Option.bind_eq_bind, Option.bind_some, notEmpty, Bool.not_false, guard_true,
      Option.pure_def, bare.unescape_eq]
    rfl

/-- The destination of a target is the whole text in front of the last parenthesis only if its own
match. -/
theorem IsBare.matches_of_read? {target : Target} (bare : IsBare d)
    (found : read? ('(' :: (d ++ [')'])) = some (target, rest)) (whole : target.href = d) :
    ParenthesesMatch 32 0 d := by
  rw [read?, bare.skipBlanks_eq] at found
  split at found
  · obtain ⟨rfl, -⟩ := Prod.mk.inj (Option.some.inj found)
    rw [← whole]
    decide
  · rw [bare.destination?_eq] at found
    simp only [Option.bind_eq_bind, Option.bind_eq_some_iff, Option.pure_def] at found
    obtain ⟨-, -, ⟨href, behind⟩, ⟨⟨raw, left⟩, isBare, -, -, same⟩, found⟩ := found
    obtain ⟨isHref, rfl⟩ := Prod.mk.inj (Option.some.inj same)
    have parts := bare_append isBare
    have plain : ∀ c ∈ raw, c ≠ '\\' ∧ c ≠ '&' := by
      intro c member
      have member : c ∈ d ++ [')'] := parts ▸ List.mem_append_left _ member
      rcases List.mem_append.mp member with member | isClose
      · exact (bare.plain c member).2
      · rw [List.mem_singleton.mp isClose]
        decide
    rw [unescape_eq_self plain] at isHref
    have isTarget : target.href = href := by
      split at found
      · obtain ⟨rfl, -⟩ := Prod.mk.inj (Option.some.inj found)
        rfl
      · cases found
    obtain rfl : raw = d := by rw [isHref, ← isTarget, whole]
    obtain rfl := List.append_cancel_left parts
    exact (bare?_iff bare.goesOn (Nat.zero_le 32)).mp isBare

end Target

namespace InlineRun

variable {md : Markdown} {run : InlineRun} {rest tail : Text}

/-- At an opening bracket no rule but the one for links matches. -/
theorem runRule_bracket (begins : run.cursor.rest = '[' :: rest) (skip : Step)
    (parse : InlineRun → InlineRun) (parseLabel : Text → List Token) {rule : InlineRule}
    (other : rule ≠ .link) : runRule md skip parse parseLabel rule false run = (false, run) := by
  cases rule with
  | link => exact absurd rfl other
  | emphasis => rw [runRule, emphasis, begins]; rfl
  | image => rw [runRule, image, begins]; rfl
  | embedded => rw [runRule, embedded, begins]; rfl
  | text | newline | escape | backticks | autolink | entity => rw [runRule, begins]; rfl

/-- Rules that leave the run alone are passed. -/
theorem firstStep_pass {step : InlineRule → Step} {passed : List InlineRule}
    (fails : ∀ rule ∈ passed, step rule run = (false, run)) (start : Nat)
    (rules : List InlineRule) :
    firstStep step start (passed ++ rules) run = firstStep step start rules run := by
  induction passed with
  | nil => rfl
  | cons rule passed ih =>
    obtain ⟨first, others⟩ := List.forall_mem_cons.mp fails
    rw [List.cons_append, firstStep]
    dsimp only
    rw [first]
    exact ih others

/-- At an opening bracket it is the rule for links that decides. -/
theorem firstStep_bracket (begins : run.cursor.rest = '[' :: rest) {skip : Step}
    {parse : InlineRun → InlineRun} {parseLabel : Text → List Token} {matched : Bool}
    {linked : InlineRun} (isLinked : link skip parse false run = (matched, linked))
    (back : matched = false → linked.cursor.rest = '[' :: rest)
    (forward : matched = true → run.pos < linked.pos) :
    firstStep (fun rule => runRule md skip parse parseLabel rule false) run.pos InlineRule.all
      run = (matched, linked) := by
  let step := fun rule => runRule md skip parse parseLabel rule false
  have here : ∀ rule ∈ [.text, .newline, .escape, .backticks, .emphasis],
      step rule run = (false, run) :=
    fun rule member => runRule_bracket begins skip parse parseLabel (by rintro rfl; simp at member)
  refine (firstStep_pass here run.pos
    [.link, .image, .autolink, .embedded, .entity]).trans ?_
  have atLink : step .link run = (matched, linked) := isLinked
  rw [firstStep]
  dsimp only
  rw [atLink]
  cases matched with
  | true => exact if_pos (by simpa using forward rfl)
  | false =>
    have behind : ∀ rule ∈ [.image, .autolink, .embedded, .entity],
        step rule linked = (false, linked) :=
      fun rule member => runRule_bracket (back rfl) skip parse parseLabel
        (by rintro rfl; simp at member)
    exact firstStep_pass behind run.pos []

/-- What becomes of a label whose end was found. -/
theorem labelled_found {skip : Step} {opening labelEnd : Nat} {searched : InlineRun}
    {write : Target → Nat → Nat → InlineRun → InlineRun}
    (isFound : seekLabelEnd skip (run.posMax - (run.pos + opening) + 1) 1
      { run with pos := run.pos + opening } = (some labelEnd, searched)) :
    labelled skip opening write false run =
      match Target.read? (run.cursor.rest.drop (labelEnd + 1 - run.pos)) with
      | none => (false, { searched with pos := run.pos })
      | some (target, behind) =>
        (true, { write target (run.pos + opening) labelEnd { searched with pos := run.pos } with
                 pos := run.pos + (run.cursor.rest.length - behind.length) }) := by
  rw [labelled]
  dsimp only
  rw [isFound]
  rfl

/-! ## A label of one character -/

/-- The source of a link with that label, from its opening bracket on. -/
def labelX (tail : Text) : Text :=
  '[' :: 'x' :: ']' :: tail

/-- What parsing is once the end of the label was looked for. -/
def searchedX (tail : Text) : InlineRun :=
  { ofSource (labelX tail) with memo := (∅ : Memo).insert 1 ⟨2, true⟩ }

/-- The label is a single plain character. -/
theorem skipNext_x (chain : md.inlineChain = InlineRule.all) (levels : 1 ≤ md.maxNesting) :
    skipNext md { ofSource (labelX tail) with pos := 1 } =
      (true, { searchedX tail with pos := 2 }) := by
  obtain ⟨budget, isBudget⟩ := Nat.exists_eq_add_of_le' levels
  have unknown : (∅ : Memo)[1]? = none := rfl
  rw [skipNext, isBudget]
  dsimp only [ofSource]
  rw [Nat.sub_zero, skipUpTo, recallStep]
  dsimp only
  rw [unknown]
  dsimp only
  rw [recordStep]
  dsimp only
  rw [isBudget, if_pos (Nat.succ_pos budget), chain, InlineRule.all, skipBy]
  rfl

theorem seekLabelEnd_x (chain : md.inlineChain = InlineRule.all) (levels : 1 ≤ md.maxNesting)
    (fuel : Nat) :
    seekLabelEnd (skipNext md) (fuel + 2) 1 { ofSource (labelX tail) with pos := 1 } =
      (some 2, { searchedX tail with pos := 2 }) := by
  have atLabel : ({ ofSource (labelX tail) with pos := 1 } : InlineRun).cursor.rest =
      'x' :: ']' :: tail := by
    simp [cursor, Cursor.inside, ofSource, labelX]
  have atEnd : ({ searchedX tail with pos := 2 } : InlineRun).cursor.rest = ']' :: tail := by
    simp [cursor, Cursor.inside, ofSource, labelX, searchedX]
  rw [seekLabelEnd, atLabel]
  dsimp only
  rw [skipNext_x chain levels]
  change seekLabelEnd (skipNext md) (fuel + 1) 1 { searchedX tail with pos := 2 } = _
  rw [seekLabelEnd, atEnd]
  rfl

theorem link_x (tail : Text) (chain : md.inlineChain = InlineRule.all) (levels : 1 ≤ md.maxNesting)
    (parse : InlineRun → InlineRun) :
    link (skipNext md) parse false (ofSource (labelX tail)) =
      match Target.read? tail with
      | none => (false, searchedX tail)
      | some (target, behind) =>
        (true, { wrapLink parse target 1 2 (searchedX tail) with
                 pos := tail.length + 3 - behind.length }) := by
  have begins : (ofSource (labelX tail)).cursor.rest = labelX tail := by
    simp [cursor, Cursor.inside, ofSource]
  have isLabel : ∀ run : InlineRun, run.cursor.rest = labelX tail →
      link (skipNext md) parse false run = labelled (skipNext md) 1 (wrapLink parse) false run := by
    intro run begins
    rw [link, begins]
    rfl
  rw [isLabel _ begins, labelled_found (seekLabelEnd_x chain levels (tail.length + 1)), begins]
  have behind : (labelX tail).drop (2 + 1 - (ofSource (labelX tail)).pos) = tail := rfl
  rw [behind]
  cases Target.read? tail with
  | none => rfl
  | some read => simp [labelX, searchedX, ofSource]

/-- The tokens of the link. -/
def linkX (target : Target) : List Token :=
  [{ kind := .linkOpen, tag := ['a'], nesting := .opening,
     attrs := target.attrs "href" ++ target.titleAttributes },
   { kind := .text, tag := [], nesting := .selfClosing, level := 1, content := ['x'] },
   { kind := .linkClose, tag := ['a'], nesting := .closing }]

/-- The label is one text, whether its characters are read by a rule or one at a time. -/
theorem parseUpTo_x (tail : Text) (chain : md.inlineChain = InlineRule.all)
    (parseLabel : Text → List Token) (fuel : Nat) (tokens : List Token) (memo : Memo) :
    parseUpTo md parseLabel fuel
        { ofSource (labelX tail) with pos := 1, posMax := 2, level := 1, tokens, memo } =
      { ofSource (labelX tail) with
        pos := 2, posMax := 2, level := 1, memo
        tokens := tokens ++ [{ kind := .text, tag := [], nesting := .selfClosing, level := 1,
                               content := ['x'] }] } := by
  cases fuel with
  | zero => rfl
  | succ fuel =>
    rw [parseUpTo, chain, InlineRule.all, parseBy]
    change (parseChars _ 2 1 _).settle = _
    rw [parseChars]
    by_cases inside : 1 < md.maxNesting
    · simp only [ofSource, inside, if_true]
      rfl
    · simp only [ofSource, inside, if_false]
      rfl

theorem wrapLink_x (chain : md.inlineChain = InlineRule.all) (parseLabel : Text → List Token)
    (fuel : Nat) (target : Target) :
    wrapLink (parseUpTo md parseLabel fuel) target 1 2 (searchedX tail) =
      { searchedX tail with pos := 2, tokens := linkX target } := by
  have body := parseUpTo_x tail chain parseLabel fuel
    [{ kind := .linkOpen, tag := ['a'], nesting := .opening,
       attrs := target.attrs "href" ++ target.titleAttributes }] (searchedX tail).memo
  exact congrArg (fun inside : InlineRun => { inside with posMax := (labelX tail).length }.add
    { kind := .linkClose, tag := ['a'], nesting := .closing }) body

/-! ## The whole text -/

/-- The step that parsing takes while no body has been entered, if `budget + 1` of them may be. -/
def outerStep (md : Markdown) (parseLabel : Text → List Token) (budget : Nat) : Step := fun run =>
  if run.level < md.maxNesting then
    let step := fun rule =>
      runRule md (skipNext md) (parseUpTo md parseLabel budget) parseLabel rule false
    firstStep step run.pos md.inlineChain run
  else (false, run)

theorem Invariant.outerStep {holds : InlineRun → Prop} (invariant : Invariant holds)
    (parseLabel : Text → List Token) (budget : Nat) (kept : holds run) :
    holds (outerStep md parseLabel budget run).2 := by
  unfold InlineRun.outerStep
  split
  · exact invariant.step md parseLabel budget kept
  · exact kept

theorem outerStep_x (chain : md.inlineChain = InlineRule.all) {budget : Nat}
    (levels : md.maxNesting = budget + 1) (parseLabel : Text → List Token) :
    outerStep md parseLabel budget (ofSource (labelX tail)) =
      match Target.read? tail with
      | none => (false, searchedX tail)
      | some (target, behind) =>
        (true, { searchedX tail with
                 pos := tail.length + 3 - behind.length, tokens := linkX target }) := by
  have begins : (ofSource (labelX tail)).cursor.rest = '[' :: 'x' :: ']' :: tail := by
    simp [cursor, Cursor.inside, ofSource, labelX]
  have linked := link_x tail chain (Nat.le_add_left 1 budget |>.trans_eq levels.symm)
    (parseUpTo md parseLabel budget)
  rw [outerStep, if_pos (by rw [levels]; exact Nat.succ_pos budget), chain]
  cases isTarget : Target.read? tail with
  | none =>
    rw [isTarget] at linked
    exact firstStep_bracket begins linked (fun _ => begins) (by rintro ⟨⟩)
  | some found =>
    obtain ⟨target, behind⟩ := found
    rw [isTarget] at linked
    dsimp only at linked
    rw [wrapLink_x chain] at linked
    have shorter := (Target.read_behind isTarget).shorter
    refine firstStep_bracket begins linked (by rintro ⟨⟩) fun _ => ?_
    change 0 < tail.length + 3 - behind.length
    exact Nat.sub_pos_of_lt (Nat.lt_add_right 3 shorter)

theorem parseChars_done {step : Step} {stop fuel : Nat} (ended : stop ≤ run.pos) :
    parseChars step stop fuel run = run := by
  cases fuel with
  | zero => rfl
  | succ fuel => rw [parseChars, if_pos ended]

theorem parse_eq_outer {budget : Nat} (levels : md.maxNesting = budget + 1) (source : Text) :
    parse md source = (parseChars (outerStep md (parseLabels md source.length) budget)
      source.length source.length (ofSource source)).settle.tokens := by
  rw [parse, parseLabels, levels]
  rfl

/-- Parsing goes on behind the first step, or behind the bracket if the step found nothing. -/
theorem parse_x (tail : Text) (chain : md.inlineChain = InlineRule.all)
    (levels : 1 ≤ md.maxNesting) :
    ∃ step : Step, (∀ {holds : InlineRun → Prop} {run : InlineRun}, Invariant holds → holds run →
        holds (step run).2) ∧
      parse md (labelX tail) =
        match Target.read? tail with
        | none =>
          (parseChars step (tail.length + 3) (tail.length + 2)
            { searchedX tail with pos := 1, pending := ['['] }).settle.tokens
        | some (target, behind) =>
          (parseChars step (tail.length + 3) (tail.length + 2)
            { searchedX tail with
              pos := tail.length + 3 - behind.length, tokens := linkX target }).settle.tokens := by
  obtain ⟨budget, isBudget⟩ := Nat.exists_eq_add_of_le' levels
  let step := outerStep md (parseLabels md (labelX tail).length) budget
  refine ⟨step, fun invariant kept => invariant.outerStep _ budget kept, ?_⟩
  have first : step (ofSource (labelX tail)) = _ := outerStep_x chain isBudget _
  have here : ({ searchedX tail with pos := (ofSource (labelX tail)).pos } : InlineRun).peek? =
      some '[' := by
    simp [peek?, cursor, Cursor.inside, searchedX, ofSource, labelX]
  have whole : parse md (labelX tail) =
      (parseChars step (tail.length + 3) (tail.length + 2 + 1)
        (ofSource (labelX tail))).settle.tokens := parse_eq_outer isBudget _
  rw [whole, parseChars, if_neg (by simp [ofSource])]
  dsimp only
  rw [first]
  cases Target.read? tail with
  | none =>
    dsimp only
    rw [if_neg Bool.false_ne_true, here]
    rfl
  | some found => rfl

/-- Without a target the first token is the bracket, as text. -/
theorem parse_x_none (chain : md.inlineChain = InlineRule.all) (levels : 1 ≤ md.maxNesting)
    (noTarget : Target.read? tail = none) :
    ∃ first others, parse md (labelX tail) = first :: others ∧ first.kind = .text := by
  obtain ⟨step, keeps, parsed⟩ := parse_x tail chain levels
  rw [noTarget] at parsed
  rw [parsed]
  refine BeginsWithText.settle ?_
  exact invariant_beginsWithText.parseChars (keeps invariant_beginsWithText) _ _
    (.pending rfl rfl (by decide))

/-- With a target the first tokens are the link, and nothing follows if the target goes up to the
end. -/
theorem parse_x_some (chain : md.inlineChain = InlineRule.all) (levels : 1 ≤ md.maxNesting)
    {target : Target} {behind : Text} (isTarget : Target.read? tail = some (target, behind)) :
    linkX target <+: parse md (labelX tail) ∧
      (behind = [] → parse md (labelX tail) = linkX target) := by
  obtain ⟨step, keeps, parsed⟩ := parse_x tail chain levels
  rw [isTarget] at parsed
  rw [parsed]
  constructor
  · have front := invariant_front (linkX target)
    exact front.settle (front.parseChars (keeps front) _ _ List.prefix_rfl)
  · rintro rfl
    exact congrArg (·.settle.tokens) (parseChars_done (Nat.le_refl (tail.length + 3)))

end InlineRun

/-- A link with a label of one character and a bare destination in the parentheses: it is that
link, and nothing else, exactly when the parentheses of the destination match and are nested at
most 32 deep. -/
theorem parseInline_destination (md : Markdown) (chain : md.inlineChain = InlineRule.all)
    (levels : 1 ≤ md.maxNesting) {d : Text} (bare : Target.IsBare d) :
    md.parseInline ("[x](".toList ++ d ++ [')']) =
        [{ kind := .linkOpen, tag := ['a'], nesting := .opening,
           attrs := [("href".toList, .text d)] },
         { kind := .text, tag := [], nesting := .selfClosing, level := 1, content := ['x'] },
         { kind := .linkClose, tag := ['a'], nesting := .closing }] ↔
      ParenthesesMatch 32 0 d := by
  have isLine : IsLine ("[x](".toList ++ d ++ [')']) :=
    isLine_append.mpr ⟨isLine_append.mpr ⟨by decide, bare.isLine⟩, by decide⟩
  rw [Markdown.parseInline, isLine.normalize_eq, Markdown.inlineTokens]
  change InlineRun.parse md (InlineRun.labelX ('(' :: (d ++ [')']))) =
    InlineRun.linkX { href := d } ↔ _
  constructor
  · intro parsed
    cases isTarget : Target.read? ('(' :: (d ++ [')'])) with
    | none =>
      obtain ⟨first, others, tokens, isText⟩ := InlineRun.parse_x_none chain levels isTarget
      rw [parsed] at tokens
      rw [← (List.cons.inj tokens).1] at isText
      cases isText
    | some found =>
      obtain ⟨target, behind⟩ := found
      obtain ⟨⟨more, front⟩, -⟩ := InlineRun.parse_x_some chain levels isTarget
      rw [parsed] at front
      have attrs := congrArg Token.attrs (List.cons.inj front).1
      have href := AttributeValue.text.inj (Prod.mk.inj (List.cons.inj attrs).1).2
      exact bare.matches_of_read? isTarget href
  · intro balanced
    exact (InlineRun.parse_x_some chain levels (bare.read?_of_matches balanced)).2 rfl

/-- The deepest nesting there may be, reached twice. -/
theorem parseInline_nestedDestination :
    let md : Markdown := { transform := .ok }
    let d := List.replicate 32 '(' ++ "a)(b".toList ++ List.replicate 32 ')'
    Target.IsBare d ∧ md.parseInline ("[x](".toList ++ d ++ [')']) =
      [{ kind := .linkOpen, tag := ['a'], nesting := .opening,
         attrs := [("href".toList, .text d)] },
       { kind := .text, tag := [], nesting := .selfClosing, level := 1, content := ['x'] },
       { kind := .linkClose, tag := ['a'], nesting := .closing }] := by
  intro md d
  have bare : Target.IsBare d := by decide +kernel
  exact ⟨bare, (parseInline_destination md rfl (by decide) bare).mpr (by decide +kernel)⟩

end ComponentMarkdown
