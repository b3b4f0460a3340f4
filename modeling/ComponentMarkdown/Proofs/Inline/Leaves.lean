import ComponentMarkdown.Proofs.Inline.InPlace

/-!
# Texts that the first rules read

The rules for plain text, line ends, backslashes and code spans are tried before all others, and
look at nothing but the text ahead. A text that they read piece by piece has the tokens of these
pieces, for any grammar and any transformer: the other rules are never asked. The file has:

* `leaf?`, what the first rules read, and `Leaves`, texts that are read by them;
* `firstStep_leaf`, one step of a parse, and `parseChars_leaves`, all steps;
* `parse_leaves`, the result.
-/

namespace ComponentMarkdown

/-- What the rules read that are tried before all others. -/
def leaf? (s : Text) : Option Construct :=
  plainRun? s <|> newline? s <|> escape? s <|> codeSpan? s

/-- The first rules read the text as these pieces. -/
inductive Leaves : Text → List Inline → Prop
  | nil : Leaves [] []
  | cons {front behind : Text} {piece : Inline} {pieces : List Inline} :
      leaf? (front ++ behind) = some (.leaf front.length piece) → Leaves behind pieces →
      Leaves (front ++ behind) (piece :: pieces)

theorem Leaves.single {s : Text} {piece : Inline}
    (reads : leaf? s = some (.leaf s.length piece)) : Leaves s [piece] := by
  have whole : Leaves (s ++ []) [piece] := .cons (by rwa [List.append_nil]) .nil
  rwa [List.append_nil] at whole

theorem allLeaves_orElse {found other : Option Construct} {rest : Text}
    (leaves : Construct.AllLeaves found rest) (more : Construct.AllLeaves other rest) :
    Construct.AllLeaves (found <|> other) rest := by
  cases found with
  | none => exact more
  | some construct => exact leaves

theorem allLeaves_leaf (s : Text) : Construct.AllLeaves (leaf? s) s :=
  allLeaves_orElse (allLeaves_plainRun s) (allLeaves_orElse (allLeaves_newline s)
    (allLeaves_orElse (allLeaves_escape s) (allLeaves_codeSpan s)))

namespace InlineRun

variable {md : Markdown} {skip : Step} {body : InlineRun → InlineRun} {run : InlineRun}

/-- Moves behind a piece that was read. -/
def moveBehind (run : InlineRun) (length : Nat) (piece : Inline) : InlineRun :=
  { run.emit piece with pos := run.pos + length }

/-- A complete piece that was found is taken. -/
theorem take_leaf (run : InlineRun) (length : Nat) {piece : Inline}
    (complete : piece.IsComplete) :
    run.take false (some (.leaf length piece)) = (true, run.moveBehind length piece) := by
  rw [moveBehind, ← write_eq_emit run complete]
  rfl

/-- The first of several rules takes what it found; otherwise the next ones are tried. -/
theorem firstStep_take {step : InlineRule → Step} {rule : InlineRule} {rules : List InlineRule}
    {found other : Option Construct} {length : Nat} {piece : Inline}
    (takes : step rule run = run.take false found)
    (leaves : Construct.AllLeaves found run.cursor.rest)
    (next : other = some (.leaf length piece) →
      firstStep step run.pos rules run = (true, run.moveBehind length piece))
    (reads : (found <|> other) = some (.leaf length piece)) :
    firstStep step run.pos (rule :: rules) run = (true, run.moveBehind length piece) := by
  rw [firstStep]
  dsimp only
  rw [takes]
  cases found with
  | none => exact next reads
  | some construct =>
    cases reads
    obtain ⟨⟨positive, -, complete⟩, -⟩ := leaves _ rfl
    have moves : run.pos < run.pos + length := Nat.lt_add_of_pos_right positive
    rw [take_leaf run length complete]
    simp [moveBehind, moves]

/-- The usual rules take what the first ones read. -/
theorem firstStep_leaf (parseLabel : Text → List Token) {length : Nat} {piece : Inline}
    (reads : leaf? run.cursor.rest = some (.leaf length piece)) :
    firstStep (fun rule => runRule md skip body parseLabel rule false) run.pos InlineRule.all run =
      (true, run.moveBehind length piece) := by
  refine firstStep_take rfl (allLeaves_plainRun _) (fun reads => ?_) reads
  refine firstStep_take rfl (allLeaves_newline _) (fun reads => ?_) reads
  refine firstStep_take rfl (allLeaves_escape _) (fun reads => ?_) reads
  refine firstStep_take rfl (allLeaves_codeSpan _) (fun noRule : none = some _ => nomatch noRule) ?_
  rw [reads]
  rfl

/-- Steps over what the first rules read give the tokens of the pieces. -/
theorem parseChars_leaves {step : Step} {depth : Nat}
    (steps : ∀ (run : InlineRun) (length : Nat) (piece : Inline), run.level = depth →
      leaf? run.cursor.rest = some (.leaf length piece) →
      step run = (true, run.moveBehind length piece))
    {s : Text} {pieces : List Inline} (leaves : Leaves s pieces) {fuel : Nat}
    (ready : run.Ready) (same : run.level = depth) (ahead : run.cursor.rest = s)
    (enough : s.length ≤ fuel) :
    parseChars step run.posMax fuel run = { run.emits pieces with pos := run.posMax } := by
  induction leaves generalizing run fuel with
  | nil =>
    have room := cursor_rest_length ready
    rw [ahead, List.length_nil] at room
    have ended : run.pos = run.posMax := Nat.le_antisymm ready.ordered (by omega)
    rw [emits_nil, ← ended]
    cases fuel with
    | zero => rfl
    | succ fuel => rw [parseChars, if_pos (Nat.le_refl _)]
  | @cons front behind piece pieces reads leaves ih =>
    obtain ⟨⟨positive, -, -⟩, -⟩ := allLeaves_leaf _ _ reads
    change 0 < front.length at positive
    have room := cursor_rest_length ready
    rw [ahead, List.length_append] at room
    rw [List.length_append] at enough
    obtain ⟨fuel, rfl⟩ : ∃ more, fuel = more + 1 := ⟨fuel - 1, by omega⟩
    have fits : run.pos + front.length ≤ run.posMax := by omega
    have moved : (run.moveBehind front.length piece).cursor.rest = behind :=
      calc (run.moveBehind front.length piece).cursor.rest
        _ = (run.cursor.advance front.length).rest := congrArg Cursor.rest (cursor_advance fits)
        _ = (front ++ behind).drop front.length := by rw [← ahead]; rfl
        _ = behind := List.drop_left
    rw [parseChars, if_neg (by omega), ← List.singleton_append, emits_append, emits_singleton]
    dsimp only
    rw [steps run _ piece same (ahead ▸ reads), if_pos rfl]
    have stays : (run.moveBehind front.length piece).Ready := ⟨fits, ready.inText, ready.forward⟩
    exact ih stays same moved (by omega)

/-- Steps that read a whole text give the tokens of its pieces. -/
theorem parseBy_leaves {step : Step}
    (steps : ∀ (run : InlineRun) (length : Nat) (piece : Inline), run.level = 0 →
      leaf? run.cursor.rest = some (.leaf length piece) →
      step run = (true, run.moveBehind length piece))
    {s : Text} {pieces : List Inline} (leaves : Leaves s pieces) :
    (parseBy step (ofSource s)).tokens = Inline.tokens pieces := by
  have ahead : (ofSource s).cursor.rest = s := by rw [cursor_ofSource]; rfl
  have parsed : parseChars step s.length s.length (ofSource s) =
      { (ofSource s).emits pieces with pos := s.length } :=
    parseChars_leaves steps leaves (ready_ofSource s) rfl ahead (Nat.le_refl _)
  change (settle (parseChars step s.length s.length (ofSource s))).tokens = _
  rw [parsed]
  exact congrArg InlineRun.tokens (settle_emits { ofSource s with pos := s.length } pieces)

/-- Under the usual rules, a text that the first ones read has the tokens of its pieces. -/
theorem parse_leaves (chain : md.inlineChain = InlineRule.all) (levels : 1 ≤ md.maxNesting)
    {s : Text} {pieces : List Inline} (leaves : Leaves s pieces) :
    parse md s = Inline.tokens pieces := by
  obtain ⟨fuel, isMax⟩ := Nat.exists_eq_add_one.mpr levels
  rw [parse, parseLabels, isMax, parseUpTo]
  refine parseBy_leaves (fun run length piece isTop reads => ?_) leaves
  rw [if_pos (by omega), chain]
  exact firstStep_leaf _ reads

end InlineRun

end ComponentMarkdown
