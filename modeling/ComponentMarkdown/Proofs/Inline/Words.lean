import ComponentMarkdown.Proofs.Inline.Locality
import ComponentMarkdown.Proofs.Inline.Pairs
import ComponentMarkdown.Proofs.Inline.Silent

/-!
# Underscores in words

An underscore behind a letter or digit opens no emphasis, and one in front of a letter or digit
closes none. A run of underscores that opens none is tried again from its second one on, though,
where an underscore stands before it. A word is plain text unless that can happen and the word ends
in an underscore, which closes. The file has:

* `IsWord` and `IsReopened`, and where underscores open and close emphasis (`OpensAt`);
* `InlineRun.Reads`, the step that reads characters as text, and `InlineRun.parse_plainWord`;
* `exists_emphasis`: in any other word emphasis is found;
* `parseInline_word`, the result.
-/

namespace ComponentMarkdown

/-! ## Letters and digits -/

theorem not_isSpecial_of_isAlphanumeric {c : Char} (letter : isAlphanumeric c = true) :
    isSpecial c = false := by
  unfold isSpecial
  split
  case h_24 => rfl
  all_goals exact absurd letter (by decide)

/-- The blanks above ASCII. -/
def wideBlanks : List Nat :=
  [0x85, 0xA0, 0x1680, 0x2000, 0x2001, 0x2002, 0x2003, 0x2004, 0x2005, 0x2006, 0x2007, 0x2008,
   0x2009, 0x200A, 0x2028, 0x2029, 0x202F, 0x205F, 0x3000]

theorem wideBlanks_apart :
    (alphanumericRanges.all fun range => wideBlanks.all fun blank =>
      Nat.blt blank range.1 || Nat.blt range.2 blank) = true := by
  decide +kernel

theorem not_isBlank_of_isAlphanumeric {c : Char} (letter : isAlphanumeric c = true) :
    isBlank c = false := by
  unfold isAlphanumeric at letter
  split at letter
  · next ascii =>
    have := toNat_of_isAlphanum letter
    simp [isBlank]
    omega
  · next wide =>
    obtain ⟨range, member, inside⟩ := List.any_eq_true.mp letter
    have apart := List.all_eq_true.mp wideBlanks_apart range member
    simp only [Bool.and_eq_true, decide_eq_true_iff] at inside
    simp only [wideBlanks, List.all_cons, List.all_nil, Bool.and_eq_true, Bool.or_eq_true,
      Nat.blt_eq] at apart
    cases blank : isBlank c with
    | false => rfl
    | true =>
      simp only [isBlank, Bool.or_eq_true, Bool.and_eq_true, beq_iff_eq,
        decide_eq_true_iff] at blank
      omega

/-! ## Words -/

/-- A letter or digit, and behind it letters, digits and underscores. -/
structure IsWord (w : Text) : Prop where
  first : w.head?.any isAlphanumeric = true
  each : ∀ c ∈ w, isAlphanumeric c = true ∨ c = '_'

instance (w : Text) : Decidable (IsWord w) :=
  decidable_of_iff (w.head?.any isAlphanumeric && w.all fun c => isAlphanumeric c || c == '_') (by
    rw [Bool.and_eq_true, List.all_eq_true]
    simp only [Bool.or_eq_true, beq_iff_eq]
    exact ⟨fun ⟨first, each⟩ => ⟨first, each⟩, fun word => ⟨word.first, word.each⟩⟩)

/-- Two underscores stand in front of a letter or digit, and one stands at the end. -/
structure IsReopened (w : Text) : Prop where
  inner : ∃ c, isAlphanumeric c = true ∧ ['_', '_', c] <:+: w
  ends : w.getLast? = some '_'

/-- A word from a position on. -/
def wordCursor (w : Text) (pos : Nat) : Cursor :=
  Cursor.inside w pos w.length

/-- The underscore at the position may open emphasis. -/
def OpensAt (w : Text) (pos : Nat) : Prop :=
  w[pos]? = some '_' ∧
    canOpen (wordCursor w pos) (Text.runLength '_' (w.drop pos)) '_' = true

variable {w : Text} {pos : Nat}

theorem wordCursor_rest (w : Text) (pos : Nat) : (wordCursor w pos).rest = w.drop pos := by
  rw [wordCursor, Cursor.inside, List.take_length]

/-- The character before a later position. -/
theorem wordCursor_before {c : Char} (here : w[pos]? = some c) :
    (wordCursor w (pos + 1)).before = some c := by
  rw [wordCursor, Cursor.inside, List.getLast?_take, if_neg (Nat.succ_ne_zero pos),
    Nat.add_sub_cancel, here, Option.some_or]

namespace IsWord

theorem quiet (word : IsWord w) {c : Char} (member : c ∈ w) : isSpecial c = false ∨ c = '_' :=
  (word.each c member).imp_left not_isSpecial_of_isAlphanumeric

theorem not_isBlank (word : IsWord w) {c : Char} (member : c ∈ w) : isBlank c = false := by
  rcases word.each c member with letter | rfl
  · exact not_isBlank_of_isAlphanumeric letter
  · rfl

theorem normalize_eq (word : IsWord w) : normalize w = w :=
  normalize_of_normal fun c member => by
    rcases word.each c member with letter | rfl
    · constructor <;> rintro rfl <;> exact absurd letter (by decide)
    · decide

theorem ne_nil (word : IsWord w) : w ≠ [] := by
  rintro rfl
  cases word.first

/-- An underscore in a word has a character before it. -/
theorem exists_before (word : IsWord w) (here : w[pos]? = some '_') :
    ∃ before c, pos = before + 1 ∧ w[before]? = some c := by
  cases pos with
  | zero =>
    have first := word.first
    rw [List.head?_eq_getElem?, here] at first
    exact absurd first (by decide)
  | succ before =>
    have inText := (List.getElem?_eq_some_iff.mp here).1
    exact ⟨before, _, rfl, List.getElem?_eq_getElem (Nat.lt_of_succ_lt inText)⟩

/-- Behind a run of underscores a word goes on with a letter or digit. -/
theorem behind_run (word : IsWord w) {c : Char}
    (next : ((w.drop pos).drop (Text.runLength '_' (w.drop pos))).head? = some c) :
    isAlphanumeric c = true := by
  have member : c ∈ w := List.mem_of_mem_drop (List.mem_of_mem_drop (List.mem_of_head? next))
  exact (word.each c member).resolve_right (Text.ne_of_behind_run next)

/-- In a word that ends in a letter or digit no run of underscores closes emphasis. -/
theorem not_closes (word : IsWord w) (notEnd : w.getLast? ≠ some '_')
    (inRun : 0 < Text.runLength '_' (w.drop pos)) :
    closesEmphasis (wordCursor w pos) (Text.runLength '_' (w.drop pos)) '_' = false := by
  rw [closesEmphasis, wordCursor_rest]
  cases behind : (w.drop pos).drop (Text.runLength '_' (w.drop pos)) with
  | cons c rest =>
    have letter := word.behind_run (congrArg List.head? behind)
    simp [letter]
  | nil =>
    -- The run would be the end of the word.
    have run := Text.replicate_append_drop '_' (w.drop pos)
    rw [behind, List.append_nil] at run
    have last : (w.drop pos).getLast? = some '_' := by
      rw [← run, List.getLast?_replicate, if_neg (Nat.ne_of_gt inRun)]
    rw [List.getLast?_drop] at last
    split at last
    · cases last
    · exact absurd last notEnd

end IsWord

/-- An underscore opens emphasis if it stands behind another one, and the word goes on behind the
run that it begins. -/
theorem opensAt_iff (word : IsWord w) {before : Nat} :
    OpensAt w (before + 1) ↔ w[before]? = some '_' ∧ w[before + 1]? = some '_' ∧
      ∃ c, ((w.drop (before + 1)).dropWhile (· == '_')).head? = some c := by
  rw [OpensAt, canOpen, wordCursor_rest, Text.drop_runLength]
  constructor
  · rintro ⟨here, opens⟩
    obtain ⟨_, b, same, isBefore⟩ := word.exists_before here
    obtain rfl := Nat.succ.inj same
    simp only [wordCursor_before isBefore, Option.any_some, beq_self_eq_true, Bool.true_and,
      Bool.and_eq_true, Bool.not_eq_true', Option.any_eq_true] at opens
    obtain ⟨⟨c, next, -⟩, notLetter⟩ := opens
    have isUnderscore : b = '_' :=
      (word.each b (List.mem_of_getElem? isBefore)).resolve_left (by simp [notLetter])
    exact ⟨isUnderscore ▸ isBefore, here, c, next⟩
  · rintro ⟨isBefore, here, c, next⟩
    refine ⟨here, ?_⟩
    have member : c ∈ w := List.mem_of_mem_drop (List.dropWhile_sublist _ |>.mem
      (List.mem_of_head? next))
    have notLetter : isAlphanumeric '_' = false := by decide
    rw [wordCursor_before isBefore, next]
    simp [word.not_isBlank member, notLetter]

/-- There is an underscore that opens emphasis if two stand in front of a letter or digit. -/
theorem exists_opensAt_iff (word : IsWord w) :
    (∃ pos, OpensAt w pos) ↔ ∃ c, isAlphanumeric c = true ∧ ['_', '_', c] <:+: w := by
  constructor
  · rintro ⟨pos, opens⟩
    obtain ⟨before, -, rfl, -⟩ := word.exists_before opens.1
    obtain ⟨isBefore, here, c, next⟩ := (opensAt_iff word).mp opens
    rw [← Text.drop_runLength] at next
    refine ⟨c, word.behind_run next, ?_⟩
    obtain ⟨behind, isBehind⟩ := List.head?_eq_some_iff.mp next
    have run := Text.replicate_append_drop '_' (w.drop (before + 1))
    -- The run is not empty, so it can be cut in front of its last underscore.
    have inRun : 0 < Text.runLength '_' (w.drop (before + 1)) := by
      obtain ⟨rest, begins⟩ := List.head?_eq_some_iff.mp (List.head?_drop.trans here)
      rw [begins]
      exact Text.runLength_pos _ _
    obtain ⟨count, isCount⟩ := Nat.exists_eq_add_one.mpr inRun
    have whole := List.take_append_drop before w
    rw [List.drop_eq_getElem_cons (List.getElem?_eq_some_iff.mp isBefore).1,
      (List.getElem?_eq_some_iff.mp isBefore).2, ← run, isBehind, isCount] at whole
    have twice : '_' :: List.replicate (count + 1) '_' =
        List.replicate count '_' ++ ['_', '_'] := by
      rw [← List.replicate_succ, List.replicate_succ', List.replicate_succ', List.append_assoc]
      rfl
    rw [← List.cons_append, twice] at whole
    exact ⟨w.take before ++ List.replicate count '_', behind, by simpa using whole⟩
  · rintro ⟨c, letter, front, behind, rfl⟩
    refine ⟨front.length + 1, (opensAt_iff word).mpr ⟨?_, ?_, c, ?_⟩⟩
    · simp
    · simp
    · have differs : (c == '_') = false :=
        beq_eq_false_iff_ne.mpr fun same => absurd (same ▸ letter) (by decide)
      simp [differs]

/-- Some underscore is the last one to open emphasis. -/
theorem exists_last_opensAt {pos : Nat} (opens : OpensAt w pos) :
    ∃ last, OpensAt w last ∧ ∀ later, last < later → ¬OpensAt w later := by
  by_cases more : ∃ later, pos < later ∧ OpensAt w later
  · obtain ⟨later, behind, opensLater⟩ := more
    have inWord := (List.getElem?_eq_some_iff.mp opensLater.1).1
    exact exists_last_opensAt opensLater
  · exact ⟨pos, opens, fun later behind opensLater => more ⟨later, behind, opensLater⟩⟩
termination_by w.length - pos

/-- Behind the last underscore that opens emphasis stands a letter or digit. -/
theorem behind_last_opensAt (word : IsWord w) (opens : OpensAt w pos)
    (last : ∀ later, pos < later → ¬OpensAt w later) :
    ∃ c, w[pos + 1]? = some c ∧ c ≠ '_' := by
  obtain ⟨before, -, rfl, -⟩ := word.exists_before opens.1
  obtain ⟨-, here, c, next⟩ := (opensAt_iff word).mp opens
  obtain ⟨rest, begins⟩ := List.head?_eq_some_iff.mp (List.head?_drop.trans here)
  have behind : w.drop (before + 1 + 1) = rest := by
    rw [← List.drop_drop, begins]
    rfl
  rw [begins, List.dropWhile_cons_of_pos (by simp)] at next
  have notHere : w[before + 1 + 1]? ≠ some '_' := fun here' =>
    last _ (Nat.lt_succ_self _) ((opensAt_iff word).mpr ⟨here, here', c, behind ▸ next⟩)
  rw [← List.head?_drop, behind] at notHere ⊢
  cases rest with
  | nil => cases next
  | cons d rest => exact ⟨d, rfl, fun same => notHere (congrArg some same)⟩

/-! ## Words that are plain text -/

namespace InlineRun

variable {md : Markdown} {run : InlineRun} {skip : Step} {body : InlineRun → InlineRun}

/-- The run stands in the word, and what is in front of the position is pending. -/
structure Along (w : Text) (run : InlineRun) : Prop where
  source : run.source = w
  posMax : run.posMax = w.length
  inText : run.pos ≤ w.length
  pending : run.pending = w.take run.pos

/-- The run behind the characters of the word that were read as text. -/
def readTo (w : Text) (run : InlineRun) (pos : Nat) (memo : Memo) : InlineRun :=
  { run with pos, pending := w.take pos, memo }

/-- The step reads characters of the word as text if it matches, and else nothing. -/
def Reads (w : Text) (run : InlineRun) (result : Bool × InlineRun) : Prop :=
  ∃ n memo, run.pos + n ≤ w.length ∧ result = (decide (0 < n), readTo w run (run.pos + n) memo)

theorem Along.cursor (along : Along w run) : run.cursor = wordCursor w run.pos := by
  rw [InlineRun.cursor, along.source, along.posMax, wordCursor]

/-- What was read so far is pending. -/
theorem Along.readTo_pos (along : Along w run) (memo : Memo) :
    readTo w run run.pos memo = { run with memo } := by
  rw [readTo, ← along.pending]

theorem along_readTo (along : Along w run) (bounded : pos ≤ w.length) (memo : Memo) :
    Along w (readTo w run pos memo) :=
  ⟨along.source, along.posMax, bounded, rfl⟩

theorem Along.reads_nothing (along : Along w run) (memo : Memo) :
    Reads w run (false, { run with memo }) :=
  ⟨0, memo, along.inText, by rw [Nat.add_zero, along.readTo_pos]; rfl⟩

theorem Along.take_plainRun (along : Along w run) :
    Reads w run (run.take false (plainRun? run.cursor.rest)) := by
  rw [along.cursor, wordCursor_rest, plainRun?]
  have isPrefix := List.takeWhile_prefix (l := w.drop run.pos) fun c => !isSpecial c
  generalize (w.drop run.pos).takeWhile (fun c => !isSpecial c) = text at isPrefix ⊢
  have bounded := isPrefix.length_le
  rw [List.length_drop] at bounded
  split
  · exact along.reads_nothing run.memo
  · next notEmpty =>
    have positive : 0 < text.length := List.length_pos_iff.mpr (by simpa using notEmpty)
    refine ⟨text.length, run.memo, by omega, ?_⟩
    rw [readTo, List.take_add, ← List.prefix_iff_eq_take.mp isPrefix, ← along.pending,
      decide_eq_true positive]
    rfl

/-- In a word that does not end in an underscore no closing run is found. -/
theorem seekCloser_word (word : IsWord w) (notEnd : w.getLast? ≠ some '_')
    (quiet : MovesOnly skip) (count bodyStart fuel : Nat) {run : InlineRun}
    (source : run.source = w) (posMax : run.posMax = w.length) :
    (seekCloser skip '_' count bodyStart fuel run).1 = none := by
  induction fuel generalizing run with
  | zero => rfl
  | succ fuel ih =>
    have cursor : run.cursor = wordCursor w run.pos := by
      rw [InlineRun.cursor, source, posMax, wordCursor]
    rw [seekCloser, cursor, wordCursor_rest]
    split
    · rfl
    · dsimp only
      split
      · next closes =>
        simp only [Bool.and_eq_true, decide_eq_true_iff] at closes
        rw [word.not_closes notEnd closes.1.1.2] at closes
        cases closes.2
      · obtain ⟨_, _, same⟩ := quiet run
        exact ih (same ▸ source) (same ▸ posMax)

/-- The rule for emphasis matches nowhere in such a word. -/
theorem Along.emphasis (along : Along w run) (word : IsWord w) (flat : ¬IsReopened w)
    (quiet : MovesOnly skip) : Reads w run (emphasis skip body false run) := by
  rw [InlineRun.emphasis]
  split
  · exact along.reads_nothing run.memo
  · next marker rest begins =>
    dsimp only
    split
    · exact along.reads_nothing run.memo
    · next opens =>
      rw [along.cursor, wordCursor_rest] at begins
      have here : w[run.pos]? = some marker := by
        rw [← List.head?_drop, begins]
        rfl
      simp only [Bool.or_eq_true, Bool.not_eq_true', not_or, Bool.not_eq_false, beq_iff_eq,
        along.cursor] at opens
      obtain ⟨isMarker, opens⟩ := opens
      have notStar : marker ≠ '*' := by
        rintro rfl
        exact absurd (word.each _ (List.mem_of_getElem? here)) (by decide)
      obtain rfl := isMarker.resolve_left notStar
      have inner := (exists_opensAt_iff word).mp ⟨run.pos, here, begins ▸ opens⟩
      have notEnd : w.getLast? ≠ some '_' := fun ends => flat ⟨inner, ends⟩
      generalize min (Text.runLength '_' ('_' :: rest)) 2 = count
      have none := @seekCloser_word w skip word notEnd quiet count (run.pos + count)
        (run.posMax - (run.pos + count) + 1) { run with pos := run.pos + count } along.source
        along.posMax
      obtain ⟨_, memo, same⟩ := seekCloser_moves quiet '_' count (run.pos + count)
        (run.posMax - (run.pos + count) + 1) { run with pos := run.pos + count }
      rw [none, same]
      exact along.reads_nothing memo

/-- Every rule reads text of such a word or nothing, for any grammar. -/
theorem Along.runRule (along : Along w run) (word : IsWord w) (flat : ¬IsReopened w)
    (inWindow : run.pos < w.length) (quiet : MovesOnly skip) (parseLabel : Text → List Token)
    (rule : InlineRule) : Reads w run (runRule md skip body parseLabel rule false run) := by
  by_cases isText : rule = .text
  · rw [isText]
    exact along.take_plainRun
  by_cases isEmphasis : rule = .emphasis
  · rw [isEmphasis]
    exact along.emphasis word flat quiet
  have begins : run.cursor.rest = w[run.pos] :: w.drop (run.pos + 1) := by
    rw [along.cursor, wordCursor_rest, List.drop_eq_getElem_cons inWindow]
  have nothing : BeginsNothing run.cursor.rest :=
    begins ▸ beginsNothing (word.quiet (List.getElem_mem inWindow)) _
  rw [runRule_nothing nothing skip body parseLabel isText isEmphasis]
  exact along.reads_nothing run.memo

theorem Along.firstStep {step : InlineRule → Step} (along : Along w run)
    (reads : ∀ rule {run : InlineRun}, Along w run → run.pos < w.length →
      Reads w run (step rule run))
    (inWindow : run.pos < w.length) (rules : List InlineRule) :
    Reads w run (firstStep step run.pos rules run) := by
  induction rules generalizing run with
  | nil => exact along.reads_nothing run.memo
  | cons rule rules ih =>
    obtain ⟨n, memo, bounded, same⟩ := reads rule along inWindow
    rw [InlineRun.firstStep]
    dsimp only
    rw [same]
    cases n with
    | succ n => exact ⟨n + 1, memo, bounded, by simp [readTo]⟩
    | zero =>
      rw [Nat.add_zero, along.readTo_pos, if_neg (by simp)]
      exact @ih { run with memo } ⟨along.source, along.posMax, along.inText, along.pending⟩ inWindow

/-- Steps that read text read the whole word. -/
theorem Along.parseChars {step : Step} (along : Along w run)
    (reads : ∀ {run : InlineRun}, Along w run → run.pos < w.length → Reads w run (step run))
    {fuel : Nat} (enough : w.length - run.pos ≤ fuel) :
    ∃ memo, parseChars step w.length fuel run = readTo w run w.length memo := by
  induction fuel generalizing run with
  | zero =>
    have atEnd : run.pos = w.length := Nat.le_antisymm along.inText (by omega)
    exact ⟨run.memo, atEnd ▸ (along.readTo_pos run.memo).symm⟩
  | succ fuel ih =>
    rw [InlineRun.parseChars]
    split
    · next ended =>
      have atEnd : run.pos = w.length := Nat.le_antisymm along.inText ended
      exact ⟨run.memo, atEnd ▸ (along.readTo_pos run.memo).symm⟩
    · next more =>
      have inWindow : run.pos < w.length := Nat.lt_of_not_le more
      obtain ⟨n, memo, bounded, same⟩ := reads along inWindow
      have goOn {pos : Nat} (behind : run.pos < pos) (bounded : pos ≤ w.length) :
          ∃ memo', InlineRun.parseChars step w.length fuel (readTo w run pos memo) =
            readTo w run w.length memo' :=
        ih (along_readTo along bounded memo) (by simp only [readTo]; omega)
      dsimp only
      rw [same]
      cases n with
      | succ n => exact goOn (by omega) bounded
      | zero =>
        have here : peek? { run with memo } = some w[run.pos] := by
          have cursor := along.cursor
          rw [peek?, ← List.getElem?_eq_getElem inWindow, ← List.head?_drop, ← wordCursor_rest,
            ← cursor]
          rfl
        have further :
            { run with pos := run.pos + 1, pending := run.pending ++ [w[run.pos]], memo } =
              readTo w run (run.pos + 1) memo := by
          rw [readTo, along.pending, List.take_append_getElem]
        rw [Nat.add_zero, along.readTo_pos]
        simp only [Nat.lt_irrefl, decide_false, Bool.false_eq_true, if_false, here]
        rw [further]
        exact goOn (Nat.lt_succ_self _) inWindow

theorem parse_plainWord (md : Markdown) (word : IsWord w) (flat : ¬IsReopened w) :
    parse md w =
      [{ kind := .text, tag := [], nesting := .selfClosing, content := w }] := by
  have along : Along w (ofSource w) := ⟨rfl, rfl, Nat.zero_le _, rfl⟩
  have parsed {step : Step} (reads : ∀ {run : InlineRun}, Along w run → run.pos < w.length →
      Reads w run (step run)) : (parseBy step (ofSource w)).tokens =
        [{ kind := .text, tag := [], nesting := .selfClosing, content := w }] := by
    obtain ⟨memo, same⟩ := along.parseChars reads (Nat.le_refl _)
    change (settle (InlineRun.parseChars step w.length w.length (ofSource w))).tokens = _
    rw [show InlineRun.parseChars step w.length w.length (ofSource w) = _ from same, settle]
    simp [readTo, word.ne_nil, flush, ofSource]
  rw [parse, parseLabels]
  cases md.maxNesting with
  | zero => exact parsed fun along _ => along.reads_nothing _
  | succ fuel =>
    refine parsed fun {run} along inWindow => ?_
    split
    · exact along.firstStep (fun rule _ along inWindow =>
        along.runRule word flat inWindow (skipNext_moves md) _ rule) inWindow md.inlineChain
    · exact along.reads_nothing run.memo

end InlineRun

/-! ## Words with emphasis -/

section

variable {md : Markdown} {lawful : md.grammar.Lawful} {outlook : Outlook} {budget first : Nat}

theorem plainAt_or_underscore (word : IsWord w) (inWord : pos < w.length) :
    PlainAt w pos ∨ w[pos]? = some '_' := by
  have here := List.getElem?_eq_getElem inWord
  refine (word.quiet (List.getElem_mem inWord)).imp (fun plain => ⟨_, here, plain⟩) fun same => ?_
  rw [here, same]

theorem not_plainAt_of_underscore (here : w[pos]? = some '_') : ¬PlainAt w pos :=
  fun plain => absurd (plain.of_getElem? here) (by decide)

theorem wordCursor_cons {c : Char} (here : w[pos]? = some c) :
    (wordCursor w pos).rest = c :: w.drop (pos + 1) := by
  obtain ⟨inWord, same⟩ := List.getElem?_eq_some_iff.mp here
  rw [wordCursor_rest, List.drop_eq_getElem_cons inWord, same]

/-- An underscore that does not open emphasis begins nothing. -/
theorem scan_underscore {skip : Skip} (here : w[pos]? = some '_') {rule : InlineRule}
    (refused : rule = .emphasis → ¬OpensAt w pos) :
    scan md skip rule (wordCursor w pos) = pure none := by
  have begins := wordCursor_cons here
  by_cases isText : rule = .text
  · rw [isText]
    exact scan_text_special begins rfl
  by_cases isEmphasis : rule = .emphasis
  · have cannot : canOpen (wordCursor w pos) (Text.runLength '_' (w.drop pos)) '_' = false :=
      Bool.eq_false_iff.mpr fun opens => refused isEmphasis ⟨here, opens⟩
    rw [← wordCursor_rest, begins] at cannot
    rw [isEmphasis, scan, emphasis?, begins]
    simp [cannot]
  · exact BeginsNothing.scan (begins ▸ beginsNothing (.inr rfl) _) isText isEmphasis

theorem cursor_anew (isAnew : outlook = .anew lawful (Nat.le_refl w.length)) (pos : Nat) :
    outlook.cursor pos = wordCursor w pos := by
  rw [isAnew]
  rfl

/-- From a place where no underscore opens emphasis, skipping does not pass a later underscore. -/
theorem outcome_word (chain : md.inlineChain = InlineRule.all) (word : IsWord w)
    (isAnew : outlook = .anew lawful (Nat.le_refl w.length)) (inWord : pos < w.length)
    (refused : ¬OpensAt w pos) {stop : Nat} (behind : pos < stop) (ends : w[stop]? = some '_') :
    (outlook.outcome pos).stop ≤ stop := by
  rw [Outlook.outcome_anew isAnew, cursor_anew isAnew, skipByRules, chain]
  rcases plainAt_or_underscore word inWord with plain | here
  · obtain ⟨c, here, isPlain⟩ := plain
    have bounded := runEnd_le (Nat.le_of_lt behind) (not_plainAt_of_underscore ends)
    have inText : runEnd w pos ≤ w.length :=
      Nat.le_of_lt (Nat.lt_of_le_of_lt bounded (List.getElem?_eq_some_iff.mp ends).1)
    have longer := lt_runEnd ⟨c, here, isPlain⟩
    have run := @firstLength_run md (skip md w.length) (wordCursor w pos) c (w.drop (pos + 1))
      (wordCursor_cons here) isPlain InlineRule.all (by decide) _ _
      (plainRun_inside ⟨c, here, isPlain⟩ inText) (by omega)
    rw [run, pure_bind, Memoized.run_pure]
    change pos + (runEnd w pos - pos) ≤ stop
    omega
  · rw [firstLength_none fun rule => scan_underscore here fun _ => refused, pure_bind,
      Memoized.run_pure]
    exact behind

/-- An underscore at the end of a word closes emphasis. -/
theorem closes_at_end (word : IsWord w) (ends : w[pos + 1]? = some '_')
    (atEnd : pos + 2 = w.length) :
    let run := Text.runLength '_' (w.drop (pos + 1))
    0 < run ∧ closesEmphasis (wordCursor w (pos + 1)) run '_' = true := by
  intro run
  have inWord : pos < w.length := by omega
  have rest : w.drop (pos + 1) = ['_'] := by
    have cons := wordCursor_cons ends
    rwa [wordCursor_rest, List.drop_eq_nil_of_le (Nat.le_of_eq atEnd.symm)] at cons
  have isRun : run = 1 := by
    simp only [run, rest]
    decide
  have before := wordCursor_before (List.getElem?_eq_getElem inWord)
  rw [isRun, closesEmphasis, before, wordCursor_rest, rest]
  simp [word.not_isBlank (List.getElem_mem inWord)]

/-- Behind the last underscore that opens emphasis, the one at the end of the word is reached. -/
theorem exists_closer (chain : md.inlineChain = InlineRule.all) (word : IsWord w)
    (isAnew : outlook = .anew lawful (Nat.le_refl w.length)) {stop : Nat}
    (ends : w[stop]? = some '_') (atEnd : stop + 1 = w.length) (inside : first < stop)
    (refused : ∀ later, first ≤ later → ¬OpensAt w later) {fuel : Nat} (behind : first ≤ pos)
    (inWord : pos ≤ stop) (enough : stop - pos < fuel) (fits : outlook.ahead pos < budget)
    {memo : Memo} (settled : memo.Settled outlook first) :
    ∃ closer, ((findCloser (skip md budget) '_' 1 first fuel (wordCursor w pos)).run memo).1 =
      some closer := by
  induction fuel generalizing pos memo with
  | zero => exact absurd enough (Nat.not_lt_zero _)
  | succ fuel ih =>
    have begins := wordCursor_cons (List.getElem?_eq_getElem (show pos < w.length by omega))
    have notEmpty : (wordCursor w pos).rest.isEmpty = false := by rw [begins]; rfl
    simp only [findCloser, notEmpty, Bool.false_eq_true, if_false]
    split
    · exact ⟨_, rfl⟩
    · next notHere =>
      have inFront : pos < stop := by
        refine Nat.lt_of_le_of_ne inWord fun same => notHere ?_
        subst same
        obtain ⟨before, rfl⟩ := Nat.exists_eq_add_one.mpr (Nat.zero_lt_of_lt inside)
        obtain ⟨positive, closes⟩ := closes_at_end word ends atEnd
        rw [wordCursor_rest, closes]
        simpa using ⟨⟨inside, positive⟩, positive⟩
      have inWindow : pos < outlook.stop := by
        rw [isAnew]
        change pos < w.length
        omega
      obtain ⟨same, kept⟩ := gives_skip isAnew behind inWindow fits memo settled
      obtain ⟨further, -⟩ := outlook.forward pos inWindow
      have bounded := outcome_word chain word isAnew (by omega) (refused pos behind) inFront ends
      rw [cursor_anew isAnew] at same kept
      rw [Memoized.run_bind, same, wordCursor,
        Cursor.moveTo_inside (Nat.le_of_lt further) (by omega)]
      exact ih (by omega) bounded (by omega)
        (Nat.lt_of_le_of_lt (outlook.ahead_le (Nat.le_of_lt further)) fits) kept

/-- At the last underscore that opens emphasis, emphasis is found. -/
theorem emphasis_at_last (chain : md.inlineChain = InlineRule.all) (word : IsWord w)
    (isAnew : outlook = .anew lawful (Nat.le_refl w.length)) (ends : w.getLast? = some '_')
    (opens : OpensAt w pos) (last : ∀ later, pos < later → ¬OpensAt w later)
    (fits : outlook.ahead (pos + 1) < budget) {memo : Memo}
    (settled : memo.Settled outlook (pos + 1)) :
    ((emphasis? (skip md budget) (wordCursor w pos)).run memo).1 ≠ none := by
  obtain ⟨c, next, differs⟩ := behind_last_opensAt word opens last
  obtain ⟨here, opens⟩ := opens
  obtain ⟨stop, atEnd⟩ := Nat.exists_eq_add_one.mpr (List.length_pos_iff.mpr word.ne_nil)
  have ends : w[stop]? = some '_' := by
    rw [← ends, List.getLast?_eq_getElem?, atEnd, Nat.add_sub_cancel]
  have inWord := (List.getElem?_eq_some_iff.mp next).1
  have inside : pos + 1 < stop := by
    refine Nat.lt_of_le_of_ne (by omega) fun same => differs ?_
    rw [same, ends] at next
    exact (Option.some.inj next).symm
  have begins := wordCursor_cons here
  have single : Text.runLength '_' (w.drop pos) = 1 := by
    rw [← wordCursor_rest, begins, ← wordCursor_rest, wordCursor_cons next]
    simp [Text.runLength, differs]
  have moved : (wordCursor w pos).advance 1 = wordCursor w (pos + 1) :=
    Cursor.advance_inside (by omega)
  obtain ⟨closer, found⟩ := @exists_closer w (pos + 1) md lawful outlook budget (pos + 1) chain word
    isAnew stop ends atEnd.symm inside last ((wordCursor w (pos + 1)).rest.length + 1)
    (Nat.le_refl _) (Nat.le_of_lt inside)
    (by rw [wordCursor_rest, List.length_drop]; omega) fits memo settled
  rw [single] at opens
  rw [← wordCursor_rest, begins] at single
  rw [emphasis?, begins]
  have one : min 1 2 = 1 := rfl
  simp only [single, opens, one, moved, beq_self_eq_true, Bool.or_true, Bool.not_true, Bool.or_self,
    Bool.false_eq_true, if_false]
  rw [Memoized.run_bind, show (wordCursor w (pos + 1)).pos = pos + 1 from rfl, found]
  exact Option.some_ne_none _

/-- What the rule for emphasis finds encloses a body with emphasis. -/
theorem form_emphasis {skip : Skip} {c : Cursor} {memo : Memo} {construct : Construct}
    (found : ((emphasis? skip c).run memo).1 = some construct) :
    ∃ marker strong skip length,
      construct.form = .enclosing (.emphasis marker strong) skip length := by
  rw [emphasis?] at found
  split at found
  · cases found
  · dsimp only at found
    split at found
    · cases found
    · rw [Memoized.run_bind] at found
      split at found
      · cases found
      · cases found
        exact ⟨_, _, _, _, rfl⟩

/-- The piece encloses a body with emphasis. -/
def Inline.IsEmphasis : Inline → Prop
  | .emphasis .. => True
  | _ => False

/-- Where an underscore begins no other construct, the first piece is emphasis or there is none. -/
theorem firstPieces_underscore {skip : Skip} {parseLabel : Text → List Inline}
    {parseBody : Cursor → Memoized (List Inline)} (here : w[pos]? = some '_') {memo : Memo} :
    let found := (emphasis? skip (wordCursor w pos)).run memo
    let made := (firstPieces (scan md skip) (resolve parseLabel parseBody) (wordCursor w pos)
      InlineRule.all).run memo
    (found.1 = none → made = (([], 0), found.2)) ∧
      (found.1 ≠ none → ∃ piece ∈ made.1.1, piece.IsEmphasis) := by
  intro found made
  have others {rule : InlineRule} (other : rule ≠ .emphasis) :
      scan md skip rule (wordCursor w pos) = pure none :=
    scan_underscore here fun same => absurd same other
  have isMade : made = (firstPieces (scan md skip) (resolve parseLabel parseBody)
      (wordCursor w pos) [.emphasis]).run memo := by
    simp [made, InlineRule.all, firstPieces, others]
  rw [firstPieces, scan, Memoized.run_bind] at isMade
  change made = _ at isMade
  refine ⟨fun none => ?_, fun some => ?_⟩
  · rw [isMade, show ((emphasis? skip (wordCursor w pos)).run memo).1 = .none from none]
    rfl
  · obtain ⟨construct, isFound⟩ := Option.ne_none_iff_exists'.mp some
    obtain ⟨marker, strong, from', length, form⟩ := form_emphasis isFound
    rw [isMade, isFound]
    simp only [resolve, form, Memoized.run_bind]
    split
    · exact ⟨_, List.mem_singleton.mpr rfl, trivial⟩
    · exact ⟨_, List.mem_cons_self, trivial⟩

section

variable (chain : md.inlineChain = InlineRule.all) (word : IsWord w)
  (isAnew : outlook = .anew lawful (Nat.le_refl w.length)) (ends : w.getLast? = some '_')
  {last : Nat} (opens : OpensAt w last) (isLast : ∀ later, last < later → ¬OpensAt w later)
  (fits : openings w ≤ budget)
include chain word isAnew ends opens isLast fits

/-- At an underscore that begins no emphasis, the last one that opens emphasis stands further
behind, and the memo is as it should be. -/
theorem settled_underscore (inFront : pos ≤ last) (isMark : w[pos]? = some '_') {memo : Memo}
    (settled : memo.Settled outlook pos)
    (nothing : ((emphasis? (skip md budget) (wordCursor w pos)).run memo).1 = none) :
    pos < last ∧
      ((emphasis? (skip md budget) (wordCursor w pos)).run memo).2.Settled outlook pos := by
  have few := outlook.ahead_le_openings pos
  rw [isAnew] at few
  constructor
  · refine Nat.lt_of_le_of_ne inFront fun isAt => ?_
    subst isAt
    have fewer : outlook.ahead (pos + 1) < outlook.ahead pos :=
      @Outlook.ahead_add_lt outlook pos 1 '_'
        (by rw [cursor_anew isAnew, wordCursor_cons isMark]; simp) rfl
    rw [isAnew] at fewer
    exact emphasis_at_last chain word isAnew ends opens isLast
      (by rw [isAnew]; exact Nat.lt_of_lt_of_le fewer (Nat.le_trans few fits))
      (settled.later (Nat.le_succ pos)) nothing
  · obtain ⟨value, determined⟩ := @Outlook.determines_emphasis outlook pos pos (Nat.le_refl pos)
    have answers : outlook.Answers pos (outlook.ahead pos) (Memo.Settled outlook pos)
        (skip md budget) := fun inner from_pos inside fewer =>
      gives_skip isAnew from_pos inside
        (Nat.lt_of_lt_of_le fewer (by rw [isAnew]; exact Nat.le_trans few fits))
    have gives := determined _ _ answers memo settled
    rw [cursor_anew isAnew] at gives
    exact gives.2

/-- In front of the last underscore that opens emphasis, or at it, a piece with emphasis begins. -/
theorem exists_emphasis {parseLabel : Text → List Inline}
    {parseBody : Cursor → Memoized (List Inline)} {fuel : Nat} (inFront : pos ≤ last)
    (enough : w.length - pos ≤ fuel) {memo : Memo} (settled : memo.Settled outlook pos) :
    ∃ piece ∈ ((parsePieces (fun c =>
      firstPieces (scan md (skip md budget)) (resolve parseLabel parseBody) c md.inlineChain)
      fuel (wordCursor w pos)).run memo).1, piece.IsEmphasis := by
  have inWord : last < w.length := (List.getElem?_eq_some_iff.mp opens.1).1
  induction fuel generalizing pos memo with
  | zero => omega
  | succ fuel ih =>
    have here := List.getElem?_eq_getElem (Nat.lt_of_le_of_lt inFront inWord)
    have begins := wordCursor_cons here
    rw [parsePieces, begins, Memoized.run_bind]
    dsimp only
    rw [chain]
    rcases plainAt_or_underscore word (Nat.lt_of_le_of_lt inFront inWord) with plain | isMark
    · have bounded := runEnd_le inFront (not_plainAt_of_underscore opens.1)
      have further := lt_runEnd plain
      have isRun := plainRun_inside plain (Nat.le_of_lt (Nat.lt_of_le_of_lt bounded inWord))
      rw [firstPieces_run begins (plain.of_getElem? here) (by decide) isRun (by omega),
        Memoized.run_pure]
      dsimp only
      rw [if_pos (by omega), Memoized.run_bind, wordCursor, Cursor.advance_inside (by omega),
        Nat.add_sub_cancel' (Nat.le_of_lt further)]
      obtain ⟨piece, member, isEmphasis⟩ :=
        ih bounded (by omega) (settled.later (Nat.le_of_lt further))
      exact ⟨piece, List.mem_append_right _ (chain ▸ member), isEmphasis⟩
    · obtain ⟨nothing, something⟩ := @firstPieces_underscore w pos md (skip md budget) parseLabel
        parseBody isMark memo
      cases found : ((emphasis? (skip md budget) (wordCursor w pos)).run memo).1 with
      | some construct =>
        obtain ⟨piece, member, isEmphasis⟩ := something (by simp [found])
        refine ⟨piece, ?_, isEmphasis⟩
        split
        · exact List.mem_append_left _ member
        · exact List.mem_append_left _ member
      | none =>
        obtain ⟨before, kept⟩ := settled_underscore chain word isAnew ends opens isLast fits inFront
          isMark settled found
        rw [nothing found]
        dsimp only
        rw [if_neg (Nat.lt_irrefl 0), Memoized.run_bind, wordCursor,
          Cursor.advance_inside (by omega)]
        obtain ⟨piece, member, isEmphasis⟩ := ih before (by omega) (kept.later (Nat.le_succ pos))
        exact ⟨piece, List.mem_cons_of_mem _ (chain ▸ member), isEmphasis⟩

end

/-- A piece with emphasis gives a token that opens emphasis. -/
theorem exists_token_emitAll {piece : Inline} {pieces : List Inline} (member : piece ∈ pieces)
    (isEmphasis : piece.IsEmphasis) (level : Nat) (pending : Text) :
    ∃ token ∈ Inline.emitAll level pending pieces,
      token.kind = .emOpen ∨ token.kind = .strongOpen := by
  induction pieces generalizing level pending with
  | nil => cases member
  | cons first pieces ih =>
    rw [Inline.emitAll]
    rcases List.mem_cons.mp member with rfl | behind
    · cases piece with
      | emphasis marker strong body =>
        refine ⟨_, List.mem_append_left _ (List.mem_append_right _ List.mem_cons_self), ?_⟩
        cases strong
        · exact .inl rfl
        · exact .inr rfl
      | _ => cases isEmphasis
    · obtain ⟨token, isToken, kind⟩ := ih behind level (first.emit level pending).2
      exact ⟨token, List.mem_append_right _ isToken, kind⟩

end

/-- A word is a single text unless two underscores stand in front of a letter or digit and it ends
in an underscore, for any grammar, any chain of rules and any depth. Otherwise emphasis is found in
it by the usual rules, with a level of nesting for each underscore. -/
theorem parseInline_word (md : Markdown) {w : Text} (word : IsWord w) :
    (¬IsReopened w → md.parseInline w =
      [{ kind := .text, tag := [], nesting := .selfClosing, content := w }]) ∧
    (IsReopened w → md.grammar.Lawful → md.inlineChain = InlineRule.all →
      openings w ≤ md.maxNesting →
      ∃ token ∈ md.parseInline w, token.kind = .emOpen ∨ token.kind = .strongOpen) := by
  rw [Markdown.parseInline, word.normalize_eq, Markdown.inlineTokens]
  refine ⟨InlineRun.parse_plainWord md word, fun reopened lawful chain levels => ?_⟩
  obtain ⟨pos, opens⟩ := (exists_opensAt_iff word).mpr reopened.inner
  obtain ⟨last, opens, isLast⟩ := exists_last_opensAt opens
  have isOpening : '_' ∈ w := List.mem_of_getElem? opens.1
  obtain ⟨budget, isBudget⟩ : ∃ budget, md.maxNesting = budget + 1 :=
    Nat.exists_eq_add_one.mpr
      (Nat.lt_of_lt_of_le (List.countP_pos_iff.mpr ⟨'_', isOpening, rfl⟩) levels)
  rw [InlineRun.parse_eq lawful, Inline.tokens, Inline.parse, parseNested, isBudget, parseWindow]
  obtain ⟨piece, member, isEmphasis⟩ := @exists_emphasis w 0 md lawful
    (.anew lawful (Nat.le_refl w.length)) (budget + 1) chain word rfl reopened.ends last opens
    isLast (isBudget ▸ levels) (parseNested md w.length)
    (parseWindow md (parseNested md w.length) budget) w.length (Nat.zero_le _) (Nat.le_refl _) ∅
    (Memo.settled_empty _ _)
  rw [wordCursor, Cursor.inside_whole] at member
  exact exists_token_emitAll member isEmphasis 0 []

/-- The same runs inside a word, which ends in a letter and in an underscore. -/
theorem parseInline_word_runs :
    let md : Markdown := { transform := .ok }
    md.parseInline "a__b_c".toList =
        [{ kind := .text, tag := [], nesting := .selfClosing, content := "a__b_c".toList }] ∧
      ∃ token ∈ md.parseInline "a__b_c_".toList,
        token.kind = .emOpen ∨ token.kind = .strongOpen := by
  intro md
  have word : IsWord "a__b_c".toList := by decide
  have longer : IsWord "a__b_c_".toList := by decide
  have reopened : IsReopened "a__b_c_".toList :=
    ⟨⟨'b', by decide, ['a'], "_c_".toList, rfl⟩, by decide⟩
  exact ⟨(parseInline_word md word).1 fun reopened => absurd reopened.ends (by decide),
    (parseInline_word md longer).2 reopened TagGrammar.jsx_lawful rfl (by decide)⟩

/-- The first underscore of the run is refused, for a letter stands before it. The second one opens
emphasis, which the last one closes. -/
theorem parseInline_word_reopened :
    let md : Markdown := { transform := .ok }
    IsWord "a__b_".toList ∧
      (md.parseInline "a__b_".toList).map (fun token => (token.kind, token.content)) =
        [(.text, "a_".toList), (.emOpen, []), (.text, "b".toList), (.emClose, [])] ∧
      md.parseInline "a__b_".toList ≠
        [{ kind := .text, tag := [], nesting := .selfClosing, content := "a__b_".toList }] := by
  intro md
  have tokens : (md.parseInline "a__b_".toList).map (fun token => (token.kind, token.content)) =
      [(.text, "a_".toList), (.emOpen, []), (.text, "b".toList), (.emClose, [])] := by
    decide +kernel
  refine ⟨by decide, tokens, fun single => ?_⟩
  rw [single] at tokens
  cases tokens

end ComponentMarkdown
