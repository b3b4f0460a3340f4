import ComponentMarkdown.Proofs.Inline.Progress
import ComponentMarkdown.Proofs.Inline.Window

/-!
# What skipping recalls

What is remembered at a place was found with some budget of nesting, and is recalled with another.
In one window that makes no difference as long as the budget exceeds the number of characters ahead
that can open a construct: skipping goes one level deeper only behind such a character. The file
has:

* `Gives`, a computation with one value for every memo of some sort;
* `Outlook`, a window with what skipping finds at its places, and the searches, which it determines;
* `gives_skip`: skipping finds what it finds with nothing to recall.
-/

namespace ComponentMarkdown

/-! ## Memos of a sort -/

namespace Memoized

variable {α β : Type} {sort : Memo → Prop}

/-- With a memo of the sort, `x` gives the value and another memo of the sort. -/
def Gives (sort : Memo → Prop) (x : Memoized α) (value : α) : Prop :=
  ∀ memo : Memo, sort memo → (x.run memo).1 = value ∧ sort (x.run memo).2

theorem Gives.pure (value : α) : Gives sort (Pure.pure value) value :=
  fun _ sorted => ⟨rfl, sorted⟩

theorem Gives.bind {x : Memoized α} {f : α → Memoized β} {value : α} {result : β}
    (first : Gives sort x value) (next : Gives sort (f value) result) :
    Gives sort (x >>= f) result := by
  intro memo sorted
  obtain ⟨same, kept⟩ := first memo sorted
  rw [run_bind, same]
  exact next _ kept

end Memoized

open Memoized (Gives)

/-! ## Openings -/

/-- Can the character begin a construct whose end has to be looked for? -/
def isOpening (c : Char) : Bool :=
  c == '*' || c == '_' || c == '[' || c == '<' || c == '{'

/-- How many characters of a text can begin such a construct. -/
def openings (s : Text) : Nat :=
  s.countP isOpening

theorem openings_le_length (s : Text) : openings s ≤ s.length :=
  List.countP_le_length

theorem openings_drop_le (s : Text) {n m : Nat} (behind : n ≤ m) :
    openings (s.drop m) ≤ openings (s.drop n) := by
  obtain ⟨k, rfl⟩ := Nat.exists_eq_add_of_le behind
  rw [← List.drop_drop]
  exact (List.drop_sublist k _).countP_le

theorem openings_take_add_drop (s : Text) (n : Nat) :
    openings s = openings (s.take n) + openings (s.drop n) := by
  rw [openings, openings, openings, ← List.countP_append, List.take_append_drop]

/-- Behind a character that can begin a construct there are fewer of them. -/
theorem openings_drop_lt {s : Text} {c : Char} {n : Nat} (inside : c ∈ s.take n)
    (opens : isOpening c = true) : openings (s.drop n) < openings s := by
  have counted : 0 < openings (s.take n) := List.countP_pos_iff.mpr ⟨c, inside, opens⟩
  have parts := openings_take_add_drop s n
  omega

/-- The openings between two places, and those behind the second one. -/
theorem openings_between_add_le (s : Text) (pos next : Nat) :
    openings ((s.take next).drop pos) + openings (s.drop next) ≤ openings s := by
  have parts := openings_take_add_drop s next
  have fewer : openings ((s.take next).drop pos) ≤ openings (s.take next) :=
    (List.drop_sublist _ _).countP_le
  omega

theorem isOpening_of_mayEmbed {s : Text} (may : mayEmbed s = true) :
    ∃ c rest, s = c :: rest ∧ isOpening c = true := by
  unfold mayEmbed at may
  split at may
  · exact ⟨_, _, rfl, rfl⟩
  · exact ⟨_, _, rfl, rfl⟩
  · exact absurd may (by simp)

/-! ## Outlooks -/

/-- A window of a text, with what skipping finds at each of its places. -/
structure Outlook where
  source : Text
  stop : Nat
  outcome : Nat → Skipped
  inText : stop ≤ source.length
  forward : ∀ pos, pos < stop → pos < (outcome pos).stop ∧ (outcome pos).stop ≤ stop

namespace Outlook

variable {α β : Type} {outlook : Outlook} {first room : Nat}

/-- The cursor at a place of the window. -/
def cursor (outlook : Outlook) (pos : Nat) : Cursor :=
  Cursor.inside outlook.source pos outlook.stop

/-- How many characters from a place on can begin a construct. -/
def ahead (outlook : Outlook) (pos : Nat) : Nat :=
  openings (outlook.cursor pos).rest

theorem ahead_le {pos next : Nat} (behind : pos ≤ next) :
    outlook.ahead next ≤ outlook.ahead pos :=
  openings_drop_le _ behind

theorem ahead_le_length (outlook : Outlook) (pos : Nat) :
    outlook.ahead pos ≤ outlook.source.length :=
  calc
    outlook.ahead pos ≤ (outlook.cursor pos).rest.length := openings_le_length _
    _ ≤ (outlook.source.take outlook.stop).length := (List.drop_sublist _ _).length_le
    _ ≤ outlook.source.length := List.length_take_le' _ _

theorem ahead_le_openings (outlook : Outlook) (pos : Nat) :
    outlook.ahead pos ≤ openings outlook.source :=
  ((List.drop_sublist _ _).trans (List.take_sublist _ _)).countP_le

/-- Skipping finds what it should at the places from `first` on that have fewer openings ahead of
them than there is room for. -/
def Answers (outlook : Outlook) (first room : Nat) (sort : Memo → Prop) (skip : Skip) : Prop :=
  ∀ pos, first ≤ pos → pos < outlook.stop → outlook.ahead pos < room →
    Gives sort (skip (outlook.cursor pos)) (outlook.outcome pos)

/-- A search that asks only at those places has one value, however the answers are found. -/
def Determines (outlook : Outlook) (first room : Nat) (search : Skip → Memoized α) : Prop :=
  ∃ value, ∀ sort skip, outlook.Answers first room sort skip → Gives sort (search skip) value

theorem Determines.pure (value : α) :
    outlook.Determines first room fun _ => (Pure.pure value : Memoized α) :=
  ⟨value, fun _ _ _ => .pure value⟩

theorem Determines.bind {search : Skip → Memoized α} {next : α → Skip → Memoized β}
    (searched : outlook.Determines first room search)
    (goOn : ∀ value, outlook.Determines first room (next value)) :
    outlook.Determines first room fun skip => search skip >>= fun value => next value skip := by
  obtain ⟨value, gives⟩ := searched
  obtain ⟨result, more⟩ := goOn value
  exact ⟨result, fun sort skip answers => (gives sort skip answers).bind (more sort skip answers)⟩

/-- A search may ask what is skipped, and goes on behind it in the same window. -/
theorem Determines.ask {pos : Nat} (from_first : first ≤ pos) (inWindow : pos < outlook.stop)
    (fits : outlook.ahead pos < room) {next : Skipped → Skip → Memoized α}
    (goOn : (outlook.cursor pos).moveTo (outlook.outcome pos).stop =
        outlook.cursor (outlook.outcome pos).stop →
      first ≤ (outlook.outcome pos).stop →
      outlook.ahead (outlook.outcome pos).stop < room →
      outlook.Determines first room (next (outlook.outcome pos))) :
    outlook.Determines first room fun skip =>
      skip (outlook.cursor pos) >>= fun skipped => next skipped skip := by
  obtain ⟨behind, inside⟩ := outlook.forward pos inWindow
  have fewer := @ahead_le outlook _ _ (Nat.le_of_lt behind)
  obtain ⟨value, gives⟩ := goOn (Cursor.moveTo_inside (Nat.le_of_lt behind) inside)
    (by omega) (by omega)
  exact ⟨value, fun sort skip answers =>
    (answers pos from_first inWindow fits).bind (gives sort skip answers)⟩

theorem lt_stop_of_cons {pos : Nat} {c : Char} {rest : Text}
    (begins : (outlook.cursor pos).rest = c :: rest) : pos < outlook.stop := by
  refine Nat.lt_of_not_le fun ended => ?_
  have none : (outlook.cursor pos).rest = [] := Cursor.inside_rest_eq_nil ended
  rw [none] at begins
  cases begins

/-! ## Searches -/

theorem determines_findCloser (marker : Char) (count bodyStart fuel : Nat) {pos : Nat}
    (from_first : first ≤ pos) (fits : outlook.ahead pos < room) :
    outlook.Determines first room fun skip =>
      findCloser skip marker count bodyStart fuel (outlook.cursor pos) := by
  induction fuel generalizing pos with
  | zero => exact .pure none
  | succ fuel ih =>
    simp only [findCloser]
    cases begins : (outlook.cursor pos).rest with
    | nil => exact .pure none
    | cons c rest =>
      simp only [List.isEmpty_cons, Bool.false_eq_true, if_false]
      split
      · exact .pure _
      · refine Determines.ask from_first (lt_stop_of_cons begins) fits fun moved after fewer => ?_
        rw [moved]
        exact ih after fewer

theorem determines_findLabelEnd (fuel depth : Nat) {pos : Nat} (from_first : first ≤ pos)
    (fits : outlook.ahead pos < room) :
    outlook.Determines first room fun skip =>
      findLabelEnd skip fuel depth (outlook.cursor pos) := by
  induction fuel generalizing depth pos with
  | zero => exact .pure none
  | succ fuel ih =>
    simp only [findLabelEnd]
    cases begins : (outlook.cursor pos).rest with
    | nil => exact .pure none
    | cons mark rest =>
      dsimp only
      generalize (if (mark == ']') = true then depth - 1 else depth) = depth
      split
      · exact .pure _
      · refine Determines.ask from_first (lt_stop_of_cons begins) fits fun moved after fewer => ?_
        rw [moved]
        exact ih _ after fewer

theorem determines_closeAhead (grammar : TagGrammar) (name : Text) (fuel : Nat) {pos : Nat}
    (from_first : first ≤ pos) (fits : outlook.ahead pos < room) :
    outlook.Determines first room fun skip =>
      closeAhead grammar skip name fuel (outlook.cursor pos) := by
  induction fuel generalizing pos with
  | zero => exact .pure none
  | succ fuel ih =>
    simp only [closeAhead]
    cases begins : (outlook.cursor pos).rest with
    | nil => exact .pure none
    | cons c rest =>
      simp only [List.isEmpty_cons, Bool.false_eq_true, if_false]
      refine Determines.ask from_first (lt_stop_of_cons begins) fits fun moved after fewer => ?_
      rw [moved]
      cases grammar.closeTag .inline (c :: rest) with
      | none => exact ih after fewer
      | some tag =>
        dsimp only
        split
        · exact .pure _
        · exact ih after fewer

/-! ## Rules -/

theorem advance_cursor {pos n : Nat} (inWindow : pos < outlook.stop)
    (fits : n ≤ (outlook.cursor pos).rest.length) :
    (outlook.cursor pos).advance n = outlook.cursor (pos + n) := by
  rw [cursor, Cursor.length_inside outlook.inText] at fits
  exact Cursor.advance_inside (by omega)

/-- There are fewer openings ahead of a place behind one of them. -/
theorem ahead_add_lt {pos n : Nat} {c : Char} (inside : c ∈ (outlook.cursor pos).rest.take n)
    (opens : isOpening c = true) : outlook.ahead (pos + n) < outlook.ahead pos := by
  have behind : (outlook.cursor (pos + n)).rest = (outlook.cursor pos).rest.drop n := by
    simp only [cursor, Cursor.inside, List.drop_drop]
  rw [ahead, behind]
  exact openings_drop_lt inside opens

theorem determines_emphasis {pos : Nat} (from_first : first ≤ pos) :
    outlook.Determines first (outlook.ahead pos) fun skip =>
      emphasis? skip (outlook.cursor pos) := by
  simp only [emphasis?]
  cases begins : (outlook.cursor pos).rest with
  | nil => exact .pure none
  | cons marker rest =>
    dsimp only
    have run_pos := Text.runLength_pos marker rest
    have run_le := Text.runLength_le marker (marker :: rest)
    generalize Text.runLength marker (marker :: rest) = run at *
    split
    · exact .pure none
    · next opens =>
      have isMarker : isOpening marker = true := by
        simp only [Bool.or_eq_true, Bool.not_eq_true', not_or, Bool.not_eq_false] at opens
        simp only [isOpening, Bool.or_eq_true]
        exact .inl (.inl (.inl opens.1))
      obtain ⟨count, bounded⟩ : ∃ count, min run 2 = count + 1 := ⟨min run 2 - 1, by omega⟩
      have fewer : outlook.ahead (pos + min run 2) < outlook.ahead pos :=
        ahead_add_lt (by simp [begins, bounded]) isMarker
      rw [advance_cursor (lt_stop_of_cons begins) (by rw [begins]; omega)]
      refine .bind (determines_findCloser _ _ _ _ (Nat.le_add_right_of_le from_first) fewer)
        fun found => ?_
      cases found <;> exact .pure _

theorem determines_labelled {pos opening : Nat} (enclosure : Target → Enclosure)
    (from_first : first ≤ pos) (opens : '[' ∈ (outlook.cursor pos).rest.take opening)
    (fits : opening ≤ (outlook.cursor pos).rest.length) :
    outlook.Determines first (outlook.ahead pos) fun skip =>
      labelled? skip (outlook.cursor pos) opening enclosure := by
  have fewer : outlook.ahead (pos + opening) < outlook.ahead pos := ahead_add_lt opens rfl
  have inWindow : pos < outlook.stop := by
    cases begins : (outlook.cursor pos).rest with
    | nil => simp [begins] at opens
    | cons c rest => exact lt_stop_of_cons begins
  simp only [labelled?]
  rw [advance_cursor inWindow fits]
  refine .bind (determines_findLabelEnd _ _ (Nat.le_add_right_of_le from_first) fewer)
    fun found => ?_
  cases found with
  | none => exact .pure none
  | some labelEnd =>
    dsimp only
    split <;> exact .pure _

theorem determines_embedded {md : Markdown} (lawful : md.grammar.Lawful) {pos : Nat}
    (from_first : first ≤ pos) :
    outlook.Determines first (outlook.ahead pos) fun skip =>
      embedded? md skip (outlook.cursor pos) := by
  simp only [embedded?]
  split
  · exact .pure none
  · next may =>
    obtain ⟨c, rest, begins, isOpen⟩ := isOpening_of_mayEmbed (by simpa using may)
    cases opens : md.grammar.openTag .inline (outlook.cursor pos).rest with
    | none => exact .pure none
    | some tag =>
      cases md.grammar.selfClosing .inline (outlook.cursor pos).rest with
      | some length => exact .pure _
      | none =>
        obtain ⟨positive, bounded⟩ := lawful.openTag opens
        obtain ⟨length, same⟩ := Nat.exists_eq_succ_of_ne_zero (Nat.ne_of_gt positive)
        have fewer : outlook.ahead (pos + tag.length) < outlook.ahead pos :=
          ahead_add_lt (by simp [begins, same]) isOpen
        dsimp only
        rw [advance_cursor (lt_stop_of_cons begins) bounded]
        refine .bind (determines_closeAhead _ _ _ (Nat.le_add_right_of_le from_first) fewer)
          fun found => ?_
        cases found <;> exact .pure _

/-- Every rule asks only at places with fewer openings ahead than its own place has. -/
theorem determines_scan {md : Markdown} (lawful : md.grammar.Lawful) (rule : InlineRule)
    {pos : Nat} (from_first : first ≤ pos) :
    outlook.Determines first (outlook.ahead pos) fun skip =>
      scan md skip rule (outlook.cursor pos) := by
  cases rule with
  | emphasis => exact determines_emphasis from_first
  | embedded => exact determines_embedded lawful from_first
  | link =>
    simp only [scan, link?]
    split
    · next begins => exact determines_labelled _ from_first (by simp [begins]) (by simp [begins])
    · exact .pure none
  | image =>
    simp only [scan, image?]
    split
    · next begins => exact determines_labelled _ from_first (by simp [begins]) (by simp [begins])
    · exact .pure none
  | _ => exact .pure _

theorem determines_firstLength {scanRule : Skip → InlineRule → Cursor → Memoized (Option Construct)}
    {c : Cursor} (scans : ∀ rule, outlook.Determines first room fun skip => scanRule skip rule c)
    (rules : List InlineRule) :
    outlook.Determines first room fun skip => firstLength (scanRule skip) c rules := by
  induction rules with
  | nil => exact .pure none
  | cons rule rules ih =>
    simp only [firstLength]
    refine (scans rule).bind fun found => ?_
    cases found with
    | none => exact ih
    | some construct =>
      dsimp only
      split
      · exact .pure _
      · exact ih

end Outlook

/-! ## Skipping -/

/-- What is remembered at the places of an outlook from `first` on is what it says, unless it lies
outside the window. -/
def Memo.Settled (outlook : Outlook) (first : Nat) (memo : Memo) : Prop :=
  ∀ (pos : Nat) (known : Skipped), first ≤ pos → pos < outlook.stop → memo[pos]? = some known →
    known.stop ≤ outlook.stop → known = outlook.outcome pos

theorem Memo.settled_empty (outlook : Outlook) (first : Nat) : Memo.Settled outlook first ∅ := by
  intro pos known _ _ found
  simp at found

theorem Memo.Settled.later {outlook : Outlook} {first later : Nat} {memo : Memo}
    (settled : memo.Settled outlook first) (behind : first ≤ later) :
    memo.Settled outlook later :=
  fun pos known from_later => settled pos known (Nat.le_trans behind from_later)

theorem Memo.Settled.insert {outlook : Outlook} {first pos : Nat} {memo : Memo}
    (settled : memo.Settled outlook first) :
    Memo.Settled outlook first (memo.insert pos (outlook.outcome pos)) := by
  intro other known from_first inWindow found inside
  rw [Std.TreeMap.getElem?_insert] at found
  split at found
  · next same =>
    cases found
    rw [Nat.compare_eq_eq.mp same]
  · exact settled other known from_first inWindow found inside

/-- What is looked up is what would be found anew, and then remembered. -/
theorem gives_lookUp {outlook : Outlook} {first pos : Nat} {find : Skip} (from_first : first ≤ pos)
    (inWindow : pos < outlook.stop)
    (found : Gives (Memo.Settled outlook first) (find (outlook.cursor pos)) (outlook.outcome pos)) :
    Gives (Memo.Settled outlook first) (lookUp find (outlook.cursor pos))
      (outlook.outcome pos) := by
  intro memo settled
  have stop_eq : (outlook.cursor pos).stop = outlook.stop :=
    Cursor.stop_inside outlook.inText (Nat.le_of_lt inWindow)
  have anew : ((remember find (outlook.cursor pos)).run memo).1 = outlook.outcome pos ∧
      Memo.Settled outlook first ((remember find (outlook.cursor pos)).run memo).2 := by
    obtain ⟨same, kept⟩ := found memo settled
    have remembered := @Memo.Settled.insert outlook first pos _ kept
    rw [← same] at remembered
    exact ⟨same, remembered⟩
  rw [run_lookUp]
  split
  · next known recalled =>
    split
    · next inside =>
      exact ⟨settled pos known from_first inWindow recalled (stop_eq ▸ inside), settled⟩
    · exact anew
  · exact anew

/-- What the rules find at a cursor, or else one character. -/
def skipByRules (md : Markdown) (skip : Skip) : Skip := fun c => do
  match ← firstLength (scan md skip) c md.inlineChain with
  | some length => return ⟨c.pos + length, true⟩
  | none => return ⟨c.pos + 1, false⟩

theorem skip_succ (md : Markdown) (budget : Nat) :
    skip md (budget + 1) = lookUp (skipByRules md (skip md budget)) := rfl

theorem Outlook.determines_skipByRules {md : Markdown} (lawful : md.grammar.Lawful)
    {outlook : Outlook} {first pos : Nat} (from_first : first ≤ pos) :
    outlook.Determines first (outlook.ahead pos) fun skip =>
      skipByRules md skip (outlook.cursor pos) := by
  simp only [skipByRules]
  refine .bind (determines_firstLength (fun rule => determines_scan lawful rule from_first) _)
    fun found => ?_
  cases found <;> exact .pure _

/-- A window, with what skipping finds when it has nothing to recall and levels enough. -/
def Outlook.anew {md : Markdown} (lawful : md.grammar.Lawful) {source : Text} {stop : Nat}
    (inText : stop ≤ source.length) : Outlook where
  source
  stop
  outcome pos := ((skip md (source.length + 1) (Cursor.inside source pos stop)).run ∅).1
  inText
  forward pos inWindow := by
    have bounds := (forward_skip lawful (source.length + 1) (Cursor.inside source pos stop)
      (Cursor.inside_rest_ne_nil inText inWindow) ∅ Memo.forward_empty).1
    rwa [Cursor.inside_pos, Cursor.stop_inside inText (Nat.le_of_lt inWindow)] at bounds

section

variable {md : Markdown} {lawful : md.grammar.Lawful} {source : Text} {stop : Nat}
  {inText : stop ≤ source.length} {outlook : Outlook}

theorem Outlook.outcome_anew (isAnew : outlook = .anew lawful inText) (pos : Nat) :
    outlook.outcome pos =
      ((skipByRules md (skip md source.length) (outlook.cursor pos)).run ∅).1 := by
  subst isAnew
  change ((skip md (source.length + 1) _).run ∅).1 = _
  rw [skip_succ, run_lookUp, Std.TreeMap.getElem?_emptyc]
  rfl

/-- What skipping finds at a place is determined by what it finds behind the place, on whatever
level of nesting it does. The induction is on the number of openings ahead. -/
theorem gives_skip (isAnew : outlook = .anew lawful inText) {first budget pos : Nat}
    (from_first : first ≤ pos) (inWindow : pos < outlook.stop)
    (fits : outlook.ahead pos < budget) :
    Gives (Memo.Settled outlook first) (skip md budget (outlook.cursor pos))
      (outlook.outcome pos) := by
  obtain ⟨ahead, isAhead⟩ : ∃ ahead, outlook.ahead pos = ahead := ⟨_, rfl⟩
  induction ahead using Nat.strongRecOn generalizing budget pos with
  | ind ahead ih =>
    obtain ⟨value, determined⟩ :=
      @Outlook.determines_skipByRules md lawful outlook first pos from_first
    have found {budget : Nat} (enough : outlook.ahead pos ≤ budget) :
        Gives (Memo.Settled outlook first)
          (skipByRules md (skip md budget) (outlook.cursor pos)) value :=
      determined _ _ fun inner after inside fewer =>
        ih _ (isAhead ▸ fewer) after inside (Nat.lt_of_lt_of_le fewer enough) rfl
    have isOutcome : outlook.outcome pos = value := by
      have enough : outlook.ahead pos ≤ source.length := by
        subst isAnew
        exact Outlook.ahead_le_length _ pos
      rw [Outlook.outcome_anew isAnew]
      exact (found enough ∅ (Memo.settled_empty outlook first)).1
    obtain ⟨budget, rfl⟩ := Nat.exists_eq_succ_of_ne_zero (Nat.ne_zero_of_lt fits)
    refine gives_lookUp from_first inWindow ?_
    rw [isOutcome]
    exact found (Nat.le_of_lt_succ fits)

end

end ComponentMarkdown
