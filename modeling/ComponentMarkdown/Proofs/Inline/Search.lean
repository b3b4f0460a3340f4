import ComponentMarkdown.Proofs.Inline.Progress
import ComponentMarkdown.Proofs.TagGrammar.Delimiters

/-!
# Searches

The ends of emphasis, of a label and of an element are looked for in one way: skip what stands at
the cursor, go on behind it, and halt where the end stands. The file has:

* `Search`, which says where to halt and what to keep in mind, and `Search.find`;
* the three searches, and that the parser runs them (`findCloser_eq`, `findLabelEnd_eq`,
  `closeAhead_eq`);
* `Search.Quiet`: plain characters are passed over without notice;
* `ensures_framed`: the body of a construct ends in front of a special character.
-/

namespace ComponentMarkdown

open Memoized (Ensures)

/-- A search halts at a cursor before it skips what stands there, or after it has seen what was
skipped; else it goes on in another state. -/
structure Search (State : Type) where
  halts : State → Cursor → Bool
  next : State → Cursor → Skipped → Option State

namespace Search

variable {State : Type}

/-- The cursor where the search halts, within `fuel` steps. -/
def go (search : Search State) (skip : Skip) : Nat → State → Cursor → Memoized (Option Cursor)
  | 0, _, _ => return none
  | fuel + 1, state, c => do
    if c.rest.isEmpty then return none
    if search.halts state c then return some c
    let skipped ← skip c
    match search.next state c skipped with
    | none => return some c
    | some state => search.go skip fuel state (c.moveTo skipped.stop)

/-- The cursor in the window where the search halts. -/
def find (search : Search State) (skip : Skip) (state : State) (c : Cursor) :
    Memoized (Option Cursor) :=
  search.go skip (c.rest.length + 1) state c

/-! ## The three searches -/

/-- Halts at a run of at least `count` markers that closes emphasis. -/
def closer (marker : Char) (count bodyStart : Nat) : Search Unit where
  halts _ c :=
    let run := Text.runLength marker c.rest
    c.pos > bodyStart && 0 < run && count ≤ run && closesEmphasis c run marker
  next _ _ _ := some ()

/-- Halts at the bracket that closes a label; the state counts the brackets inside it that are
open. -/
def labelEnd : Search Nat where
  halts depth c := c.rest.head? == some ']' && depth == 0
  next depth c skipped :=
    if c.rest.head? == some ']' then some (depth - 1)
    else
      let opened := c.rest.head? == some '[' && !skipped.consumed && skipped.stop == c.pos + 1
      some (if opened then depth + 1 else depth)

/-- Halts at the close tag of that name, where skipping takes a single plain character. -/
def closeTag (grammar : TagGrammar) (name : Text) : Search Unit where
  halts _ _ := false
  next _ c skipped :=
    match grammar.closeTag .inline c.rest with
    | some tag => if tag.name = name ∧ skipped.consumed = false then none else some ()
    | none => some ()

end Search

/-- The beginning and the end of the close tag at which a search has halted. -/
def closeTagAt (grammar : TagGrammar) (c : Cursor) : Option (Nat × Nat) :=
  (grammar.closeTag .inline c.rest).map fun tag => (c.pos, c.pos + tag.length)

section

variable (skip : Skip) (fuel : Nat) (c : Cursor)

theorem findCloser_eq (marker : Char) (count bodyStart : Nat) :
    findCloser skip marker count bodyStart fuel c =
      (Search.closer marker count bodyStart).go skip fuel () c >>= fun found =>
        return found.map Cursor.pos := by
  induction fuel generalizing c with
  | zero => rfl
  | succ fuel ih =>
    have goOn : (skip c >>= fun skipped =>
        findCloser skip marker count bodyStart fuel (c.moveTo skipped.stop)) =
        (skip c >>= fun skipped =>
          (Search.closer marker count bodyStart).go skip fuel () (c.moveTo skipped.stop)) >>=
            fun found => return found.map Cursor.pos := by
      rw [bind_assoc]
      exact congrArg (skip c >>= ·) (funext fun skipped => ih _)
    rw [findCloser, Search.go]
    cases c.rest.isEmpty with
    | true => rfl
    | false =>
      rw [goOn]
      cases halts : (Search.closer marker count bodyStart).halts () c with
      | true => exact if_pos halts
      | false => exact if_neg (Bool.eq_false_iff.mp halts)

theorem findLabelEnd_eq (depth : Nat) :
    findLabelEnd skip fuel (depth + 1) c =
      Search.labelEnd.go skip fuel depth c >>= fun found => return found.map Cursor.pos := by
  induction fuel generalizing depth c with
  | zero => rfl
  | succ fuel ih =>
    rw [findLabelEnd, Search.go]
    cases begins : c.rest with
    | nil => rfl
    | cons mark rest =>
      have head : c.rest.head? = some mark := congrArg List.head? begins
      have halts : Search.labelEnd.halts depth c = (mark == ']' && depth == 0) := by
        simp [Search.labelEnd, head]
      have next (skipped : Skipped) : Search.labelEnd.next depth c skipped =
          if mark == ']' then some (depth - 1)
          else some (if mark == '[' && !skipped.consumed && skipped.stop == c.pos + 1
            then depth + 1 else depth) := by
        simp [Search.labelEnd, head]
      simp only [halts, next, List.isEmpty_cons, Bool.false_eq_true, if_false]
      cases closes : mark == ']' with
      | true =>
        obtain rfl := eq_of_beq closes
        cases depth with
        | zero => rfl
        | succ depth => exact congrArg (skip c >>= ·) (funext fun skipped => ih _ _)
      | false =>
        simp only [Bool.false_eq_true, if_false, Bool.false_and, beq_iff_eq, Nat.succ_ne_zero,
          bind_assoc]
        refine congrArg (skip c >>= ·) (funext fun skipped => ?_)
        cases mark == '[' && !skipped.consumed && skipped.stop == c.pos + 1 with
        | true => exact ih _ _
        | false => exact ih _ _

theorem closeAhead_eq (grammar : TagGrammar) (name : Text) :
    closeAhead grammar skip name fuel c =
      (Search.closeTag grammar name).go skip fuel () c >>= fun found =>
        return found.bind (closeTagAt grammar) := by
  induction fuel generalizing c with
  | zero => rfl
  | succ fuel ih =>
    rw [closeAhead, Search.go]
    split
    · rfl
    · have halts : (Search.closeTag grammar name).halts () c = false := rfl
      have next (skipped : Skipped) : (Search.closeTag grammar name).next () c skipped =
          match grammar.closeTag .inline c.rest with
          | some tag => if tag.name = name ∧ skipped.consumed = false then none else some ()
          | none => some () := rfl
      simp only [halts, next, Bool.false_eq_true, if_false, bind_assoc]
      refine congrArg (skip c >>= ·) (funext fun skipped => ?_)
      cases closes : grammar.closeTag .inline c.rest with
      | none => exact ih _
      | some tag =>
        dsimp only
        split
        · simp [closeTagAt, closes]
        · exact ih _

end

/-! ## Plain characters -/

namespace Search

variable {State : Type}

/-- Over plain characters the search goes on in the same state. Where it halts after something was
skipped, that was a single character. -/
structure Quiet (search : Search State) : Prop where
  passes {state : State} {c : Cursor} {mark : Char} {rest : Text} :
    c.rest = mark :: rest → isSpecial mark = false →
      search.halts state c = false ∧ ∀ skipped, search.next state c skipped = some state
  single {state : State} {c : Cursor} {skipped : Skipped} :
    search.next state c skipped = none → skipped.consumed = false

theorem quiet_closer {marker : Char} (special : isSpecial marker = true) (count bodyStart : Nat) :
    (closer marker count bodyStart).Quiet where
  passes := by
    intro state c mark rest begins plain
    have other : (mark == marker) = false := by
      refine beq_eq_false_iff_ne.mpr fun same => ?_
      rw [same, special] at plain
      cases plain
    have none : Text.runLength marker c.rest = 0 := by
      simp [begins, Text.runLength, other]
    exact ⟨by simp [closer, none], fun _ => rfl⟩
  single := nofun

theorem quiet_labelEnd : labelEnd.Quiet where
  passes := by
    intro depth c mark rest begins plain
    have closes : mark ≠ ']' := fun same => by cases same ▸ plain
    have opens : mark ≠ '[' := fun same => by cases same ▸ plain
    exact ⟨by simp [labelEnd, begins, closes], fun _ => by simp [labelEnd, begins, closes, opens]⟩
  single := by
    intro depth c skipped next
    simp only [labelEnd] at next
    split at next <;> cases next

theorem quiet_closeTag {grammar : TagGrammar} (delimited : grammar.Delimited) (name : Text) :
    (closeTag grammar name).Quiet where
  passes := by
    intro state c mark rest begins plain
    refine ⟨rfl, fun skipped => ?_⟩
    cases closes : grammar.closeTag .inline c.rest with
    | none => simp [closeTag, closes]
    | some tag =>
      rw [begins] at closes
      rw [delimited.closeTag closes] at plain
      cases plain
  single := by
    intro state c skipped next
    cases closes : grammar.closeTag .inline c.rest with
    | none => simp [closeTag, closes] at next
    | some tag =>
      simp only [closeTag, closes] at next
      split at next
      · next halts => exact halts.2
      · cases next

end Search

theorem Cursor.advance_advance (c : Cursor) (n m : Nat) :
    (c.advance n).advance m = c.advance (n + m) := by
  simp only [advance, Cursor.mk.injEq, List.drop_drop, List.take_add, List.getLast?_append,
    Option.or_assoc, and_true]
  exact Nat.add_assoc _ _ _

/-- A search that halts does so in its window, in front of a special character. -/
def Halts (c place : Cursor) : Prop :=
  ∃ n mark, place = c.advance n ∧ c.rest[n]? = some mark ∧ isSpecial mark = true

variable {skip : Skip}

theorem ensures_go {State : Type} {search : Search State} (quiet : search.Quiet)
    (forward : skip.Forward) (fuel : Nat) (state : State) (c : Cursor) :
    Ensures (search.go skip fuel state c) fun found =>
      ∀ place, found = some place → Halts c place := by
  induction fuel generalizing state c with
  | zero => exact .pure (by simp)
  | succ fuel ih =>
    rw [Search.go]
    split
    · exact .pure (by simp)
    · next notEmpty =>
      obtain ⟨mark, rest, begins⟩ := List.exists_cons_of_ne_nil (by simpa using notEmpty)
      -- Where it halts at the cursor itself, the character is special because it was noticed.
      have here (noticed : isSpecial mark = true) :
          ∀ place, some c = some place → Halts c place := by
        intro place same
        cases same
        exact ⟨0, mark, by simp [Cursor.advance], by simp [begins], noticed⟩
      split
      · next halts =>
        refine .pure (here ?_)
        cases special : isSpecial mark with
        | true => rfl
        | false => exact absurd halts (by simp [(quiet.passes begins special).1])
      · refine (forward c (by simp [begins])).bind fun skipped _ => ?_
        cases next : search.next state c skipped with
        | none =>
          refine .pure (here ?_)
          cases special : isSpecial mark with
          | true => rfl
          | false => simp [(quiet.passes begins special).2] at next
        | some state =>
          refine (ih state _).mono fun found halts place isPlace => ?_
          obtain ⟨n, mark, same, special⟩ := halts place isPlace
          refine ⟨skipped.stop - c.pos + n, mark, ?_, ?_⟩
          · rw [same, Cursor.moveTo, Cursor.advance_advance]
          · simpa [Cursor.moveTo, Cursor.advance] using special

/-- The body of a construct ends in front of a special character. -/
def Construct.Framed (construct : Construct) (rest : Text) : Prop :=
  ∀ enclosure skip length, construct.form = .enclosing enclosure skip length →
    ∃ mark, rest[skip + length]? = some mark ∧ isSpecial mark = true

/-- The body of whatever was found ends in front of a special character. -/
def Construct.AllFramed (found : Option Construct) (rest : Text) : Prop :=
  ∀ construct, found = some construct → construct.Framed rest

theorem Construct.AllLeaves.allFramed {found : Option Construct} {rest : Text}
    (leaves : AllLeaves found rest) : AllFramed found rest := by
  intro construct same enclosure skip length isForm
  obtain ⟨-, piece, isLeaf⟩ := leaves construct same
  rw [isForm] at isLeaf
  cases isLeaf

theorem Construct.allFramed_none (rest : Text) : AllFramed none rest := by
  intro construct found
  cases found

/-- Where a search behind the first `skip` characters halts, the character is special. -/
theorem Halts.framed {c place : Cursor} {skip : Nat} (halts : Halts (c.advance skip) place) :
    ∃ mark, c.rest[skip + (place.pos - (c.advance skip).pos)]? = some mark ∧
      isSpecial mark = true := by
  obtain ⟨n, mark, rfl, here, special⟩ := halts
  refine ⟨mark, ?_, special⟩
  simpa [Cursor.advance] using here

theorem ensures_framed_labelled (forward : skip.Forward) (c : Cursor) (opening : Nat)
    (enclosure : Target → Enclosure) :
    Ensures (labelled? skip c opening enclosure) (Construct.AllFramed · c.rest) := by
  rw [labelled?]
  dsimp only
  rw [findLabelEnd_eq, bind_assoc]
  refine (ensures_go Search.quiet_labelEnd forward _ _ _).bind fun found halts => ?_
  rw [pure_bind]
  cases found with
  | none => exact .pure (Construct.allFramed_none _)
  | some place =>
    dsimp only [Option.map_some]
    split
    · exact .pure (Construct.allFramed_none _)
    · refine .pure fun construct made _ _ _ isForm => ?_
      cases made
      cases isForm
      exact (halts place rfl).framed

theorem ensures_framed_emphasis (forward : skip.Forward) (c : Cursor) :
    Ensures (emphasis? skip c) (Construct.AllFramed · c.rest) := by
  rw [emphasis?]
  split
  · exact .pure (Construct.allFramed_none _)
  · next marker rest begins =>
    dsimp only
    split
    · exact .pure (Construct.allFramed_none _)
    · next opens =>
      have special : isSpecial marker = true := by
        simp only [Bool.or_eq_true, Bool.not_eq_true', not_or, Bool.not_eq_false,
          beq_iff_eq] at opens
        rcases opens.1 with rfl | rfl <;> rfl
      rw [findCloser_eq, bind_assoc]
      refine (ensures_go (Search.quiet_closer special _ _) forward _ _ _).bind
        fun found halts => ?_
      rw [pure_bind]
      cases found with
      | none => exact .pure (Construct.allFramed_none _)
      | some place =>
        refine .pure fun construct made _ _ _ isForm => ?_
        cases made
        cases isForm
        exact (halts place rfl).framed

theorem ensures_framed_embedded {md : Markdown} (delimited : md.grammar.Delimited)
    (forward : skip.Forward) (c : Cursor) :
    Ensures (embedded? md skip c) (Construct.AllFramed · c.rest) := by
  rw [embedded?]
  split
  · exact .pure (Construct.allFramed_none _)
  · split
    · exact .pure (Construct.allFramed_none _)
    · refine .pure fun construct found _ _ _ isForm => ?_
      obtain ⟨code, -, rfl⟩ := Option.map_eq_some_iff.mp found
      cases isForm
    · next tag _ _ =>
      dsimp only
      rw [closeAhead_eq, bind_assoc]
      refine (ensures_go (Search.quiet_closeTag delimited _) forward _ _ _).bind
        fun found halts => ?_
      rw [pure_bind]
      split
      · exact .pure (Construct.allFramed_none _)
      · next bodyEnd stop isClose =>
        obtain ⟨place, isPlace, isTag⟩ := Option.bind_eq_some_iff.mp isClose
        obtain ⟨closing, closes, same⟩ := Option.map_eq_some_iff.mp isTag
        cases same
        refine .pure fun construct made enclosure skip length isForm => ?_
        obtain ⟨code, -, rfl⟩ := Option.map_eq_some_iff.mp made
        have framed := (halts place isPlace).framed
        have inWindow := (List.getElem?_eq_some_iff.mp framed.choose_spec.1).1
        dsimp only at isForm
        split at isForm
        · cases isForm
        · cases isForm
          rwa [List.length_take_of_le]
          simp only [Cursor.advance, List.length_drop] at inWindow ⊢
          omega

/-- The body of whatever a rule finds ends in front of a special character. -/
theorem ensures_framed {md : Markdown} (delimited : md.grammar.Delimited) (forward : skip.Forward)
    (rule : InlineRule) (c : Cursor) :
    Ensures (scan md skip rule c) (Construct.AllFramed · c.rest) := by
  cases rule with
  | text => exact .pure (allLeaves_plainRun c.rest).allFramed
  | newline => exact .pure (allLeaves_newline c.rest).allFramed
  | escape => exact .pure (allLeaves_escape c.rest).allFramed
  | backticks => exact .pure (allLeaves_codeSpan c.rest).allFramed
  | autolink => exact .pure (allLeaves_autolink c.rest).allFramed
  | entity => exact .pure (allLeaves_entity c.rest).allFramed
  | link =>
    rw [scan, link?]
    split
    · exact ensures_framed_labelled forward c _ _
    · exact .pure (Construct.allFramed_none _)
  | image =>
    rw [scan, image?]
    split
    · exact ensures_framed_labelled forward c _ _
    · exact .pure (Construct.allFramed_none _)
  | emphasis => exact ensures_framed_emphasis forward c
  | embedded => exact ensures_framed_embedded delimited forward c

end ComponentMarkdown
