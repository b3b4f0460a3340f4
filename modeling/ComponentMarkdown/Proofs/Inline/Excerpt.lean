import ComponentMarkdown.Proofs.Inline.Locality
import ComponentMarkdown.Proofs.Inline.Lockstep

/-!
# A part of a text and the same characters as a text of their own

Skipping finds the same at a place of a part of a text, in a window that ends inside that part, as
at the same place of a text that has those characters only. If skipping is local in the part, both
are also parsed alike, whatever is remembered from searches in wider windows. The file has:

* `Excerpt`, a part of a text, and its windows;
* `Excerpt.foundAnew_eq`: skipping finds the same;
* `Alongside`, memos that hold what skipping finds in two such windows;
* `Excerpt.relates_parseWindow`: the windows have alike pieces.
-/

namespace ComponentMarkdown

open Memoized (Relates Agrees)
open Inline (AllAlike)

/-- The text is what stands in `source` between `first` and `last`. The character in front of it
does not keep anything from beginning there. -/
structure Excerpt (source text : Text) (first last : Nat) : Prop where
  ordered : first ≤ last
  inText : last ≤ source.length
  isText : text = (source.take last).drop first
  apart : (source.take first).getLast?.any isAlphanumeric = false

namespace Excerpt

variable {source text : Text} {first last pos stop : Nat}

theorem length_eq (excerpt : Excerpt source text first last) : text.length = last - first := by
  rw [excerpt.isText, List.length_drop, List.length_take, Nat.min_eq_left excerpt.inText]

/-- A window inside the excerpt has the same characters in either text. -/
theorem rest_eq (excerpt : Excerpt source text first last) (behind : first ≤ pos)
    (inside : stop ≤ last) : (Cursor.inside source pos stop).rest =
      (Cursor.inside text (pos - first) (stop - first)).rest := by
  simp only [Cursor.inside, excerpt.isText]
  rw [← List.drop_take, List.take_take, Nat.min_eq_left inside, List.drop_drop,
    Nat.add_sub_cancel' behind]

theorem resembles (excerpt : Excerpt source text first last) (behind : first ≤ pos)
    (ordered : pos ≤ stop) (inside : stop ≤ last) :
    Cursor.Resembles first (Cursor.inside source pos stop)
      (Cursor.inside text (pos - first) (stop - first)) := by
  refine ⟨(Nat.sub_add_cancel behind).symm, ?_, excerpt.rest_eq behind inside⟩
  obtain ⟨n, rfl⟩ := Nat.exists_eq_add_of_le behind
  have here : text.take n = (source.drop first).take n := by
    rw [excerpt.isText, Cursor.take_drop_take (Nat.le_trans ordered inside)]
  simp only [Cursor.inside, Nat.add_sub_cancel_left, here]
  rw [← Cursor.getLast?_take_add]
  cases ((source.drop first).take n).getLast? with
  | none => exact excerpt.apart
  | some mark => rfl

/-- Behind its first character the excerpt has the same characters in front of a place, too. -/
theorem shifted (excerpt : Excerpt source text first last) (behind : first < pos)
    (ordered : pos ≤ stop) (inside : stop ≤ last) :
    Cursor.Shifted first (Cursor.inside source pos stop)
      (Cursor.inside text (pos - first) (stop - first)) := by
  have start := excerpt.resembles (Nat.le_refl first)
    (Nat.le_trans (Nat.le_of_lt behind) ordered) inside
  have length : (Cursor.inside source first stop).rest.length = stop - first :=
    Cursor.length_inside (Nat.le_trans inside excerpt.inText)
  obtain ⟨mark, here⟩ :
      ∃ mark, (Cursor.inside source first stop).rest[pos - first - 1]? = some mark :=
    ⟨_, List.getElem?_eq_getElem (by omega)⟩
  have moved := start.advance (Nat.sub_pos_of_lt behind) here
  rwa [Cursor.advance_inside (by omega), Cursor.advance_inside (by omega),
    Nat.add_sub_cancel' (Nat.le_of_lt behind), Nat.sub_self, Nat.zero_add] at moved

end Excerpt

/-! ## Searches -/

variable {md : Markdown} {source text : Text} {first last stop pos budget budget' : Nat}

/-- Both memos hold what skipping finds in their window, from a place on: the window of `source`
that ends at `stop`, and that of `text`, which begins `first` characters later. -/
structure Alongside (md : Markdown) (source text : Text) (first stop pos : Nat)
    (memo other : Memo) : Prop where
  forward : memo.Forward
  settled : memo.SettledIn md source stop pos
  other : other.SettledIn md text (stop - first) (pos - first)

theorem alongside_empty : Alongside md source text first stop pos ∅ ∅ where
  forward := Memo.forward_empty
  settled _ _ _ _ found := by simp at found
  other _ _ _ _ found := by simp at found

theorem Alongside.later {memo other : Memo}
    (alongside : Alongside md source text first stop pos memo other) {next : Nat}
    (behind : pos ≤ next) : Alongside md source text first stop next memo other where
  forward := alongside.forward
  settled := alongside.settled.later behind
  other := alongside.other.later (Nat.sub_le_sub_right behind first)

/-- Skipping finds the same at each place between `pos` and `stop`. -/
def SameBetween (md : Markdown) (source text : Text) (first stop pos : Nat) : Prop :=
  ∀ place, pos < place → place < stop → foundAnew md source stop place =
    (foundAnew md text (stop - first) (place - first)).later first

namespace Excerpt

variable (excerpt : Excerpt source text first last) (lawful : md.grammar.Lawful)
include excerpt lawful

theorem relates_skip (behind : first ≤ pos) (inside : stop ≤ last)
    (same : SameBetween md source text first stop pos) (room : stop - pos ≤ budget)
    (room' : stop - pos ≤ budget') {place : Nat} (after : pos < place) (inWindow : place < stop) :
    Relates (Alongside md source text first stop pos)
      (skip md budget (Cursor.inside source place stop))
      (skip md budget' (Cursor.inside text (place - first) (stop - first)))
      fun found found' memo other => (place < found.stop ∧ found.stop ≤ stop) ∧
        found = found'.later first ∧ Alongside md source text first stop pos memo other := by
  intro memo other alongside
  have inText := Nat.le_trans inside excerpt.inText
  have inText' : stop - first ≤ text.length := by
    rw [excerpt.length_eq]
    exact Nat.sub_le_sub_right inside first
  obtain ⟨bounds, forward⟩ := forward_skip lawful budget _
    (Cursor.inside_rest_ne_nil inText inWindow) memo alongside.forward
  rw [Cursor.inside_pos, Cursor.stop_inside inText (Nat.le_of_lt inWindow)] at bounds
  have narrow : stop - place < budget := by omega
  have narrow' : stop - first - (place - first) < budget' := by omega
  obtain ⟨found, settled⟩ := gives_skip_inside lawful inText (Nat.le_of_lt after) inWindow narrow
    memo alongside.settled
  obtain ⟨found', settled'⟩ := gives_skip_inside lawful inText'
    (Nat.sub_le_sub_right (Nat.le_of_lt after) first)
    (Nat.sub_lt_sub_right (Nat.le_trans behind (Nat.le_of_lt after)) inWindow) narrow' other
    alongside.other
  refine ⟨bounds, ?_, forward, settled, settled'⟩
  rw [found, found', same place after inWindow]

/-- Searches find the same places if skipping does so. -/
theorem relates_go (behind : first ≤ pos) (inside : stop ≤ last)
    (same : SameBetween md source text first stop pos) (room : stop - pos ≤ budget)
    (room' : stop - pos ≤ budget') {State : Type} {search search' : Search State}
    (shifts : search.Shifts first search') (fuel : Nat) (state : State) {place : Nat}
    (after : pos < place) (ordered : place ≤ stop) :
    Relates (Alongside md source text first stop pos)
      (search.go (skip md budget) fuel state (Cursor.inside source place stop))
      (search'.go (skip md budget') fuel state (Cursor.inside text (place - first) (stop - first)))
      fun found found' memo other => Option.Rel (Cursor.Shifted first) found found' ∧
        Alongside md source text first stop pos memo other := by
  induction fuel generalizing state place with
  | zero => exact .pure fun _ _ alongside => ⟨.none, alongside⟩
  | succ fuel ih =>
    have shifted := excerpt.shifted (Nat.lt_of_le_of_lt behind after) ordered inside
    rw [Search.go, Search.go, ← shifted.rest, shifts.halts shifted]
    cases ended : (Cursor.inside source place stop).rest.isEmpty with
    | true => exact .pure fun _ _ alongside => ⟨.none, alongside⟩
    | false =>
      have inWindow : place < stop := by
        refine Nat.lt_of_not_le fun atEnd => ?_
        rw [Cursor.inside_rest_eq_nil atEnd] at ended
        cases ended
      cases halts : search'.halts state (Cursor.inside text (place - first) (stop - first)) with
      | true => exact .pure fun _ _ alongside => ⟨.some shifted, alongside⟩
      | false =>
        simp only [Bool.false_eq_true, if_false]
        refine (excerpt.relates_skip lawful behind inside same room room' after inWindow).bind
          fun found found' => .assume fun bounds => .assume fun isLater => ?_
        obtain ⟨forward, bounded⟩ := bounds
        subst isLater
        rw [shifts.next shifted]
        cases search'.next state (Cursor.inside text (place - first) (stop - first)) found' with
        | none => exact .pure fun _ _ alongside => ⟨.some shifted, alongside⟩
        | some state =>
          have goOn := ih state (Nat.lt_trans after forward) bounded
          have isStop : (found'.later first).stop - first = found'.stop :=
            Nat.add_sub_cancel _ _
          rw [isStop] at goOn
          dsimp only
          rw [Cursor.moveTo_inside (Nat.le_of_lt forward) bounded,
            Cursor.moveTo_inside (by omega) (by omega)]
          exact goOn

/-- Wherever skipping finds the same, searches that begin there go in step. -/
theorem steps (behind : first ≤ pos) (ordered : pos ≤ stop) (inside : stop ≤ last)
    (same : SameBetween md source text first stop pos) (room : stop - pos ≤ budget)
    (room' : stop - pos ≤ budget') :
    Steps (Alongside md source text first stop pos) first (skip md budget) (skip md budget')
      (Cursor.inside source pos stop) (Cursor.inside text (pos - first) (stop - first)) := by
  intro State search search' state n mark _ shifts positive here _
  have fits : n ≤ stop - pos := by
    have := (List.getElem?_eq_some_iff.mp here).1
    rw [Cursor.length_inside (Nat.le_trans inside excerpt.inText)] at this
    omega
  have sameRest : ((Cursor.inside source pos stop).advance n).rest =
      ((Cursor.inside text (pos - first) (stop - first)).advance n).rest :=
    congrArg (List.drop n) (excerpt.rest_eq behind inside)
  rw [Search.find, Search.find, ← sameRest, Cursor.advance_inside (by omega),
    Cursor.advance_inside (by omega), ← Nat.sub_add_comm behind]
  exact excerpt.relates_go lawful behind inside same room room' shifts _ state (by omega) (by omega)

theorem agrees_scan (delimited : md.grammar.Delimited) (behind : first ≤ pos)
    (ordered : pos ≤ stop) (inside : stop ≤ last)
    (same : SameBetween md source text first stop pos) (room : stop - pos ≤ budget)
    (room' : stop - pos ≤ budget') (rule : InlineRule) :
    Agrees (Alongside md source text first stop pos)
      (scan md (skip md budget) rule (Cursor.inside source pos stop))
      (scan md (skip md budget') rule (Cursor.inside text (pos - first) (stop - first))) :=
  relates_scan lawful delimited
    (excerpt.steps lawful behind ordered inside same room room')
    (excerpt.resembles behind ordered inside) rule

/-- Skipping finds the same at a place of the excerpt, in a window that ends inside it. -/
theorem foundAnew_eq (delimited : md.grammar.Delimited) (behind : first ≤ pos)
    (inWindow : pos < stop) (inside : stop ≤ last) :
    foundAnew md source stop pos =
      (foundAnew md text (stop - first) (pos - first)).later first := by
  obtain ⟨width, isWidth⟩ : ∃ width, stop - pos = width := ⟨_, rfl⟩
  induction width using Nat.strongRecOn generalizing pos with
  | ind width ih =>
    have same : SameBetween md source text first stop pos := fun place after inWindow =>
      ih (stop - place) (by omega) (Nat.le_of_lt (Nat.lt_of_le_of_lt behind after)) inWindow rfl
    have length := excerpt.length_eq
    have inText := excerpt.inText
    have skipped : Relates (Alongside md source text first stop pos)
        (skipByRules md (skip md source.length) (Cursor.inside source pos stop))
        (skipByRules md (skip md text.length) (Cursor.inside text (pos - first) (stop - first)))
        fun found found' _ _ => found = found'.later first := by
      refine (relates_firstLength (excerpt.agrees_scan lawful delimited behind
        (Nat.le_of_lt inWindow) inside same (by omega) (by omega)) _).bind fun length => ?_
      have later (n : Nat) : pos + n = pos - first + n + first := by omega
      cases length with
      | none => exact .pure fun _ _ _ => congrArg (Skipped.mk · false) (later 1)
      | some length => exact .pure fun _ _ _ => congrArg (Skipped.mk · true) (later length)
    rw [foundAnew_eq_skipByRules lawful (by omega), foundAnew_eq_skipByRules lawful (by omega)]
    exact skipped ∅ ∅ alongside_empty

/-- Skipping is local in the excerpt if it is so in the text around it. -/
theorem localAt (delimited : md.grammar.Delimited) (behind : first ≤ pos) (inWindow : pos < stop)
    (inside : stop ≤ last) (isLocal : LocalAt md source pos stop) :
    LocalAt md text (pos - first) (stop - first) := by
  intro wider inText narrower bounded
  rw [excerpt.length_eq] at inText
  have ordered := excerpt.ordered
  have around : wider + first ≤ last := by omega
  have found := excerpt.foundAnew_eq lawful delimited behind (by omega) around
  rw [Nat.add_sub_cancel] at found
  have same := isLocal (wider + first) (Nat.le_trans around excerpt.inText) (by omega) (by
    rw [found, Skipped.later]
    dsimp only
    omega)
  rw [found, excerpt.foundAnew_eq lawful delimited behind inWindow inside] at same
  exact Skipped.later_injective first same

end Excerpt

/-! ## Bodies -/

section

variable {memo other : Memo} {start bodyEnd next : Nat}

/-- What searches in a window have left is right in a body inside it if skipping is local there. -/
theorem Excerpt.alongside_body (excerpt : Excerpt source text first last)
    (lawful : md.grammar.Lawful) (delimited : md.grammar.Delimited) (behind : first ≤ pos)
    (inside : stop ≤ last) (after : pos ≤ start) (narrower : bodyEnd ≤ stop)
    (isLocal : ∀ pos, first ≤ pos → pos < bodyEnd → LocalAt md source pos bodyEnd)
    (alongside : Alongside md source text first stop pos memo other) :
    Alongside md source text first bodyEnd start memo other where
  forward := alongside.forward
  settled := alongside.settled.narrow (Nat.le_trans inside excerpt.inText) after narrower
    fun place from_start => isLocal place (by omega)
  other := by
    refine alongside.other.narrow ?_ (by omega) (by omega) fun place _ inWindow => ?_
    · rw [excerpt.length_eq]
      omega
    · have here := isLocal (place + first) (by omega) (by omega)
      have moved := excerpt.localAt lawful delimited (by omega) (by omega) (by omega) here
      rwa [Nat.add_sub_cancel] at moved

/-- What is written in front of a place leaves the memos right from there on. -/
theorem Alongside.written (alongside : Alongside md source text first stop pos memo other)
    (behind : pos ≤ next) {α : Type} {x y : Memoized α} (forward : ((x.run memo).2).Forward)
    (writes : Memoized.WritesBefore next x) (writes' : Memoized.WritesBefore (next - first) y) :
    Alongside md source text first stop next (x.run memo).2 (y.run other).2 where
  forward := forward
  settled := alongside.settled.written behind writes
  other := alongside.other.written (Nat.sub_le_sub_right behind first) writes'

end

/-- Windows inside the excerpt have alike pieces if skipping is local at the ends of the windows in
which it is parsed, on whatever level of nesting that is. -/
theorem Excerpt.relates_parseWindow (excerpt : Excerpt source text first last)
    (lawful : md.grammar.Lawful) (delimited : md.grammar.Delimited)
    (isLocal : ∀ stop, WindowEnd md source first last stop →
      ∀ pos, first ≤ pos → pos < stop → LocalAt md source pos stop)
    {parseLabel parseLabel' : Text → List Inline}
    (labels : ∀ label : Text, label.length < text.length →
      AllAlike (parseLabel label) (parseLabel' label))
    (behind : first ≤ pos) (ordered : pos ≤ stop) (isEnd : WindowEnd md source first last stop)
    (inside : stop ≤ last) (room : stop - first < budget) (room' : stop - first < budget') :
    Relates (Alongside md source text first stop pos)
      (parseWindow md parseLabel budget (Cursor.inside source pos stop))
      (parseWindow md parseLabel' budget' (Cursor.inside text (pos - first) (stop - first)))
      fun pieces others memo other => AllAlike pieces others ∧
        Alongside md source text first stop stop memo other := by
  induction budget generalizing budget' pos stop with
  | zero => exact absurd room (Nat.not_lt_zero _)
  | succ budget ih =>
    obtain ⟨budget', rfl⟩ := Nat.exists_eq_succ_of_ne_zero (Nat.ne_zero_of_lt room')
    have width := excerpt.length_eq
    have inText := excerpt.inText
    refine @relates_parseWindow_succ source text stop first md
      (Alongside md source text first stop) (WindowEnd md source first last) _ _ _ _
      (Nat.le_trans inside inText)
      (fun pos behind _ => excerpt.rest_eq behind inside) (fun behind kept => kept.later behind)
      (fun place rule behind inWindow => ?scans) (fun label shorter => labels label (by omega))
      (fun {place start bodyEnd next} behind after ordered inWindow isEnd between => ?bodies) pos
      behind ordered
    case scans =>
      have same : SameBetween md source text first stop place := fun place after inWindow =>
        excerpt.foundAnew_eq lawful delimited (by omega) inWindow inside
      have scanned := relates_scan_framed lawful delimited
        (excerpt.steps lawful behind (Nat.le_of_lt inWindow) inside same (by omega)
          (show stop - place ≤ budget' + 1 by omega))
        (excerpt.resembles behind (Nat.le_of_lt inWindow) inside) (forward_skip lawful (budget + 1))
        (fun _ _ kept => kept.forward) rule
      intro memo other alongside
      obtain ⟨fits, framed, kept⟩ := scanned memo other alongside
      have isAnew := scan_inside_eq lawful (Nat.le_trans inside inText)
        (show stop - place ≤ budget + 1 by omega) rule alongside.settled
      refine ⟨fits, fun construct found => ⟨framed construct found, fun bodyEnd ends => ?_⟩, kept⟩
      rw [isAnew] at found
      exact isEnd.body behind inWindow (by rw [found]; exact ends)
    case bodies =>
      intro memo other alongside
      have inner := excerpt.alongside_body lawful delimited behind inside after
        (Nat.le_of_lt inWindow) (isLocal bodyEnd isEnd) alongside
      have body := ih (Nat.le_trans behind after) ordered isEnd (by omega) (by omega)
        (show bodyEnd - first < budget' by omega)
      obtain ⟨alike, kept⟩ := body memo other inner
      refine ⟨alike, alongside.written (by omega) kept.forward ?_ ?_⟩
      · exact writesBefore_parseWindow md parseLabel budget fun _ => by
          rwa [Cursor.stop_inside (by omega) ordered]
      · exact writesBefore_parseWindow md parseLabel' budget' fun _ => by
          rw [Cursor.stop_inside (by omega) (by omega)]
          omega

end ComponentMarkdown
