import ComponentMarkdown.Proofs.Inline.InPlace
import ComponentMarkdown.Proofs.Inline.Search

/-!
# Two parses in step

The same characters may be parsed at another place of another text, with another memo and with
another way of skipping. If the searches find the same places then, the rules match the same
constructs, and the pieces give the same tokens. The file has:

* `Memoized.Relates`, a relation between two computations and their memos;
* `Cursor.Shifted`, and the searches of two parses in step (`Steps`);
* `relates_scan` and `relates_firstLength` for the rules;
* `Inline.AllAlike` and `relates_firstPieces` for the pieces.
-/

namespace ComponentMarkdown

/-! ## Two computations -/

namespace Memoized

variable {α β γ δ : Type} {before : Memo → Memo → Prop}

/-- On memos that are related by `before`, the results and the memos behind `x` and `y` are related
by `after`. -/
def Relates (before : Memo → Memo → Prop) (x : Memoized α) (y : Memoized β)
    (after : α → β → Memo → Memo → Prop) : Prop :=
  ∀ memo other, before memo other →
    after (x.run memo).1 (y.run other).1 (x.run memo).2 (y.run other).2

/-- Both computations give the same, and keep the relation between the memos. -/
abbrev Agrees (keeps : Memo → Memo → Prop) (x y : Memoized α) : Prop :=
  Relates keeps x y fun a b memo other => a = b ∧ keeps memo other

theorem Relates.pure {a : α} {b : β} {after : α → β → Memo → Memo → Prop}
    (holds : ∀ memo other, before memo other → after a b memo other) :
    Relates before (Pure.pure a) (Pure.pure b) after :=
  holds

theorem Relates.bind {x : Memoized α} {y : Memoized β} {f : α → Memoized γ} {g : β → Memoized δ}
    {mid : α → β → Memo → Memo → Prop} {after : γ → δ → Memo → Memo → Prop}
    (first : Relates before x y mid) (next : ∀ a b, Relates (mid a b) (f a) (g b) after) :
    Relates before (x >>= f) (y >>= g) after := by
  intro memo other related
  rw [run_bind, run_bind]
  exact next _ _ _ _ (first memo other related)

theorem Relates.mono {x : Memoized α} {y : Memoized β} {after weaker : α → β → Memo → Memo → Prop}
    (related : Relates before x y after)
    (weaken : ∀ a b memo other, after a b memo other → weaker a b memo other) :
    Relates before x y weaker :=
  fun memo other holds => weaken _ _ _ _ (related memo other holds)

theorem Relates.strengthen {stronger : Memo → Memo → Prop} {x : Memoized α} {y : Memoized β}
    {after : α → β → Memo → Memo → Prop} (related : Relates before x y after)
    (implies : ∀ memo other, stronger memo other → before memo other) :
    Relates stronger x y after :=
  fun memo other holds => related memo other (implies memo other holds)

/-- What the first result satisfies holds on either side of the relation. -/
theorem Relates.ensuring {x : Memoized α} {y : Memoized β}
    {after : α → β → Memo → Memo → Prop} {post : α → Prop} (related : Relates before x y after)
    (ensured : Ensures x post) (forward : ∀ memo other, before memo other → memo.Forward) :
    Relates before x y fun a b memo other => post a ∧ after a b memo other :=
  fun memo other holds =>
    ⟨(ensured memo (forward memo other holds)).1, related memo other holds⟩

/-- What the relation between the memos says of other things may be assumed. -/
theorem Relates.assume {x : Memoized α} {y : Memoized β} {after : α → β → Memo → Memo → Prop}
    {fact : Prop} (related : fact → Relates before x y after) :
    Relates (fun memo other => fact ∧ before memo other) x y after :=
  fun memo other holds => related holds.1 memo other holds.2

theorem Agrees.pure {keeps : Memo → Memo → Prop} (value : α) :
    Agrees keeps (Pure.pure value) (Pure.pure value) :=
  fun _ _ kept => ⟨rfl, kept⟩

/-- Behind two computations that agree one goes on with their common result. -/
theorem Agrees.bind {keeps : Memo → Memo → Prop} {x y : Memoized α} {f : α → Memoized γ}
    {g : α → Memoized δ} {after : γ → δ → Memo → Memo → Prop} (first : Agrees keeps x y)
    (next : ∀ value, Relates keeps (f value) (g value) after) :
    Relates keeps (x >>= f) (y >>= g) after := by
  refine Relates.bind first fun a b => .assume fun same => ?_
  subst same
  exact next a

end Memoized

open Memoized (Relates Agrees)

/-! ## Two places -/

/-- The same outcome `shift` characters later. -/
def Skipped.later (shift : Nat) (skipped : Skipped) : Skipped :=
  ⟨skipped.stop + shift, skipped.consumed⟩

theorem Skipped.later_injective (shift : Nat) : Function.Injective (later shift) := by
  rintro ⟨stop, consumed⟩ ⟨stop', consumed'⟩ same
  obtain ⟨sameStop, sameAnswer⟩ := Skipped.mk.inj same
  rw [Skipped.mk.injEq]
  exact ⟨Nat.add_right_cancel sameStop, sameAnswer⟩

namespace Cursor

/-- The first cursor has the same characters before and behind it as the second one, `shift`
characters later. -/
structure Shifted (shift : Nat) (c other : Cursor) : Prop where
  pos : c.pos = other.pos + shift
  before : c.before = other.before
  rest : c.rest = other.rest

/-- The characters behind the cursors are the same, and the ones before them make no difference to
what can begin there. -/
structure Resembles (shift : Nat) (c other : Cursor) : Prop where
  pos : c.pos = other.pos + shift
  before : c.before.any isAlphanumeric = other.before.any isAlphanumeric
  rest : c.rest = other.rest

variable {shift : Nat} {c other : Cursor}

theorem Shifted.resembles (shifted : Shifted shift c other) : Resembles shift c other :=
  ⟨shifted.pos, congrArg _ shifted.before, shifted.rest⟩

/-- Behind a common character the cursors are the same but for the shift. -/
theorem Resembles.advance (resembles : Resembles shift c other) {n : Nat} {mark : Char}
    (positive : 0 < n) (here : c.rest[n - 1]? = some mark) :
    Shifted shift (c.advance n) (other.advance n) := by
  obtain ⟨pos, before, rest⟩ := resembles
  have last : (c.rest.take n).getLast? = some mark := by
    obtain ⟨n, rfl⟩ := Nat.exists_eq_succ_of_ne_zero (Nat.ne_of_gt positive)
    rw [Nat.succ_sub_one] at here
    rw [List.take_add_one, here, Option.toList_some, List.getLast?_concat]
  refine ⟨?_, ?_, by simp only [Cursor.advance, rest]⟩
  · simp only [Cursor.advance]
    omega
  · rw [Cursor.advance, Cursor.advance, ← rest, last]
    rfl

theorem Shifted.refl (c : Cursor) : Shifted 0 c c :=
  ⟨rfl, rfl, rfl⟩

end Cursor

namespace Search

variable {State : Type}

/-- The two searches treat places alike that are `shift` characters apart. -/
structure Shifts (shift : Nat) (search other : Search State) : Prop where
  halts {state : State} {c c' : Cursor} :
    c.Shifted shift c' → search.halts state c = other.halts state c'
  next {state : State} {c c' : Cursor} {skipped : Skipped} : c.Shifted shift c' →
    search.next state c (skipped.later shift) = other.next state c' skipped

/-- Searches that treat the same places alike are the same. -/
theorem Shifts.eq {search other : Search State} (shifts : Shifts 0 search other) :
    search = other := by
  obtain ⟨halts, next⟩ := search
  obtain ⟨halts', next'⟩ := other
  have sameHalts : halts = halts' := by
    funext state c
    exact shifts.halts (.refl c)
  have sameNext : next = next' := by
    funext state c skipped
    exact shifts.next (.refl c)
  rw [sameHalts, sameNext]

theorem shifts_closer (shift : Nat) (marker : Char) (count : Nat) {start start' : Nat}
    (same : start = start' + shift) :
    Shifts shift (closer marker count start) (closer marker count start') where
  halts := by
    intro state c c' shifted
    have behind : decide (c.pos > start) = decide (c'.pos > start') := by
      rw [shifted.pos, same]
      exact decide_eq_decide.mpr Nat.add_lt_add_iff_right
    simp only [closer, closesEmphasis, shifted.rest, shifted.before, behind]
  next _ := rfl

theorem shifts_labelEnd (shift : Nat) : Shifts shift labelEnd labelEnd where
  halts shifted := by simp only [labelEnd, shifted.rest]
  next := by
    intro state c c' skipped shifted
    have single : (skipped.stop + shift == c'.pos + shift + 1) = (skipped.stop == c'.pos + 1) := by
      rw [Nat.add_right_comm, Bool.eq_iff_iff, beq_iff_eq, beq_iff_eq]
      exact Nat.add_left_inj
    simp only [labelEnd, shifted.rest, shifted.pos, Skipped.later, single]

theorem shifts_closeTag (shift : Nat) (grammar : TagGrammar) (name : Text) :
    Shifts shift (closeTag grammar name) (closeTag grammar name) where
  halts _ := rfl
  next shifted := by simp only [closeTag, shifted.rest, Skipped.later]

end Search

/-! ## Rules -/

/-- Searches that begin behind a special character find the same places with either way of skipping,
and keep the relation between the memos. -/
def Steps (keeps : Memo → Memo → Prop) (shift : Nat) (skip skip' : Skip) (c c' : Cursor) : Prop :=
  ∀ {State : Type} {search search' : Search State} (state : State) {n : Nat} {mark : Char},
    search.Quiet → search.Shifts shift search' → 0 < n → c.rest[n - 1]? = some mark →
      isSpecial mark = true →
        Relates keeps (search.find skip state (c.advance n))
          (search'.find skip' state (c'.advance n))
          fun found found' memo other =>
            Option.Rel (Cursor.Shifted shift) found found' ∧ keeps memo other

section

variable {keeps : Memo → Memo → Prop} {shift : Nat} {skip skip' : Skip} {c c' : Cursor}

theorem relates_emphasis (steps : Steps keeps shift skip skip' c c')
    (resembles : c.Resembles shift c') :
    Agrees keeps (emphasis? skip c) (emphasis? skip' c') := by
  have opens (length : Nat) (marker : Char) :
      canOpen c length marker = canOpen c' length marker := by
    rw [canOpen, canOpen, resembles.rest, resembles.before]
  rw [emphasis?, emphasis?, ← resembles.rest]
  cases begins : c.rest with
  | nil => exact .pure none
  | cons marker rest =>
    dsimp only
    rw [← begins, opens]
    have length_pos : 0 < Text.runLength marker c.rest := begins ▸ Text.runLength_pos marker rest
    have markers := @Text.getElem?_of_lt_runLength marker c.rest
    generalize Text.runLength marker c.rest = length at *
    split
    · exact .pure none
    · next isMarker =>
      have special : isSpecial marker = true := by
        simp only [Bool.or_eq_true, Bool.not_eq_true', not_or, Bool.not_eq_false,
          beq_iff_eq] at isMarker
        rcases isMarker.1 with rfl | rfl <;> rfl
      have last : c.rest[min length 2 - 1]? = some marker := markers (by omega)
      have places := resembles.advance (by omega) last
      rw [findCloser_eq, findCloser_eq, bind_assoc, bind_assoc]
      refine (steps () (Search.quiet_closer special _ _)
        (Search.shifts_closer shift marker _ places.pos) (by omega) last special).bind
        fun found found' => .assume fun related => ?_
      cases related with
      | none => exact Agrees.pure none
      | @some place place' shifted =>
        have inner : place.pos - (c.advance (min length 2)).pos =
            place'.pos - (c'.advance (min length 2)).pos := by
          rw [shifted.pos, places.pos, Nat.add_sub_add_right]
        have whole : place.pos + min length 2 - c.pos = place'.pos + min length 2 - c'.pos := by
          rw [shifted.pos, resembles.pos, Nat.add_right_comm, Nat.add_sub_add_right]
        simp only [Option.map_some, pure_bind, inner, whole]
        exact Agrees.pure _

theorem relates_labelled (steps : Steps keeps shift skip skip' c c')
    (resembles : c.Resembles shift c') {opening : Nat} (positive : 0 < opening)
    (opens : c.rest[opening - 1]? = some '[') (enclosure : Target → Enclosure) :
    Agrees keeps (labelled? skip c opening enclosure) (labelled? skip' c' opening enclosure) := by
  have places := resembles.advance positive opens
  rw [labelled?, labelled?]
  dsimp only
  rw [findLabelEnd_eq, findLabelEnd_eq, bind_assoc, bind_assoc]
  refine (steps 0 Search.quiet_labelEnd (Search.shifts_labelEnd shift) positive opens rfl).bind
    fun found found' => .assume fun related => ?_
  cases related with
  | none => exact Agrees.pure none
  | @some place place' shifted =>
    have inner : place.pos - (c.advance opening).pos = place'.pos - (c'.advance opening).pos := by
      rw [shifted.pos, places.pos, Nat.add_sub_add_right]
    simp only [Option.map_some, pure_bind, inner, places.rest, resembles.rest]
    cases Target.read? ((c'.advance opening).rest.drop
      (place'.pos - (c'.advance opening).pos + 1)) with
    | none => exact Agrees.pure none
    | some read => exact Agrees.pure _

theorem relates_embedded {md : Markdown} (delimited : md.grammar.Delimited)
    (steps : Steps keeps shift skip skip' c c') (resembles : c.Resembles shift c')
    (lawful : md.grammar.Lawful) :
    Agrees keeps (embedded? md skip c) (embedded? md skip' c') := by
  rw [embedded?, embedded?, ← resembles.rest]
  split
  · exact .pure none
  · cases opens : md.grammar.openTag .inline c.rest with
    | none => exact .pure none
    | some tag =>
      cases closes : md.grammar.selfClosing .inline c.rest with
      | some length => exact .pure _
      | none =>
        obtain ⟨mark, last, special⟩ := delimited.openTag opens closes
        have positive := (lawful.openTag opens).1
        have places := resembles.advance positive last
        dsimp only
        rw [closeAhead_eq, closeAhead_eq, bind_assoc, bind_assoc]
        refine (steps () (Search.quiet_closeTag delimited _)
          (Search.shifts_closeTag shift _ _) positive last special).bind fun found found' =>
            .assume fun related => ?_
        cases related with
        | none => exact Agrees.pure none
        | @some place place' shifted =>
          simp only [Option.bind_some, pure_bind, closeTagAt, shifted.rest]
          cases md.grammar.closeTag .inline place'.rest with
          | none => exact Agrees.pure none
          | some closing =>
            have inner : place.pos - (c.advance tag.length).pos =
                place'.pos - (c'.advance tag.length).pos := by
              rw [shifted.pos, places.pos, Nat.add_sub_add_right]
            have whole : place.pos + closing.length - c.pos =
                place'.pos + closing.length - c'.pos := by
              rw [shifted.pos, resembles.pos, Nat.add_right_comm, Nat.add_sub_add_right]
            simp only [Option.map_some, inner, whole, places.rest]
            exact Agrees.pure _

/-- Where the searches go in step, a rule matches the same on either side. -/
theorem relates_scan {md : Markdown} (lawful : md.grammar.Lawful)
    (delimited : md.grammar.Delimited) (steps : Steps keeps shift skip skip' c c')
    (resembles : c.Resembles shift c') (rule : InlineRule) :
    Agrees keeps (scan md skip rule c) (scan md skip' rule c') := by
  cases rule with
  | emphasis => exact relates_emphasis steps resembles
  | embedded => exact relates_embedded delimited steps resembles lawful
  | link =>
    rw [scan, scan, link?, link?, ← resembles.rest]
    split
    · next begins => exact relates_labelled steps resembles Nat.one_pos (by simp [begins]) _
    · exact .pure none
  | image =>
    rw [scan, scan, image?, image?, ← resembles.rest]
    split
    · next begins => exact relates_labelled steps resembles Nat.two_pos (by simp [begins]) _
    · exact .pure none
  | _ =>
    rw [scan, scan, resembles.rest]
    exact .pure _

end

/-- What a rule matches on both sides fits, and its body ends in front of a special character. -/
theorem relates_scan_framed {md : Markdown} (lawful : md.grammar.Lawful)
    (delimited : md.grammar.Delimited) {keeps : Memo → Memo → Prop} {shift : Nat}
    {skip skip' : Skip} {c c' : Cursor} (steps : Steps keeps shift skip skip' c c')
    (resembles : c.Resembles shift c') (forward : skip.Forward)
    (kept : ∀ memo other, keeps memo other → memo.Forward) (rule : InlineRule) :
    Relates keeps (scan md skip rule c) (scan md skip' rule c') fun found found' memo other =>
      Construct.AllFit found c.rest ∧ Construct.AllFramed found c.rest ∧ found = found' ∧
        keeps memo other :=
  ((relates_scan lawful delimited steps resembles rule).ensuring
    (ensures_framed delimited forward rule c) kept).ensuring (ensures_scan lawful forward rule c)
      kept

theorem relates_firstLength {keeps : Memo → Memo → Prop} {c c' : Cursor}
    {scanRule scanRule' : InlineRule → Cursor → Memoized (Option Construct)}
    (scans : ∀ rule, Agrees keeps (scanRule rule c) (scanRule' rule c'))
    (rules : List InlineRule) :
    Agrees keeps (firstLength scanRule c rules) (firstLength scanRule' c' rules) := by
  induction rules with
  | nil => exact .pure none
  | cons rule rules ih =>
    rw [firstLength, firstLength]
    refine (scans rule).bind fun found => ?_
    cases found with
    | none => exact ih
    | some construct =>
      dsimp only
      split
      · exact Agrees.pure _
      · exact ih

/-! ## Pieces -/

/-- The pieces add the same tokens, wherever they stand. -/
def Inline.AllAlike (pieces others : List Inline) : Prop :=
  ∀ (level : Nat) (pending : Text),
    InlineRun.emitPieces level pending pieces = InlineRun.emitPieces level pending others

namespace Inline

theorem AllAlike.refl (pieces : List Inline) : AllAlike pieces pieces :=
  fun _ _ => rfl

theorem AllAlike.append {pieces others more more' : List Inline} (first : AllAlike pieces others)
    (second : AllAlike more more') : AllAlike (pieces ++ more) (others ++ more') := by
  intro level pending
  simp only [InlineRun.emitPieces_append, first level, second level]

theorem AllAlike.emitAll {pieces others : List Inline} (alike : AllAlike pieces others)
    (level : Nat) (pending : Text) :
    Inline.emitAll level pending pieces = Inline.emitAll level pending others := by
  rw [InlineRun.emitAll_eq, InlineRun.emitAll_eq, alike level pending]

end Inline

open Inline (AllAlike)

section

variable {keeps : Memo → Memo → Prop} {c c' : Cursor} {parseLabel parseLabel' : Text → List Inline}
  {parseBody parseBody' : Cursor → Memoized (List Inline)}

/-- A construct makes alike pieces if its body does. -/
theorem relates_resolve {done : Memo → Memo → Prop} {construct : Construct}
    (same : ∀ skip length, (c.window skip length).rest = (c'.window skip length).rest)
    (settles : ∀ memo other, keeps memo other → done memo other)
    (labels : ∀ enclosure skip length, construct.form = .enclosing enclosure skip length →
      AllAlike (parseLabel (c.window skip length).rest) (parseLabel' (c.window skip length).rest))
    (bodies : ∀ enclosure skip length, construct.form = .enclosing enclosure skip length →
      (∀ target, enclosure ≠ .image target) →
      Relates keeps (parseBody (c.window skip length)) (parseBody' (c'.window skip length))
        fun pieces others memo other => AllAlike pieces others ∧ done memo other) :
    Relates keeps (resolve parseLabel parseBody c construct)
      (resolve parseLabel' parseBody' c' construct)
      fun piece piece' memo other => AllAlike [piece] [piece'] ∧ done memo other := by
  obtain ⟨length, form⟩ := construct
  rw [resolve, resolve]
  cases form with
  | leaf piece => exact .pure fun _ _ kept => ⟨.refl _, settles _ _ kept⟩
  | enclosing enclosure skip length =>
    have body := bodies enclosure skip length rfl
    have label := labels enclosure skip length rfl
    cases enclosure with
    | image target =>
      refine .pure fun _ _ kept => ⟨fun level pending => ?_, settles _ _ kept⟩
      rw [← same]
      simp only [InlineRun.emitPieces, Inline.emit, label.emitAll]
    | _ =>
      refine (body fun _ isImage => by cases isImage).bind fun pieces others =>
        .pure fun _ _ related => ⟨fun level pending => ?_, related.2⟩
      simp only [InlineRun.emitPieces, Inline.emit, related.1.emitAll]

/-- Where the rules match the same and their constructs make alike pieces, so do the rules. Behind a
construct the memos are related by `done`, which depends on its length. -/
theorem relates_firstPieces {admits : Construct → Prop}
    {scanRule scanRule' : InlineRule → Cursor → Memoized (Option Construct)}
    {resolve resolve' : Cursor → Construct → Memoized Inline} {done : Nat → Memo → Memo → Prop}
    (settles : ∀ memo other, keeps memo other → done 0 memo other)
    (scans : ∀ rule, Relates keeps (scanRule rule c) (scanRule' rule c')
      fun found found' memo other => Construct.AllFit found c.rest ∧
        (∀ construct, found = some construct → admits construct) ∧ found = found' ∧
          keeps memo other)
    (resolves : ∀ construct : Construct, construct.Fits c.rest → admits construct →
      Relates keeps (resolve c construct) (resolve' c' construct)
        fun piece piece' memo other => AllAlike [piece] [piece'] ∧ done construct.length memo other)
    (rules : List InlineRule) :
    Relates keeps (firstPieces scanRule resolve c rules) (firstPieces scanRule' resolve' c' rules)
      fun made made' memo other => made.2 ≤ c.rest.length ∧ AllAlike made.1 made'.1 ∧
        made.2 = made'.2 ∧ done made.2 memo other := by
  induction rules with
  | nil => exact .pure fun _ _ kept => ⟨Nat.zero_le _, .refl _, rfl, settles _ _ kept⟩
  | cons rule rules ih =>
    rw [firstPieces, firstPieces]
    refine (scans rule).bind fun found found' => .assume fun allFit => .assume fun allAdmitted =>
      .assume fun same => ?_
    subst same
    cases found with
    | none => exact ih
    | some construct =>
      have fits := allFit construct rfl
      refine (resolves construct fits (allAdmitted construct rfl)).bind fun piece piece' =>
        .assume fun alike => ?_
      dsimp only
      rw [if_pos fits.positive, if_pos fits.positive]
      exact .pure fun _ _ done => ⟨fits.bounded, alike, rfl, done⟩

end

section

variable {next next' : Cursor → Memoized (List Inline × Nat)} {source text : Text}
  {stop shift : Nat}

theorem parsePieces_ended {c : Cursor} (ended : c.rest = []) (fuel : Nat) :
    parsePieces next fuel c = pure [] := by
  cases fuel with
  | zero => rfl
  | succ fuel => rw [parsePieces, ended]

/-- Windows with the same characters have alike pieces, if the rules make alike pieces at each place
of them. The relation between the memos depends on the place. -/
theorem relates_pieces {keeps : Nat → Memo → Memo → Prop} (inText : stop ≤ source.length)
    (same : ∀ pos, shift ≤ pos → pos ≤ stop → (Cursor.inside source pos stop).rest =
      (Cursor.inside text (pos - shift) (stop - shift)).rest)
    (later : ∀ pos memo other, keeps pos memo other → keeps (pos + 1) memo other)
    (nexts : ∀ pos, shift ≤ pos → pos < stop →
      Relates (keeps pos) (next (Cursor.inside source pos stop))
        (next' (Cursor.inside text (pos - shift) (stop - shift))) fun made made' memo other =>
          pos + made.2 ≤ stop ∧ AllAlike made.1 made'.1 ∧ made.2 = made'.2 ∧
            keeps (pos + made.2) memo other)
    (fuel : Nat) {pos : Nat} (from_shift : shift ≤ pos) (ordered : pos ≤ stop)
    (enough : stop - pos ≤ fuel) :
    Relates (keeps pos) (parsePieces next fuel (Cursor.inside source pos stop))
      (parsePieces next' fuel (Cursor.inside text (pos - shift) (stop - shift)))
      fun pieces others memo other => AllAlike pieces others ∧ keeps stop memo other := by
  induction fuel generalizing pos with
  | zero =>
    obtain rfl : pos = stop := by omega
    exact .pure fun _ _ kept => ⟨.refl _, kept⟩
  | succ fuel ih =>
    rcases Nat.eq_or_lt_of_le ordered with atEnd | inWindow
    · subst atEnd
      have ended : (Cursor.inside source pos pos).rest = [] :=
        Cursor.inside_rest_eq_nil (Nat.le_refl pos)
      rw [parsePieces_ended ended, parsePieces_ended (same pos from_shift ordered ▸ ended)]
      exact .pure fun _ _ kept => ⟨.refl _, kept⟩
    · obtain ⟨mark, rest, begins⟩ :=
        List.exists_cons_of_ne_nil (Cursor.inside_rest_ne_nil inText inWindow)
      have moved {n : Nat} (fits : pos + n ≤ stop) :
          (Cursor.inside source pos stop).advance n = Cursor.inside source (pos + n) stop ∧
          (Cursor.inside text (pos - shift) (stop - shift)).advance n =
            Cursor.inside text (pos + n - shift) (stop - shift) := by
        rw [Nat.sub_add_comm from_shift]
        exact ⟨Cursor.advance_inside fits, Cursor.advance_inside (by omega)⟩
      rw [parsePieces, parsePieces, begins, ← same pos from_shift ordered, begins]
      dsimp only
      refine (nexts pos from_shift inWindow).bind fun made made' => .assume fun bounded =>
        .assume fun alike => .assume fun sameLength => ?_
      rw [← sameLength]
      split
      · rw [(moved bounded).1, (moved bounded).2]
        refine (ih (by omega) bounded (by omega)).bind fun pieces others => .pure ?_
        rintro _ _ ⟨more, kept⟩
        exact ⟨alike.append more, kept⟩
      · next none =>
        obtain none := Nat.eq_zero_of_not_pos none
        rw [(moved inWindow).1, (moved inWindow).2, none]
        have behind := (ih (by omega) inWindow (by omega)).strengthen (later pos)
        refine behind.bind fun pieces others => .pure ?_
        rintro _ _ ⟨more, kept⟩
        exact ⟨alike.append (Inline.AllAlike.append (.refl [_]) more), kept⟩

/-- With one level of nesting more, windows with the same characters have alike pieces if the rules
match the same at each place of them, and if the labels and the bodies inside them are alike. Those
end before the window does, where the rules have found an end. -/
theorem relates_parseWindow_succ {md : Markdown} {keeps : Nat → Memo → Memo → Prop}
    {isEnd : Nat → Prop} {parseLabel parseLabel' : Text → List Inline} {budget budget' : Nat}
    (inText : stop ≤ source.length)
    (same : ∀ pos, shift ≤ pos → pos ≤ stop → (Cursor.inside source pos stop).rest =
      (Cursor.inside text (pos - shift) (stop - shift)).rest)
    (later : ∀ {pos next memo other}, pos ≤ next → keeps pos memo other → keeps next memo other)
    (scans : ∀ pos rule, shift ≤ pos → pos < stop → Relates (keeps pos)
      (scan md (skip md (budget + 1)) rule (Cursor.inside source pos stop))
      (scan md (skip md (budget' + 1)) rule (Cursor.inside text (pos - shift) (stop - shift)))
      fun found found' memo other =>
        Construct.AllFit found (Cursor.inside source pos stop).rest ∧
          (∀ construct, found = some construct →
            construct.Framed (Cursor.inside source pos stop).rest ∧
              ∀ bodyEnd, construct.bodyEnd? pos = some bodyEnd → isEnd bodyEnd) ∧
            found = found' ∧ keeps pos memo other)
    (labels : ∀ label : Text, label.length < stop - shift →
      AllAlike (parseLabel label) (parseLabel' label))
    (bodies : ∀ {pos start bodyEnd next}, shift ≤ pos → pos ≤ start → start ≤ bodyEnd →
      bodyEnd < stop → isEnd bodyEnd → bodyEnd ≤ next → Relates (keeps pos)
        (parseWindow md parseLabel budget (Cursor.inside source start bodyEnd))
        (parseWindow md parseLabel' budget'
          (Cursor.inside text (start - shift) (bodyEnd - shift)))
        fun pieces others memo other => AllAlike pieces others ∧ keeps next memo other)
    {pos : Nat} (from_shift : shift ≤ pos) (ordered : pos ≤ stop) :
    Relates (keeps pos) (parseWindow md parseLabel (budget + 1) (Cursor.inside source pos stop))
      (parseWindow md parseLabel' (budget' + 1)
        (Cursor.inside text (pos - shift) (stop - shift)))
      fun pieces others memo other => AllAlike pieces others ∧ keeps stop memo other := by
  have length (pos : Nat) : (Cursor.inside source pos stop).rest.length = stop - pos :=
    Cursor.length_inside inText
  rw [parseWindow, parseWindow, ← same pos from_shift ordered]
  refine @relates_pieces _ _ source text stop shift keeps inText same
    (fun pos _ _ => later (Nat.le_succ pos)) (fun pos from_shift inWindow => ?_) _ pos from_shift
    ordered (Nat.le_of_eq (length pos).symm)
  refine (@relates_firstPieces (keeps pos) _ _ _ _ _ _ _ (fun length => keeps (pos + length))
    (fun _ _ => id) (fun rule => scans pos rule from_shift inWindow)
    (fun construct fits ⟨framed, isEnds⟩ => ?_) md.inlineChain).mono ?_
  · have sameRest := same pos from_shift (Nat.le_of_lt inWindow)
    have insideOf {enclosure : Enclosure} {skip bodyLength : Nat}
        (isForm : construct.form = .enclosing enclosure skip bodyLength) :
        pos + skip + bodyLength < stop := by
      obtain ⟨mark, here, -⟩ := framed enclosure skip bodyLength isForm
      have := (List.getElem?_eq_some_iff.mp here).1
      rw [length] at this
      omega
    refine relates_resolve ?_ (fun _ _ => later (Nat.le_add_right _ _)) ?_ ?_
    · intro skip length
      simp only [Cursor.window, Cursor.advance, sameRest]
    · intro enclosure skip bodyLength isForm
      have inside := insideOf isForm
      refine labels _ ?_
      rw [Cursor.window_inside (Nat.le_of_lt inside), Cursor.length_inside (by omega)]
      omega
    · intro enclosure skip bodyLength isForm notImage
      have inside := insideOf isForm
      have isEnd := isEnds _ (Construct.bodyEnd?_eq isForm notImage pos)
      have bounded := fits.inside
      rw [isForm] at bounded
      rw [Cursor.window_inside (Nat.le_of_lt inside), Cursor.window_inside (by omega)]
      have body := bodies from_shift (Nat.le_add_right pos skip) (Nat.le_add_right _ bodyLength)
        inside isEnd (show pos + skip + bodyLength ≤ pos + construct.length by omega)
      rwa [show pos + skip - shift = pos - shift + skip by omega,
        show pos + skip + bodyLength - shift = pos - shift + skip + bodyLength by omega] at body
  · rintro made made' memo other ⟨bounded, alike⟩
    rw [length] at bounded
    exact ⟨by omega, alike⟩

end

end ComponentMarkdown
