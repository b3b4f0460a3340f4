import ComponentMarkdown.Proofs.Inline.Transparency

/-!
# Windows in which skipping is local

What skipping finds at a place may depend on the end of the window even if it lies before that end:
in a wider window a construct can reach over the partner that a delimiter has in a narrower one. An
outcome of a wider window is recalled in the windows inside it, as long as it does not reach beyond
them. Where skipping is local that is as good as finding it anew. The file has:

* `LocalAt`, and `WindowEnd`, the ends of the windows where it matters;
* `Memo.SettledIn`, a memo that holds what skipping finds in a window;
* `Parses.settledIn`: where skipping is local at the ends of all windows around it, every run that
  parsing comes to has such a memo.
-/

namespace ComponentMarkdown

open Memoized (Gives WritesBefore)

/-- What skipping finds at a place of a window with nothing to recall and levels enough. -/
def foundAnew (md : Markdown) (source : Text) (stop pos : Nat) : Skipped :=
  ((skip md (source.length + 1) (Cursor.inside source pos stop)).run ∅).1

/-- What skipping finds with nothing to recall is what the rules find. -/
theorem foundAnew_eq_skipByRules {md : Markdown} (lawful : md.grammar.Lawful) {source : Text}
    {stop : Nat} (inText : stop ≤ source.length) (pos : Nat) :
    foundAnew md source stop pos =
      ((skipByRules md (skip md source.length) (Cursor.inside source pos stop)).run ∅).1 :=
  @Outlook.outcome_anew md lawful source stop inText _ rfl pos

/-- What is found at `pos` in any window that ends at `stop` or behind it is found in the one that
ends at `stop`, unless it reaches beyond `stop`. -/
def LocalAt (md : Markdown) (source : Text) (pos stop : Nat) : Prop :=
  ∀ wider ≤ source.length, stop ≤ wider → (foundAnew md source wider pos).stop ≤ stop →
    foundAnew md source stop pos = foundAnew md source wider pos

instance (md : Markdown) (source : Text) (pos stop : Nat) :
    Decidable (LocalAt md source pos stop) :=
  Nat.decidableBallLE _ _

/-- What a rule finds at a place of a window with nothing to recall and levels enough. -/
def constructAnew (md : Markdown) (source : Text) (stop pos : Nat) (rule : InlineRule) :
    Option Construct :=
  ((scan md (skip md (source.length + 1)) rule (Cursor.inside source pos stop)).run ∅).1

/-- Where windows end while the part of a text from `first` up to `last` is parsed: at its end, and
where the body ends of what a rule finds at a place of such a window. -/
inductive WindowEnd (md : Markdown) (source : Text) (first last : Nat) : Nat → Prop
  | last : WindowEnd md source first last last
  | body {stop pos bodyEnd : Nat} {rule : InlineRule} (isEnd : WindowEnd md source first last stop)
      (from_first : first ≤ pos) (inWindow : pos < stop)
      (found : (constructAnew md source stop pos rule).bind (·.bodyEnd? pos) = some bodyEnd) :
      WindowEnd md source first last bodyEnd

/-- No window ends behind the text. -/
theorem localAt_length (md : Markdown) (source : Text) (pos : Nat) :
    LocalAt md source pos source.length := by
  intro wider inText toEnd _
  rw [Nat.le_antisymm inText toEnd]

/-- What is remembered at the places of a window from `first` on is what skipping finds there,
unless it lies outside the window. -/
def Memo.SettledIn (md : Markdown) (source : Text) (stop first : Nat) (memo : Memo) : Prop :=
  ∀ (pos : Nat) (known : Skipped), first ≤ pos → pos < stop → memo[pos]? = some known →
    known.stop ≤ stop → known = foundAnew md source stop pos

section

variable {md : Markdown} {source : Text} {stop first pos budget : Nat} {memo : Memo}

/-- Skipping keeps the memo settled, and finds what it finds with nothing to recall. -/
theorem gives_skip_inside (lawful : md.grammar.Lawful) (inText : stop ≤ source.length)
    (from_first : first ≤ pos) (inWindow : pos < stop) (room : stop - pos < budget) :
    Gives (Memo.SettledIn md source stop first) (skip md budget (Cursor.inside source pos stop))
      (foundAnew md source stop pos) := by
  obtain ⟨outlook, isAnew⟩ : ∃ outlook, outlook = Outlook.anew lawful inText := ⟨_, rfl⟩
  have fewer : outlook.ahead pos < budget := by
    refine Nat.lt_of_le_of_lt ?_ room
    rw [isAnew, ← Cursor.length_inside inText]
    exact openings_le_length _
  have gives := gives_skip isAnew from_first (by rwa [isAnew]) fewer
  subst isAnew
  exact gives

/-- What a rule finds with a settled memo is what it finds with nothing to recall. -/
theorem scan_inside_eq (lawful : md.grammar.Lawful) (inText : stop ≤ source.length)
    (room : stop - pos ≤ budget) (rule : InlineRule)
    (settled : memo.SettledIn md source stop pos) :
    ((scan md (skip md budget) rule (Cursor.inside source pos stop)).run memo).1 =
      constructAnew md source stop pos rule := by
  obtain ⟨outlook, isAnew⟩ : ∃ outlook, outlook = Outlook.anew lawful inText := ⟨_, rfl⟩
  obtain ⟨value, determined⟩ := @Outlook.determines_scan outlook pos md lawful rule pos
    (Nat.le_refl pos)
  have ahead : outlook.ahead pos ≤ stop - pos := by
    rw [isAnew, ← Cursor.length_inside inText]
    exact openings_le_length _
  have gives {budget : Nat} (room : stop - pos ≤ budget) :
      Gives (Memo.Settled outlook pos) (scan md (skip md budget) rule (outlook.cursor pos)) value :=
    determined _ _ fun inner after inside fewer =>
      gives_skip isAnew after inside (Nat.lt_of_lt_of_le fewer (Nat.le_trans ahead room))
  have recalled := gives room
  have anew := (@gives (source.length + 1) (by omega)) ∅ (Memo.settled_empty outlook pos)
  subst isAnew
  exact (recalled memo settled).1.trans anew.1.symm

/-- All windows end at places of a list if no rule finds a body that ends elsewhere. -/
theorem WindowEnd.mem {last : Nat} {ends : List Nat} (last_mem : last ∈ ends)
    (closed : ∀ stop ∈ ends, ∀ pos < stop, first ≤ pos → ∀ rule ∈ InlineRule.all,
      ∀ bodyEnd ∈ (constructAnew md source stop pos rule).bind (·.bodyEnd? pos), bodyEnd ∈ ends)
    (isEnd : WindowEnd md source first last stop) : stop ∈ ends := by
  induction isEnd with
  | last => exact last_mem
  | @body stop pos bodyEnd rule _ from_first inWindow found ih =>
    have member : rule ∈ InlineRule.all := by cases rule <;> decide
    exact closed stop ih pos inWindow from_first rule member bodyEnd found

/-- A memo that is settled in a window is so in a window inside it where skipping is local. -/
theorem Memo.SettledIn.narrow (settled : memo.SettledIn md source stop first)
    (inText : stop ≤ source.length) {first' stop' : Nat} (behind : first ≤ first')
    (inside : stop' ≤ stop)
    (isLocal : ∀ pos, first' ≤ pos → pos < stop' → LocalAt md source pos stop') :
    memo.SettledIn md source stop' first' := by
  intro pos known from_first inWindow found bounded
  have same := settled pos known (Nat.le_trans behind from_first)
    (Nat.lt_of_lt_of_le inWindow inside) found (Nat.le_trans bounded inside)
  rw [same] at bounded ⊢
  exact (isLocal pos from_first inWindow stop inText inside bounded).symm

theorem Memo.SettledIn.later (settled : memo.SettledIn md source stop first) {first' : Nat}
    (behind : first ≤ first') : memo.SettledIn md source stop first' :=
  fun pos known from_first => settled pos known (Nat.le_trans behind from_first)

/-- What is written in front of a place leaves the memo settled from there on. -/
theorem Memo.SettledIn.written (settled : memo.SettledIn md source stop first) {first' : Nat}
    (behind : first ≤ first') {α : Type} {x : Memoized α} (writes : WritesBefore first' x) :
    (x.run memo).2.SettledIn md source stop first' := by
  intro pos known from_first inWindow found
  rw [writes memo pos from_first] at found
  exact settled.later behind pos known from_first inWindow found

end

namespace InlineRun

variable {md : Markdown} {base run : InlineRun}

/-- While a rule searches it goes no more levels deeper than characters forward. -/
theorem Behind.level_lt {pos level : Nat} (behind : base.Behind pos level)
    (shallow : base.level ≤ base.pos) : level < pos := by
  have opened := behind.opened
  have after := behind.after
  have few := openings_le_length ((base.source.take pos).drop base.pos)
  rw [List.length_drop, List.length_take] at few
  omega

/-- There are levels for all characters ahead if there are as many as characters. -/
theorem ahead_le_room (lawful : md.grammar.Lawful) (ready : run.Ready)
    (shallow : run.level ≤ run.pos) (room : run.source.length < md.maxNesting) :
    (Outlook.anew lawful ready.inText).ahead run.pos ≤ md.maxNesting - run.level := by
  have inText := ready.inText
  refine Nat.le_trans (openings_le_length _) ?_
  rw [show ((Outlook.anew lawful ready.inText).cursor run.pos).rest.length =
    run.posMax - run.pos from Cursor.length_inside inText]
  omega

/-- Where skipping is local at the ends of the windows that are at least as wide as that of the run,
the memo of the run holds what skipping finds in its window. -/
theorem Parses.settledIn (lawful : md.grammar.Lawful) {source : Text}
    (room : source.length < md.maxNesting) {least : Nat}
    (isLocal : ∀ stop ≤ source.length, least ≤ stop → ∀ pos < stop, LocalAt md source pos stop)
    (parses : Parses md run) (same : run.source = source) (wide : least ≤ run.posMax) :
    run.level ≤ run.pos ∧ run.memo.SettledIn md source run.posMax run.pos := by
  induction parses with
  | start text => exact ⟨Nat.le_refl _, fun pos known _ _ found => by simp [ofSource] at found⟩
  | @tried run rule parses inWindow shallow ih =>
    have ready := parses.ready lawful
    have contract := contract_tryRule lawful rule false ready
    rw [contract.source] at same
    rw [contract.posMax] at wide ⊢
    obtain ⟨level, settled⟩ := ih same wide
    subst same
    have after : run.pos ≤ (tryRule md rule false run).2.pos := by
      cases matched : (tryRule md rule false run).1 with
      | false => exact Nat.le_of_eq (contract.rejected matched).1.symm
      | true => exact Nat.le_of_lt (contract.accepted matched).1
    refine ⟨contract.level ▸ Nat.le_trans level after, ?_⟩
    exact settled_tryRule_inside ready rfl (ahead_le_room lawful ready level room) rule settled
  | literal pending parses inWindow ih =>
    obtain ⟨level, settled⟩ := ih same wide
    exact ⟨Nat.le_succ_of_le level, settled.later (Nat.le_succ _)⟩
  | @entered base run start stop pending tokens parses seeks after ordered inside ih =>
    have ready := parses.ready lawful
    have inText := ready.inText
    obtain ⟨-, sameSource, sameEnd⟩ := seeks.ready lawful ready
    dsimp only at same wide ⊢
    rw [sameSource] at same
    obtain ⟨level, settled⟩ := ih same (Nat.le_trans wide (Nat.le_of_lt inside))
    subst same
    refine ⟨Nat.le_trans (Nat.succ_le_succ level) after, ?_⟩
    have searched : run.memo.Settled (.anew lawful inText) base.pos := by
      refine seeks.settled_inside ready rfl (fun {pos _} behind => ?_) settled
      have deeper := behind.level_lt level
      have inWindow := behind.inside
      refine Nat.lt_of_le_of_lt (openings_le_length _) ?_
      rw [show ((Outlook.anew lawful inText).cursor pos).rest.length =
        base.posMax - pos from Cursor.length_inside inText]
      omega
    exact Memo.SettledIn.narrow searched inText (Nat.le_of_lt after) (Nat.le_of_lt inside)
      fun pos _ inWindow =>
        isLocal stop (Nat.le_trans (Nat.le_of_lt inside) inText) wide pos inWindow

end InlineRun

end ComponentMarkdown
