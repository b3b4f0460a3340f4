import Mathlib.Order.Nat
import ComponentMarkdown.Proofs.Block.Embedded

/-!
# Where embedded markup ends

Markup on several lines ends behind the first close tag of its name up to which the transformer
accepts it. Without one it is tried with all lines that are left in the container. The file has:

* `Scope.IsBound`, the line at which the search for a close tag ends;
* `EndsMarkup`, which says where markup ends, in terms of the least line that closes it;
* `findBlockClose_least`: the search finds that line;
* `tryRule_embedded`: what a run of the rule does with the markup it has found.
-/

namespace ComponentMarkdown

variable {md : Markdown} {scope : Scope} {name : Text} {first stop bound : Nat}

/-! ## The lines of markup -/

/-- The first line behind `first` that is dedented, or else `stop`. -/
def Scope.IsBound (scope : Scope) (first stop bound : Nat) : Prop :=
  IsLeast {number | first < number ∧ (number = stop ∨ scope.isDedented number = true)} bound

/-- The line has a close tag of that name, and the transformer accepts the lines from `first` on
through this one. -/
structure ClosesMarkup (md : Markdown) (scope : Scope) (name : Text) (first number : Nat) :
    Prop where
  tag : ∃ tag, md.grammar.closeTag .block (scope.content number) = some tag ∧ tag.name = name
  accepted : ∃ code, md.transform (scope.source first (number + 1) scope.indent true) = .ok code

/-- The lines between `first` and `bound` that close markup of that name. -/
def closingLines (md : Markdown) (scope : Scope) (name : Text) (first bound : Nat) : Set Nat :=
  {number | first < number ∧ number < bound ∧ ClosesMarkup md scope name first number}

/-- Markup that begins with a tag of that name ends in front of line `last`: behind its only line if
the tag closes itself, else behind the least line that closes it, else at the bound. -/
def EndsMarkup (md : Markdown) (scope : Scope) (name : Text) (first bound last : Nat) : Prop :=
  if (md.grammar.selfClosing .block (scope.content first).trim).isSome then last = first + 1
  else
    (∃ number, IsLeast (closingLines md scope name first bound) number ∧ last = number + 1) ∨
      ((∀ number, number ∉ closingLines md scope name first bound) ∧ last = bound)

/-! ## The search -/

theorem exists_isBound (scope : Scope) (ordered : first < stop) :
    ∃ bound, scope.IsBound first stop bound :=
  have ends : ∃ number, first < number ∧ (number = stop ∨ scope.isDedented number = true) :=
    ⟨stop, ordered, .inl rfl⟩
  ⟨Nat.find ends, Nat.isLeast_find ends⟩

/-- The search ends at the bound, and not in front of it. -/
theorem Scope.IsBound.ends_iff (isBound : scope.IsBound first stop bound) (ordered : first < stop)
    {next : Nat} (behind : first < next) (inside : next ≤ bound) :
    (decide (stop ≤ next) || scope.isDedented next) = true ↔ next = bound := by
  have inWindow : bound ≤ stop := isBound.2 ⟨ordered, .inl rfl⟩
  rw [Bool.or_eq_true, decide_eq_true_iff]
  constructor
  · intro ends
    refine Nat.le_antisymm inside (isBound.2 ⟨behind, ends.imp_left fun atEnd => ?_⟩)
    exact Nat.le_antisymm (Nat.le_trans inside inWindow) atEnd
  · rintro rfl
    exact isBound.1.2.imp_left fun same => Nat.le_of_eq same.symm

theorem embedLines?_eq_some {code : Text} :
    embedLines? md scope first stop = some code ↔
      ∃ raw, md.transform (scope.source first stop scope.indent true) = .ok raw ∧
        tidyCode raw = code := by
  rw [embedLines?, Transformer.embed?]
  cases md.transform (scope.source first stop scope.indent true) with
  | error => simp [Except.toOption]
  | ok raw => simp [Except.toOption]

theorem closesMarkup_iff {number : Nat} :
    ClosesMarkup md scope name first number ↔
      (md.grammar.closeTag .block (scope.content number)).any (·.name == name) = true ∧
        ∃ code, embedLines? md scope first (number + 1) = some code := by
  simp only [embedLines?_eq_some, Option.any_eq_true, beq_iff_eq]
  constructor
  · rintro ⟨tag, raw, accepted⟩
    exact ⟨tag, _, raw, accepted, rfl⟩
  · rintro ⟨tag, -, raw, accepted, -⟩
    exact ⟨tag, raw, accepted⟩

/-- From a line on in front of which nothing closes the markup, the search finds the least line that
does, or else it comes to the bound. -/
theorem findBlockClose_least (isBound : scope.IsBound first stop bound) (ordered : first < stop)
    {fuel next : Nat} (enough : bound - next ≤ fuel) (behind : first < next)
    (inside : next ≤ bound)
    (passed : ∀ number ∈ closingLines md scope name first bound, next ≤ number) :
    (∃ number code, IsLeast (closingLines md scope name first bound) number ∧
      embedLines? md scope first (number + 1) = some code ∧
      findBlockClose md scope name first stop fuel next = (number + 1, some code)) ∨
    ((∀ number, number ∉ closingLines md scope name first bound) ∧
      findBlockClose md scope name first stop fuel next = (bound, none)) := by
  induction fuel generalizing next with
  | zero =>
    obtain rfl : next = bound := by omega
    exact .inr ⟨fun number member => Nat.not_lt_of_le (passed number member) member.2.1, rfl⟩
  | succ fuel ih =>
    rw [findBlockClose]
    by_cases same : next = bound
    · rw [if_pos ((isBound.ends_iff ordered behind inside).mpr same), same]
      exact .inr ⟨fun number member =>
        Nat.not_lt_of_le (passed number member) (same ▸ member.2.1), rfl⟩
    · rw [if_neg fun ends => same ((isBound.ends_iff ordered behind inside).mp ends)]
      have inWindow : next < bound := Nat.lt_of_le_of_ne inside same
      -- A line that does not close the markup is passed by.
      have further (notHere : ¬ClosesMarkup md scope name first next) :=
        @ih (next + 1) (by omega) (Nat.lt_succ_of_lt behind) inWindow fun number member =>
          Nat.lt_of_le_of_ne (passed number member) fun same => notHere (same ▸ member.2.2)
      rw [closesMarkup_iff] at further
      split
      · next isTag =>
        cases accepted : embedLines? md scope first (next + 1) with
        | some code =>
          have closes := closesMarkup_iff.mpr ⟨isTag, code, accepted⟩
          exact .inl ⟨next, code, ⟨⟨behind, inWindow, closes⟩, passed⟩, accepted, rfl⟩
        | none => exact further fun closes => by simp [accepted] at closes
      · next noTag => exact further fun closes => noTag closes.1

/-- What the search comes to is where the markup ends. -/
theorem markupEnd_ends (md : Markdown) (scope : Scope) (name : Text) (ordered : first < stop) :
    let found := markupEnd md scope name first stop
    ∃ bound, scope.IsBound first stop bound ∧ EndsMarkup md scope name first bound found.1 ∧
      (found.2 <|> embedLines? md scope first found.1) = embedLines? md scope first found.1 := by
  intro found
  obtain ⟨bound, isBound⟩ := exists_isBound scope ordered
  refine ⟨bound, isBound, ?_⟩
  have isFound : markupEnd md scope name first stop = found := rfl
  unfold markupEnd at isFound
  unfold EndsMarkup
  split at isFound
  · next selfClosing =>
    rw [if_pos selfClosing, ← isFound]
    exact ⟨rfl, rfl⟩
  · next notSelfClosing =>
    rw [if_neg notSelfClosing]
    have inWindow : bound ≤ stop := isBound.2 ⟨ordered, .inl rfl⟩
    have searched := @findBlockClose_least md scope name first stop bound isBound ordered
      (stop - first) (first + 1) (by omega) (Nat.lt_succ_self first) isBound.1.1
      fun number member => member.1
    rcases searched with ⟨number, code, least, accepted, same⟩ | ⟨none, same⟩
    · rw [← isFound, same]
      exact ⟨.inl ⟨number, least, rfl⟩, accepted.symm⟩
    · rw [← isFound, same]
      exact ⟨.inr ⟨none, rfl⟩, rfl⟩

/-! ## The rule -/

/-- A line that begins with an open tag is embedded markup if the transformer accepts the lines up
to where it ends, for any grammar, any transformer and any state. The run then has one more token,
with the code for exactly these lines, and goes on behind them; otherwise nothing changes. -/
theorem BlockRun.tryRule_embedded (md : Markdown) (run : BlockRun) {first stop : Nat}
    (ordered : first < stop) (begins : (run.scope.content first).head? = some '<')
    {tag : FoundTag}
    (opens : md.grammar.openTag .block (run.scope.content first).trim = some tag) :
    ∃ bound last, run.scope.IsBound first stop bound ∧
      EndsMarkup md run.scope tag.name first bound last ∧
      tryRule md .embedded first stop false run =
        match md.transform (run.scope.source first last run.scope.indent true) with
        | .error _ => (false, run)
        | .ok raw =>
          (true, { run with
            progress := { run.progress with line := last }
            tokens := run.tokens ++
              [embeddedToken run.scope.level (tidyCode raw) (first, last)] }) := by
  have isTag : openTagAt? md run.scope first = some tag := by
    rw [openTagAt?, begins]
    exact opens
  obtain ⟨bound, isBound, ends, embeds⟩ := markupEnd_ends md run.scope tag.name ordered
  refine ⟨bound, _, isBound, ends, ?_⟩
  have made : tryRule md .embedded first stop false run =
      run.accept ((embeddedBlock? md run.scope first stop).map (·.made run.progress)) :=
    embedded_eq first stop run
  rw [made, embeddedBlock?_eq isTag, embeds, embedLines?, Transformer.embed?]
  cases md.transform (run.scope.source first _ run.scope.indent true) with
  | error => rfl
  | ok raw => rfl

/-- An element around one of the same name: the first close tag belongs to the inner one, so that
the markup ends at the second one, behind line 3 of the five lines. -/
theorem BlockRun.tryRule_embedded_nested :
    let md : Markdown := { transform := .createElement }
    let run := ofSource "<A>\n<A>\n</A>\n</A>\n</A>\n".toList
    (0 < 5 ∧ (run.scope.content 0).head? = some '<' ∧
      md.grammar.openTag .block (run.scope.content 0).trim = some ⟨['A'], 3⟩) ∧
      ∃ bound last, run.scope.IsBound 0 5 bound ∧ EndsMarkup md run.scope ['A'] 0 bound last ∧
        (tryRule md .embedded 0 5 false run).1 = true ∧
        (tryRule md .embedded 0 5 false run).2.progress.line = last ∧ last = 4 := by
  intro md run
  have given : (run.scope.content 0).head? = some '<' ∧
      md.grammar.openTag .block (run.scope.content 0).trim = some ⟨['A'], 3⟩ := by decide +kernel
  obtain ⟨begins, opens⟩ := given
  obtain ⟨bound, last, isBound, ends, same⟩ :=
    tryRule_embedded md run (show 0 < 5 by decide) begins opens
  have matched : (tryRule md .embedded 0 5 false run).1 = true ∧
      (tryRule md .embedded 0 5 false run).2.progress.line = 4 := by decide +kernel
  have stopsAt : (tryRule md .embedded 0 5 false run).2.progress.line = last := by
    have accepted := matched.1
    rw [same] at accepted ⊢
    cases made : md.transform (run.scope.source 0 last run.scope.indent true) with
    | error _ => simp [made] at accepted
    | ok raw => rfl
  exact ⟨⟨by decide, begins, opens⟩, bound, last, isBound, ends, matched.1, stopsAt,
    stopsAt.symm.trans matched.2⟩

end ComponentMarkdown
