import ComponentMarkdown.Proofs.Factory.Calls
import ComponentMarkdown.Proofs.Factory.VisibleText
import ComponentMarkdown.Proofs.Script.Bodies

/-!
# Children of elements

The body of an element becomes the last arguments of its call: a string for each text that is not
layout only, a call for each element and the code of each container that holds more than comments,
in the order in which they stand in the body.
-/

namespace ComponentMarkdown.Factory

open Script

variable {pragma : Text}

theorem child_eq_ok_iff {part : Child} {args : List Text} :
    child pragma part = .ok args ↔ ArgumentsFor pragma part args := by
  refine ⟨child_accepted, fun isFor => ?_⟩
  cases isFor with
  | text => rw [child]; rfl
  | element isCode => rw [child, isCode]; rfl
  | blank isBlank => rw [child, containerChild, isBlank]
  | code isCode => rw [child, containerChild, isCode]

/-- The arguments for a body are those for its parts, if every part is accepted. -/
theorem children_eq_ok_iff {body : List Child} {args : List Text} :
    children pragma body = .ok args ↔
      ∃ items, List.Forall₂ (ArgumentsFor pragma) body items ∧ args = items.flatten := by
  induction body generalizing args with
  | nil =>
    constructor
    · intro accepted
      exact ⟨[], .nil, children_nil accepted⟩
    · rintro ⟨_, _ | _, rfl⟩
      rw [children]
      rfl
  | cons part body ih =>
    constructor
    · intro accepted
      obtain ⟨first, others, isFirst, areOthers, rfl⟩ := children_accepted accepted
      obtain ⟨items, areItems, rfl⟩ := ih.mp areOthers
      exact ⟨first :: items, .cons (child_eq_ok_iff.mp isFirst) areItems, rfl⟩
    · rintro ⟨_, _ | @⟨_, first, _, items, isFirst, areItems⟩, rfl⟩
      rw [children, child_eq_ok_iff.mpr isFirst, ih.mpr ⟨items, areItems, rfl⟩]
      rfl

/-- A part of a body has arguments unless it is an element that is refused or a spread. -/
theorem exists_argumentsFor_iff {part : Child} :
    (∃ args, ArgumentsFor pragma part args) ↔
      (∀ value, part = .element value → ∃ code, element pragma value = .ok code) ∧
        ∀ value, part = .container value → value.content ≠ .spread := by
  constructor
  · rintro ⟨args, isFor⟩
    cases isFor with
    | text => exact ⟨nofun, nofun⟩
    | element isCode =>
      refine ⟨?_, nofun⟩
      rintro _ ⟨⟩
      exact ⟨_, isCode⟩
    | blank isBlank =>
      refine ⟨nofun, ?_⟩
      rintro _ ⟨⟩
      simp [isBlank]
    | code isCode =>
      refine ⟨nofun, ?_⟩
      rintro _ ⟨⟩
      simp [isCode]
  · rintro ⟨elements, containers⟩
    cases part with
    | text raw => exact ⟨_, .text⟩
    | element value =>
      obtain ⟨code, isCode⟩ := elements value rfl
      exact ⟨_, .element isCode⟩
    | container value =>
      cases isContent : value.content with
      | blank => exact ⟨_, .blank isContent⟩
      | code => exact ⟨_, .code isContent⟩
      | spread => exact absurd isContent (containers value rfl)

/-- A body is accepted if each of its parts has arguments. -/
theorem exists_children_iff_forall {body : List Child} :
    (∃ args, children pragma body = .ok args) ↔
      ∀ part ∈ body, ∃ args, ArgumentsFor pragma part args := by
  induction body with
  | nil => exact ⟨nofun, fun _ => ⟨[], by rw [children]; rfl⟩⟩
  | cons part body ih =>
    rw [List.forall_mem_cons, ← ih]
    constructor
    · rintro ⟨args, accepted⟩
      obtain ⟨first, others, isFirst, areOthers, -⟩ := children_accepted accepted
      exact ⟨⟨first, child_accepted isFirst⟩, others, areOthers⟩
    · rintro ⟨⟨first, isFirst⟩, others, areOthers⟩
      exact ⟨first ++ others, by rw [children, child_eq_ok_iff.mpr isFirst, areOthers]; rfl⟩

/-- A body is accepted unless it has an element that is refused or a spread. -/
theorem exists_children_iff {body : List Child} :
    (∃ args, children pragma body = .ok args) ↔
      (∀ value, .element value ∈ body → ∃ code, element pragma value = .ok code) ∧
        ∀ value, .container value ∈ body → value.content ≠ .spread := by
  simp only [exists_children_iff_forall, exists_argumentsFor_iff]
  constructor
  · intro all
    exact ⟨fun value member => (all _ member).1 value rfl,
      fun value member => (all _ member).2 value rfl⟩
  · rintro ⟨elements, containers⟩ part member
    exact ⟨fun value same => elements value (same ▸ member),
      fun value same => containers value (same ▸ member)⟩

/-- The visible part of a text follows the rule. What stands between the tags of an element is cut
into text and nested parts, and the children are what these are written as, in their order. -/
theorem children_cover :
    (∀ raw, visibleText raw = referenceText raw) ∧
      ∀ {depth : Nat} {s rest name closeName : Text} {attributes : List Attribute}
        {body : List Child},
        Script.element (rules depth) s = some (.pair name attributes body closeName, rest) →
          (∃ opening inner closing, s = opening ++ inner ++ closing ++ rest ∧
            openTag (rules depth) s = some ((name, attributes, false), inner ++ closing ++ rest) ∧
            closeTag (closing ++ rest) = some (closeName, rest) ∧
            Covers (rules depth) (closing ++ rest) body inner) ∧
          ∀ pragma,
            (∀ args, children pragma body = .ok args ↔
              ∃ items, List.Forall₂ (ArgumentsFor pragma) body items ∧ args = items.flatten) ∧
            ((∃ args, children pragma body = .ok args) ↔
              (∀ value, .element value ∈ body → ∃ code, element pragma value = .ok code) ∧
                ∀ value, .container value ∈ body → value.content ≠ .spread) := by
  refine ⟨visibleText_eq, fun found => ⟨element_covers (within_rules _) found, fun pragma => ?_⟩⟩
  exact ⟨fun _ => children_eq_ok_iff, exists_children_iff⟩

theorem children_cover_mixed :
    let s := "<A>\n  x &amp; {y}{/* no */}<b/> <i>z</i>\n</A>;".toList
    let args := ["\"x & \"".toList, "y".toList, "h(\"b\", null)".toList, "\" \"".toList,
      "h(\n  \"i\",\n  null,\n  \"z\"\n)".toList]
    referenceText "\n  x &amp; ".toList = some "x & ".toList ∧
      ∃ body opening inner closing items,
        s = opening ++ inner ++ closing ++ [';'] ∧
        Covers (rules 5) (closing ++ [';']) body inner ∧ children ['h'] body = .ok args ∧
        List.Forall₂ (ArgumentsFor ['h']) body items ∧ args = items.flatten := by
  intro s args
  refine ⟨(children_cover.1 _).symm.trans (by decide +kernel), ?_⟩
  have made : (Script.element (rules 5) s).bind (fun found =>
      match found.1 with
      | .pair _ _ body _ => some (found.2, (children ['h'] body).toOption)
      | .selfClosing .. => none) = some ([';'], some args) := by
    decide +kernel
  obtain ⟨⟨value, rest⟩, found, made⟩ := Option.bind_eq_some_iff.mp made
  cases value with
  | selfClosing => cases made
  | pair name attributes body closeName =>
    obtain ⟨rfl, isArgs⟩ := Prod.mk.inj (Option.some.inj made)
    have accepted : children ['h'] body = .ok args := by
      cases same : children ['h'] body with
      | error reason =>
        rw [same] at isArgs
        cases isArgs
      | ok others =>
        rw [same] at isArgs
        exact congrArg Except.ok (Option.some.inj isArgs)
    obtain ⟨⟨opening, inner, closing, whole, -, -, covers⟩, written⟩ := children_cover.2 found
    obtain ⟨items, areItems, joined⟩ := ((written ['h']).1 args).mp accepted
    exact ⟨body, opening, inner, closing, items, whole, covers, accepted, areItems, joined⟩

end ComponentMarkdown.Factory
