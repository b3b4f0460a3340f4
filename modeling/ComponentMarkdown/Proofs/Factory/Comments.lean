import ComponentMarkdown.Proofs.Factory.Literals
import ComponentMarkdown.Proofs.Factory.Weave

/-!
# Comments in factory calls

Copied code may have comments in it. What the factory writes around the copies is never read in a
comment as long as every copy is an operand, that is, as long as it does not end inside a line
comment and can be read to its end. The file has:

* properties and their groups, which keep the copies in their order;
* `element_composes`: the call for an element is an operand woven from the copies in it;
* `factory_weaves`, the same for accepted markup.
-/

namespace ComponentMarkdown.Factory

open Script

/-! ## Properties -/

/-- A key and the value that is made of the copies. -/
def HasField (copies : List (Nat × Text)) (field : Text × Text) : Prop :=
  IsWord field.1 ∧ Composes copies field.2

/-- A field may stand wherever in code. -/
theorem HasField.operatesFrom {copies : List (Nat × Text)} {field : Text × Text}
    (made : HasField copies field) (expected : Expected) :
    OperatesFrom expected copies (fieldText field) := by
  obtain ⟨run, before, key⟩ := made.1.isCode [] expected
  obtain ⟨lastRun, lastBefore, value⟩ := made.2.operates
  refine ⟨lastRun, lastBefore, fun brackets => ?_⟩
  rw [fieldText, List.append_assoc]
  exact (key brackets).append ((value brackets).separator (.inr rfl) (.inl rfl))

theorem operatesFrom_fields {copies : List (Nat × Text)} {fields : List (Text × Text)}
    (made : Each HasField copies fields) (notEmpty : fields ≠ []) (expected : Expected) :
    OperatesFrom expected copies (' ' :: Text.join [',', ' '] (fields.map fieldText) ++ [' ']) := by
  cases made with
  | nil => exact absurd rfl notEmpty
  | cons first behind =>
    exact (operatesFrom_join (.inl rfl) (first.operatesFrom expected)
      (behind.map fun _ _ made => made.operatesFrom .operand)).spaced (.inl rfl) rfl

theorem composes_objectLiteral {copies : List (Nat × Text)} {fields : List (Text × Text)}
    (made : Each HasField copies fields) : Composes copies (objectLiteral fields) := by
  by_cases notEmpty : fields ≠ []
  · obtain ⟨behind, braced⟩ :=
      (operatesFrom_fields made notEmpty .statement).bracketed .curly [] .operand
    rw [objectLiteral_eq notEmpty]
    exact ⟨⟨⟨'\x7b', rfl, by decide⟩, ⟨'\x7d', List.getLast?_concat, by decide⟩⟩, [], behind,
      braced⟩
  · rw [Decidable.not_not] at notEmpty
    subst notEmpty
    cases made
    exact ⟨⟨⟨_, rfl, by decide⟩, ⟨_, rfl, by decide⟩⟩, [], .unclear, fun brackets =>
      .own rfl (by decide) (.own rfl (by decide) .nil)⟩

/-- A property that is made of the copies. -/
inductive HasProperty : List (Nat × Text) → Property → Prop
  | field {copies : List (Nat × Text)} {key value : Text} (made : HasField copies (key, value)) :
      HasProperty copies (.field key value)
  | spread {copies : List (Nat × Text)} {code : Text} (made : Composes copies code) :
      HasProperty copies (.spread code)

/-- A group whose literal or spread is made of the copies. -/
inductive HasGroup : List (Nat × Text) → PropertyGroup → Prop
  | literal {copies : List (Nat × Text)} {fields : List (Text × Text)}
      (made : Each HasField copies fields) : HasGroup copies (.literal fields)
  | spread {copies : List (Nat × Text)} {code : Text} (made : Composes copies code) :
      HasGroup copies (.spread code)

theorem HasGroup.composes {copies : List (Nat × Text)} {group : PropertyGroup}
    (made : HasGroup copies group) : Composes copies group.write := by
  cases made with
  | literal made => exact composes_objectLiteral made
  | spread made => exact made

theorem each_fields {copies : List (Nat × Text)} {fields : List (Text × Text)}
    (made : Each HasProperty copies (fields.map fun (key, value) => .field key value)) :
    Each HasField copies fields := by
  induction fields generalizing copies with
  | nil =>
    cases made
    exact .nil
  | cons field fields ih =>
    obtain _ | ⟨first, behind⟩ := made
    cases first with
    | field made => exact .cons made (ih behind)

/-- Grouping keeps the copies in their order. -/
theorem each_groups {copies : List (Nat × Text)} {groups : List PropertyGroup}
    (made : Each HasProperty copies (groups.flatMap PropertyGroup.properties)) :
    Each HasGroup copies groups := by
  induction groups generalizing copies with
  | nil =>
    cases made
    exact .nil
  | cons group groups ih =>
    obtain ⟨front, behind, rfl, inGroup, inOthers⟩ := made.of_append
    refine .cons ?_ (ih inOthers)
    cases group with
    | literal fields => exact .literal (each_fields inGroup)
    | spread code =>
      obtain _ | ⟨first, none⟩ := inGroup
      cases none
      rw [List.append_nil]
      cases first with
      | spread made => exact .spread made

theorem each_groupProperties {copies : List (Nat × Text)} {properties : List Property}
    (made : Each HasProperty copies properties) :
    Each HasGroup copies (groupProperties properties) :=
  each_groups (by rwa [properties_groupProperties])

theorem isPath_assign : IsPath "Object.assign".toList :=
  by decide

theorem operates_groups {copies : List (Nat × Text)} {groups : List PropertyGroup}
    (made : Each HasGroup copies groups) (notEmpty : groups ≠ []) :
    Operates copies (Text.join [',', ' '] (groups.map PropertyGroup.write)) :=
  operates_join (.inl rfl) (made.map fun _ _ made => made.composes.operates)
    (by simpa using notEmpty)

theorem composes_writeProperties {copies : List (Nat × Text)} {properties : List Property}
    (made : Each HasProperty copies properties) : Composes copies (writeProperties properties) := by
  have grouped := each_groupProperties made
  have assigns := assigns_writeProperties properties
  generalize writeProperties properties = text at assigns
  generalize groupProperties properties = groups at assigns grouped
  cases assigns with
  | none =>
    cases grouped
    exact isWord_null.composes
  | @literal fields =>
    obtain _ | ⟨first, behind⟩ := grouped
    cases behind
    rw [List.append_nil]
    exact first.composes
  | groups notEmpty => exact isPath_assign.composes_call (operates_groups grouped notEmpty)

/-! ## Elements -/

theorem each_indentLines {copies : List (Nat × Text)} {args : List Text}
    (made : Each Composes copies args) :
    Each Operates (deeper copies) (args.map Factory.indentLines) := by
  induction made with
  | nil => exact .nil
  | cons first _ ih =>
    rw [deeper, List.map_append]
    exact .cons first.indentLines ih

/-- With children, the arguments of a call are indented, and so are the copies in them. -/
theorem operates_callBody {called properties : Text} {args : List Text}
    {copied others : List (Nat × Text)} (name : Composes [] called)
    (made : Composes copied properties) (madeArgs : Each Composes others args) :
    Operates (if args ≠ [] then deeper (copied ++ others) else copied ++ others)
      (callBody called properties args) := by
  have tag : Each Composes ([] ++ (copied ++ others)) (called :: properties :: args) :=
    .cons name (.cons made madeArgs)
  rw [callBody]
  by_cases hasArgs : args ≠ []
  · rw [if_pos hasArgs, if_neg (by simpa using hasArgs)]
    exact (operates_join (.inr rfl) (each_indentLines tag) (by simp)).spaced (.inr rfl) rfl
  · rw [if_neg hasArgs]
    rw [Decidable.not_not] at hasArgs
    subst hasArgs
    exact operates_join (.inl rfl) (tag.map (f := id) fun _ _ made => made.operates) (by simp)

theorem copies_deeper (parts : List (Nat × Part)) :
    copies (parts.map fun (level, part) => (level + 1, part)) = deeper (copies parts) := by
  rw [copies, copies, deeper, List.filterMap_map, List.map_filterMap]
  congr
  funext part
  obtain ⟨level, copied | value⟩ := part <;> rfl

/-- A name that is quoted or can be read, or code that can be read. -/
def Part.IsReadable : Part → Prop
  | .copy code => IsOperand code
  | .call value => isIntrinsic (nameOf value) ∨ IsPath (nameOf value)

instance (part : Part) : Decidable part.IsReadable :=
  match part with
  | .copy code => inferInstanceAs (Decidable (IsOperand code))
  | .call _ => inferInstanceAs (Decidable (_ ∨ _))

theorem composes_copy {code : Text}
    (readable : ∀ part ∈ [(0, Part.copy code)], part.2.IsReadable) :
    Composes (copies [(0, .copy code)]) code :=
  .copied (readable _ (List.mem_singleton.mpr rfl))

mutual

/-- The call for an element is woven from the copies in it. -/
theorem element_composes {pragma : Text} (isPragma : IsPath pragma) (value : Element) {code : Text}
    (accepted : element pragma value = .ok code)
    (readable : ∀ part ∈ elementParts value, part.2.IsReadable) :
    Composes (copies (elementParts value)) code := by
  obtain ⟨named, inTag, inBody⟩ := (forall_elementParts value).mp readable
  obtain ⟨called, props, args, isCalled, isProps, isArgs, rfl⟩ := element_accepted accepted
  rw [call_eq]
  refine isPragma.composes_call ?_
  have callee := (isWord_calledName isCalled named).composes
  cases value with
  | selfClosing name attributes =>
    cases children_nil isArgs
    have made := properties_compose isPragma attributes isProps inTag
    have inside := operates_callBody callee (composes_writeProperties made) .nil
    rwa [if_neg (by simp), List.append_nil] at inside
  | pair name attributes body closeName =>
    have inside := operates_callBody callee
      (composes_writeProperties (properties_compose isPragma attributes isProps inTag))
      (children_compose isPragma body isArgs inBody)
    rw [elementParts]
    -- the call indents its arguments if it has children, and so do the parts say
    have kept : (body.any isKept = true) = (args ≠ []) := any_isKept isArgs
    simp only [kept]
    split at inside
    · next hasArgs =>
      rw [if_pos hasArgs]
      rwa [← copies_append, ← copies_deeper] at inside
    · next none =>
      rw [if_neg none]
      rwa [← copies_append] at inside

theorem properties_compose {pragma : Text} (isPragma : IsPath pragma) (attributes : List Attribute)
    {props : List Property} (accepted : properties pragma attributes = .ok props)
    (readable : ∀ part ∈ attributesParts attributes, part.2.IsReadable) :
    Each HasProperty (copies (attributesParts attributes)) props := by
  cases attributes with
  | nil =>
    cases properties_nil accepted
    exact .nil
  | cons first attributes =>
    obtain ⟨made, others, isFirst, areOthers, rfl⟩ := properties_accepted accepted
    obtain ⟨inFirst, inOthers⟩ := List.forall_mem_append.mp readable
    rw [attributesParts, copies_append]
    exact .cons (property_composes isPragma first isFirst inFirst)
      (properties_compose isPragma attributes areOthers inOthers)

theorem property_composes {pragma : Text} (isPragma : IsPath pragma) (item : Attribute)
    {made : Property} (accepted : property pragma item = .ok made)
    (readable : ∀ part ∈ attributeParts item, part.2.IsReadable) :
    HasProperty (copies (attributeParts item)) made := by
  cases item with
  | flag name =>
    cases property_accepted accepted
    exact .field ⟨isWord_key name, isWord_true.composes⟩
  | text name value =>
    cases property_accepted accepted
    exact .field ⟨isWord_key name, composes_quote _⟩
  | code name value =>
    cases property_accepted accepted
    exact .field ⟨isWord_key name, composes_copy readable⟩
  | element name value =>
    cases property_accepted accepted with
    | element isCode =>
      exact .field ⟨isWord_key name, element_composes isPragma value isCode readable⟩
  | container value =>
    cases property_accepted accepted with
    | spread found =>
      rw [attributeParts, found] at readable ⊢
      exact .spread (composes_copy readable)
  | interrupted | comment => cases property_accepted accepted

theorem children_compose {pragma : Text} (isPragma : IsPath pragma) (body : List Child)
    {args : List Text} (accepted : children pragma body = .ok args)
    (readable : ∀ part ∈ bodyParts body, part.2.IsReadable) :
    Each Composes (copies (bodyParts body)) args := by
  cases body with
  | nil =>
    cases children_nil accepted
    exact .nil
  | cons first body =>
    obtain ⟨made, others, isFirst, areOthers, rfl⟩ := children_accepted accepted
    obtain ⟨inFirst, inOthers⟩ := List.forall_mem_append.mp readable
    rw [bodyParts, copies_append]
    exact (child_composes isPragma first isFirst inFirst).append
      (children_compose isPragma body areOthers inOthers)

theorem child_composes {pragma : Text} (isPragma : IsPath pragma) (item : Child)
    {args : List Text} (accepted : child pragma item = .ok args)
    (readable : ∀ part ∈ childParts item, part.2.IsReadable) :
    Each Composes (copies (childParts item)) args := by
  cases item with
  | text raw =>
    cases child_accepted accepted
    cases visibleText raw with
    | none => exact .nil
    | some text => exact .cons (composes_quote text) .nil
  | element value =>
    cases child_accepted accepted with
    | element isCode =>
      have single := Each.cons (element_composes isPragma value isCode readable) .nil
      rwa [List.append_nil] at single
  | container value =>
    rw [childParts] at readable ⊢
    cases child_accepted accepted with
    | blank isBlank =>
      rw [if_neg (by simp [isBlank])]
      exact .nil
    | code isCode =>
      rw [if_pos isCode] at readable ⊢
      exact .cons (composes_copy readable) .nil

end

/-! ## Markup -/

/-- The outcomes of the factory can be compared. -/
instance decidableEqOutcome : DecidableEq (Except Refusal Text)
  | .ok code, .ok other => decidable_of_iff (code = other) (by rw [Except.ok.injEq])
  | .error refusal, .error other => decidable_of_iff (refusal = other) (by rw [Except.error.injEq])
  | .ok _, .error _ => isFalse nofun
  | .error _, .ok _ => isFalse nofun

/-- If every copied expression is an operand, none of the other characters of the code is in a
comment, and the code ends outside of comments itself. -/
theorem factory_weaves {pragma markup code : Text}
    (accepted : Transformer.factory pragma markup = .ok code) (isPragma : IsPath pragma)
    (readable : ∀ part ∈ markupParts markup, part.2.IsReadable) :
    ∃ run before, Weaves {} (copies (markupParts markup)) code ⟨.code run before, []⟩ := by
  have composed : Composes (copies (markupParts markup)) code := by
    rcases factory_accepted accepted with isCopy | ⟨root, isElement, accepted⟩
    · rw [isCopy] at readable ⊢
      exact composes_copy readable
    · rw [isElement] at readable ⊢
      exact element_composes isPragma root accepted readable
  obtain ⟨run, before, woven⟩ := composed.operates
  exact ⟨run, before, woven []⟩

/-- A block comment ends where its copy does. Two slashes in a string, in a pattern or between tags
are no comment. -/
theorem factory_weaves_block :
    let markup := ("<A x=\x7ba /* b */\x7d y='//'>\x7bx => <b>//\x7bx\x7d</b>\x7d" ++
      "\x7b'a' in /[//]/\x7d</A>").toList
    let code := ("h(\n  A,\n  \x7b x: a /* b */, y: \"//\" \x7d,\n  x => <b>//\x7bx\x7d</b>,\n" ++
      "  'a' in /[//]/\n)").toList
    Transformer.factory ['h'] markup = .ok code ∧
      copies (markupParts markup) = [(1, "a /* b */".toList),
        (1, "x => <b>//\x7bx\x7d</b>".toList), (1, "'a' in /[//]/".toList)] ∧
      ∃ run before, Weaves {} (copies (markupParts markup)) code ⟨.code run before, []⟩ := by
  intro markup code
  have accepted : Transformer.factory ['h'] markup = .ok code := by decide +kernel
  refine ⟨accepted, by decide +kernel, ?_⟩
  exact factory_weaves accepted (by decide) (by decide +kernel)

/-- What ends in a comment is woven from nothing. -/
theorem not_weaves_of_isComment {copies : List (Nat × Text)} {code : Text}
    (comment : (Reader.read {} code).spot.isComment) :
    ¬ ∃ run before, Weaves {} copies code ⟨.code run before, []⟩ := by
  rintro ⟨run, before, woven⟩
  rw [woven.read] at comment
  cases comment

/-- The line end behind a line comment goes when the braces are trimmed. What the factory writes
next is then read in the comment, also if the slashes stand behind a close tag or behind a division
by something with a name like an operator's. -/
theorem line_comment_stays_open :
    let staysOpen := fun value : Text =>
      let markup := "<A x=\x7b".toList ++ value ++ "\n\x7d/>".toList
      let opened := "h(A, \x7b x: ".toList ++ value
      let closing := " \x7d)".toList
      Transformer.factory ['h'] markup = .ok (opened ++ closing) ∧
        copies (markupParts markup) = [(0, value)] ∧ (Reader.read {} opened).spot.isComment ∧
        (Reader.read {} (opened ++ closing)).spot.isComment ∧
        ¬ ∃ run before, Weaves {} (copies (markupParts markup)) (opened ++ closing)
          ⟨.code run before, []⟩
    staysOpen "1 // c".toList ∧ staysOpen "<a>x</a> // c".toList ∧
      staysOpen "x . in / a // c".toList := by
  refine ⟨⟨?_, ?_, ?_, ?_, not_weaves_of_isComment ?_⟩,
    ⟨?_, ?_, ?_, ?_, not_weaves_of_isComment ?_⟩, ?_, ?_, ?_, ?_, not_weaves_of_isComment ?_⟩
  all_goals decide +kernel

end ComponentMarkdown.Factory
