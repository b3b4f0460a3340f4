import ComponentMarkdown.Proofs.Factory.Calls
import ComponentMarkdown.Proofs.Factory.Hanging

/-!
# Code that is copied into calls

A call has the code of its containers in it, as it was written but for the indentation that each
call with children gives to its arguments. The file has:

* `Shows`, code that stands in other code and hangs there;
* `elementParts`, the copied code and the elements inside an element, with the number of calls that
  indent them, and `element_shows`: the call has them there.
-/

namespace ComponentMarkdown.Factory

open Script

/-! ## Parts of code -/

/-- The code has every solid part of the copy in it, hanging from that many levels. -/
def Shows (code : Text) (level : Nat) (copy : Text) : Prop :=
  ∀ part, Solid part → part <:+: copy → hangBy level part <:+: code

theorem Shows.refl (copy : Text) : Shows copy 0 copy :=
  fun _ _ inside => inside

theorem Shows.mono {code larger copy : Text} {level : Nat} (shown : Shows code level copy)
    (inside : code <:+: larger) : Shows larger level copy :=
  fun part solid among => (shown part solid among).trans inside

/-- What stands in an argument stands in the indented argument, one level deeper. -/
theorem Shows.indentLines {code copy : Text} {level : Nat} (shown : Shows code level copy)
    (ends : code.getLast? ≠ some '\n') : Shows (indentLines code) (level + 1) copy := by
  intro part solid among
  have inside := shown part solid among
  have hung := (solid.hangBy level)
  have notEmpty : code ≠ [] := by
    rintro rfl
    exact hung.ne_nil (List.infix_nil.mp inside)
  rw [indentLines_eq notEmpty ends]
  exact (infix_hang hung inside).trans (List.suffix_append [' ', ' '] _).isInfix

theorem infix_join {piece : Text} {pieces : List Text} (separator : Text)
    (member : piece ∈ pieces) : piece <:+: Text.join separator pieces := by
  induction pieces with
  | nil => cases member
  | cons first pieces ih =>
    cases pieces with
    | nil => exact List.mem_singleton.mp member ▸ List.infix_refl _
    | cons other pieces =>
      rw [Text.join_cons _ _ (List.cons_ne_nil _ _), List.append_assoc]
      cases member with
      | head => exact (List.prefix_append _ _).isInfix
      | tail _ member =>
        refine (ih member).trans ?_
        rw [← List.append_assoc]
        exact (List.suffix_append _ _).isInfix

/-! ## Properties -/

/-- The code that a property has from the source. -/
def Property.code : Property → Text
  | .field _ value => value
  | .spread code => code

theorem infix_objectLiteral {fields : List (Text × Text)} {field : Text × Text}
    (member : field ∈ fields) : field.2 <:+: objectLiteral fields := by
  have written : field.2 <:+: fieldText field := (List.suffix_append _ _).isInfix
  have joined := infix_join [',', ' '] (List.mem_map_of_mem (f := fieldText) member)
  rw [objectLiteral_eq (List.ne_nil_of_mem member)]
  refine (written.trans joined).trans ?_
  exact ⟨['\x7b', ' '], [' ', '\x7d'], by simp⟩

theorem infix_group {group : PropertyGroup} {property : Property}
    (member : property ∈ group.properties) : property.code <:+: group.write := by
  cases group with
  | literal fields =>
    obtain ⟨field, isField, rfl⟩ := List.mem_map.mp member
    exact infix_objectLiteral isField
  | spread code =>
    cases List.mem_singleton.mp member
    exact List.infix_refl _

/-- The code of every property stands in the argument for the properties. -/
theorem infix_writeProperties {properties : List Property} {property : Property}
    (member : property ∈ properties) : property.code <:+: writeProperties properties := by
  rw [← properties_groupProperties properties] at member
  obtain ⟨group, isGroup, member⟩ := List.mem_flatMap.mp member
  have inside := infix_group member
  have assigns := assigns_writeProperties properties
  generalize writeProperties properties = text at assigns
  generalize groupProperties properties = groups at assigns isGroup
  cases assigns with
  | none => cases isGroup
  | literal =>
    cases List.mem_singleton.mp isGroup
    exact inside
  | groups =>
    refine (inside.trans (infix_join [',', ' '] (List.mem_map_of_mem isGroup))).trans ?_
    exact ⟨"Object.assign".toList ++ ['('], [')'], by simp⟩

theorem writeProperties_ends (properties : List Property) :
    (writeProperties properties).getLast? ≠ some '\n' := by
  have assigns := assigns_writeProperties properties
  generalize writeProperties properties = text at assigns
  generalize groupProperties properties = groups at assigns
  cases assigns with
  | none => decide
  | @literal fields =>
    by_cases notEmpty : fields ≠ []
    · rw [objectLiteral_eq notEmpty, List.getLast?_concat]
      decide
    · rw [Decidable.not_not] at notEmpty
      subst notEmpty
      decide
  | groups =>
    rw [List.getLast?_concat]
    decide

/-! ## Parts of an element -/

/-- Something inside an element that the call for it has in it: code that is copied, or another
element. -/
inductive Part where
  | copy (code : Text)
  | call (value : Element)

/-- What is written for a part. -/
def Part.Makes (pragma : Text) : Part → Text → Prop
  | .copy code, text => text = code
  | .call value, text => element pragma value = .ok text

/-- The code that is copied, in its order. -/
def copies (parts : List (Nat × Part)) : List (Nat × Text) :=
  parts.filterMap fun
    | (level, .copy code) => some (level, code)
    | (_, .call _) => none

theorem copies_append (parts more : List (Nat × Part)) :
    copies (parts ++ more) = copies parts ++ copies more :=
  List.filterMap_append

theorem mem_copies {parts : List (Nat × Part)} {level : Nat} {code : Text} :
    (level, code) ∈ copies parts ↔ (level, .copy code) ∈ parts := by
  rw [copies, List.mem_filterMap]
  constructor
  · rintro ⟨⟨level, copy | call⟩, member, made⟩
    · cases made
      exact member
    · cases made
  · exact fun member => ⟨_, member, rfl⟩

mutual

/-- The parts of an element, itself among them, in the order in which they are written, each with
the number of calls that indent it. -/
def elementParts : Element → List (Nat × Part)
  | .selfClosing name attributes =>
    (0, .call (.selfClosing name attributes)) :: attributesParts attributes
  | .pair name attributes body closeName =>
    let parts := attributesParts attributes ++ bodyParts body
    (0, .call (.pair name attributes body closeName)) ::
      if body.any isKept then parts.map fun (level, part) => (level + 1, part) else parts

def attributesParts : List Attribute → List (Nat × Part)
  | [] => []
  | part :: attributes => attributeParts part ++ attributesParts attributes

def attributeParts : Attribute → List (Nat × Part)
  | .code _ value => [(0, .copy (containerBody value))]
  | .element _ value => elementParts value
  | .container value =>
    match Text.dropPrefix? "...".toList (containerBody value) with
    | some code => [(0, .copy code.trim)]
    | none => []
  | .flag _ | .text .. | .interrupted _ | .comment => []

def bodyParts : List Child → List (Nat × Part)
  | [] => []
  | part :: body => childParts part ++ bodyParts body

def childParts : Child → List (Nat × Part)
  | .text _ => []
  | .element value => elementParts value
  | .container value => if value.content = .code then [(0, .copy (containerBody value))] else []

end

/-- The parts of an element are itself, those of its attributes and those of its body. -/
theorem forall_elementParts {holds : Part → Prop} (value : Element) :
    (∀ part ∈ elementParts value, holds part.2) ↔
      holds (.call value) ∧ (∀ part ∈ attributesParts (attributesOf value), holds part.2) ∧
        ∀ part ∈ bodyParts (bodyOf value), holds part.2 := by
  cases value with
  | selfClosing name attributes => simp [elementParts, attributesOf, bodyOf, bodyParts]
  | pair name attributes body closeName =>
    rw [elementParts]
    dsimp only [attributesOf, bodyOf]
    rw [List.forall_mem_cons, ← List.forall_mem_append]
    split
    · simp only [List.forall_mem_map]
    · rfl

/-- What holds of the parts of each element among the parts. -/
def Part.Nested (holds : Part → Prop) : Part → Prop
  | .copy _ => True
  | .call value => ∀ part ∈ elementParts value, holds part.2

section

variable {holds : Part → Prop}

mutual

/-- The parts of the elements inside an element are among its own parts. -/
theorem element_nested (value : Element) (all : ∀ part ∈ elementParts value, holds part.2) :
    ∀ part ∈ elementParts value, part.2.Nested holds := by
  obtain ⟨-, inTag, inBody⟩ := (forall_elementParts value).mp all
  cases value with
  | selfClosing name attributes =>
    exact (forall_elementParts _).mpr
      ⟨all, attributes_nested attributes inTag, List.forall_mem_nil _⟩
  | pair name attributes body closeName =>
    exact (forall_elementParts _).mpr
      ⟨all, attributes_nested attributes inTag, body_nested body inBody⟩

theorem attributes_nested (attributes : List Attribute)
    (all : ∀ part ∈ attributesParts attributes, holds part.2) :
    ∀ part ∈ attributesParts attributes, part.2.Nested holds := by
  cases attributes with
  | nil => exact List.forall_mem_nil _
  | cons first attributes =>
    obtain ⟨inFirst, inOthers⟩ := List.forall_mem_append.mp all
    exact List.forall_mem_append.mpr
      ⟨attribute_nested first inFirst, attributes_nested attributes inOthers⟩

theorem attribute_nested (item : Attribute)
    (all : ∀ part ∈ attributeParts item, holds part.2) :
    ∀ part ∈ attributeParts item, part.2.Nested holds := by
  cases item with
  | flag | text | interrupted | comment => exact List.forall_mem_nil _
  | code name value => exact List.forall_mem_singleton.mpr trivial
  | element name value => exact element_nested value all
  | container value =>
    rw [attributeParts]
    split
    · exact List.forall_mem_singleton.mpr trivial
    · exact List.forall_mem_nil _

theorem body_nested (body : List Child) (all : ∀ part ∈ bodyParts body, holds part.2) :
    ∀ part ∈ bodyParts body, part.2.Nested holds := by
  cases body with
  | nil => exact List.forall_mem_nil _
  | cons first body =>
    obtain ⟨inFirst, inOthers⟩ := List.forall_mem_append.mp all
    exact List.forall_mem_append.mpr ⟨child_nested first inFirst, body_nested body inOthers⟩

theorem child_nested (item : Child) (all : ∀ part ∈ childParts item, holds part.2) :
    ∀ part ∈ childParts item, part.2.Nested holds := by
  cases item with
  | text => exact List.forall_mem_nil _
  | element value => exact element_nested value all
  | container value =>
    rw [childParts]
    split
    · exact List.forall_mem_singleton.mpr trivial
    · exact List.forall_mem_nil _

end

end

/-! ## Calls -/

section

variable {pragma name properties copy : Text} {args : List Text} {level : Nat}

/-- A call without children leaves its arguments as they are. -/
theorem Shows.call_nil (shown : Shows properties level copy) :
    Shows (call pragma name properties []) level copy :=
  shown.mono ⟨pragma ++ ['('] ++ name ++ [',', ' '], [')'], rfl⟩

/-- A call with children indents its arguments. -/
theorem Shows.call_cons {arg : Text} (shown : Shows arg level copy) (hasArgs : args ≠ [])
    (member : arg ∈ properties :: args) (ends : arg.getLast? ≠ some '\n') :
    Shows (call pragma name properties args) (level + 1) copy := by
  have isArg : Factory.indentLines arg ∈
      (name :: properties :: args).map Factory.indentLines :=
    List.mem_map_of_mem (List.mem_cons_of_mem _ member)
  rw [call, if_neg (by simpa using hasArgs)]
  refine (shown.indentLines ends).mono ((infix_join [',', '\n'] isArg).trans ?_)
  exact ⟨pragma ++ ['(', '\n'], ['\n', ')'], rfl⟩

end

theorem element_ends {pragma code : Text} {value : Element}
    (accepted : element pragma value = .ok code) : code.getLast? = some ')' := by
  obtain ⟨called, props, args, -, -, -, rfl⟩ := element_accepted accepted
  exact call_ends

/-- What is written for each of the parts stands in the code. -/
def ShowsParts (pragma code : Text) (parts : List (Nat × Part)) : Prop :=
  ∀ part ∈ parts, ∃ text, part.2.Makes pragma text ∧ Shows code part.1 text

theorem ShowsParts.copy {pragma code : Text} : ShowsParts pragma code [(0, .copy code)] :=
  List.forall_mem_singleton.mpr ⟨code, rfl, .refl code⟩

theorem ShowsParts.cons {pragma code : Text} {value : Element} {parts : List (Nat × Part)}
    (accepted : element pragma value = .ok code) (others : ShowsParts pragma code parts) :
    ShowsParts pragma code ((0, .call value) :: parts) :=
  List.forall_mem_cons.mpr ⟨⟨code, accepted, .refl code⟩, others⟩

/-- Each part stands in one of the arguments, which are indented if there are children. -/
theorem ShowsParts.call {pragma name properties : Text} {args : List Text}
    {parts : List (Nat × Part)}
    (inArgument : ∀ part ∈ parts, ∃ arg ∈ properties :: args, arg.getLast? ≠ some '\n' ∧
      ∃ text, part.2.Makes pragma text ∧ Shows arg part.1 text) :
    ShowsParts pragma (call pragma name properties args)
      (if args ≠ [] then parts.map fun (level, part) => (level + 1, part) else parts) := by
  split
  · next hasArgs =>
    intro part member
    obtain ⟨inner, among, rfl⟩ := List.mem_map.mp member
    obtain ⟨arg, isArg, ends, text, makes, shown⟩ := inArgument inner among
    exact ⟨text, makes, shown.call_cons hasArgs isArg ends⟩
  · next none =>
    rw [Decidable.not_not] at none
    subst none
    intro part member
    obtain ⟨arg, isArg, -, text, makes, shown⟩ := inArgument part member
    exact ⟨text, makes, (List.mem_singleton.mp isArg ▸ shown).call_nil⟩

mutual

/-- The call for an element has its parts in it. -/
theorem element_shows {pragma : Text} (value : Element) {code : Text}
    (accepted : element pragma value = .ok code) :
    ShowsParts pragma code (elementParts value) := by
  cases value with
  | selfClosing name attributes =>
    refine .cons accepted ?_
    obtain ⟨called, props, args, -, isProps, isArgs, rfl⟩ := element_accepted accepted
    cases children_nil isArgs
    intro part member
    obtain ⟨property, isProperty, text, makes, shown⟩ :=
      properties_show attributes isProps part member
    exact ⟨text, makes, (shown.mono (infix_writeProperties isProperty)).call_nil⟩
  | pair name attributes body closeName =>
    refine .cons accepted ?_
    obtain ⟨called, props, args, -, isProps, isArgs, rfl⟩ := element_accepted accepted
    have kept : (body.any isKept = true) = (args ≠ []) := any_isKept isArgs
    simp only [kept]
    refine ShowsParts.call fun part member => ?_
    rcases List.mem_append.mp member with member | member
    · obtain ⟨property, isProperty, text, makes, shown⟩ :=
        properties_show attributes isProps part member
      exact ⟨_, List.mem_cons_self, writeProperties_ends props, text, makes,
        shown.mono (infix_writeProperties isProperty)⟩
    · obtain ⟨arg, isArg, shown⟩ := children_show body isArgs part member
      exact ⟨arg, List.mem_cons_of_mem _ isArg, shown⟩

theorem properties_show {pragma : Text} (attributes : List Attribute) {props : List Property}
    (accepted : properties pragma attributes = .ok props) :
    ∀ part ∈ attributesParts attributes, ∃ property ∈ props,
      ∃ text, part.2.Makes pragma text ∧ Shows property.code part.1 text := by
  cases attributes with
  | nil => exact List.forall_mem_nil _
  | cons first attributes =>
    obtain ⟨made, others, isFirst, areOthers, rfl⟩ := properties_accepted accepted
    refine List.forall_mem_append.mpr ⟨fun part member => ?_, fun part member => ?_⟩
    · exact ⟨made, List.mem_cons_self, property_shows first isFirst part member⟩
    · obtain ⟨property, isProperty, shown⟩ := properties_show attributes areOthers part member
      exact ⟨property, List.mem_cons_of_mem _ isProperty, shown⟩

theorem property_shows {pragma : Text} (item : Attribute) {made : Property}
    (accepted : property pragma item = .ok made) :
    ShowsParts pragma made.code (attributeParts item) := by
  cases item with
  | flag | text | interrupted | comment => exact List.forall_mem_nil _
  | code name value =>
    cases property_accepted accepted
    exact .copy
  | element name value =>
    cases property_accepted accepted with
    | element isCode => exact element_shows value isCode
  | container value =>
    cases property_accepted accepted with
    | spread found =>
      rw [attributeParts, found]
      exact .copy

theorem children_show {pragma : Text} (body : List Child) {args : List Text}
    (accepted : children pragma body = .ok args) :
    ∀ part ∈ bodyParts body, ∃ arg ∈ args, arg.getLast? ≠ some '\n' ∧
      ∃ text, part.2.Makes pragma text ∧ Shows arg part.1 text := by
  cases body with
  | nil => exact List.forall_mem_nil _
  | cons first body =>
    obtain ⟨made, others, isFirst, areOthers, rfl⟩ := children_accepted accepted
    refine List.forall_mem_append.mpr ⟨fun part member => ?_, fun part member => ?_⟩
    · obtain ⟨arg, isArg, shown⟩ := child_shows first isFirst part member
      exact ⟨arg, List.mem_append_left _ isArg, shown⟩
    · obtain ⟨arg, isArg, shown⟩ := children_show body areOthers part member
      exact ⟨arg, List.mem_append_right _ isArg, shown⟩

theorem child_shows {pragma : Text} (item : Child) {args : List Text}
    (accepted : child pragma item = .ok args) :
    ∀ part ∈ childParts item, ∃ arg ∈ args, arg.getLast? ≠ some '\n' ∧
      ∃ text, part.2.Makes pragma text ∧ Shows arg part.1 text := by
  cases item with
  | text raw => exact List.forall_mem_nil _
  | element value =>
    cases child_accepted accepted with
    | @element _ code isCode =>
      intro part member
      refine ⟨code, List.mem_singleton.mpr rfl, ?_, element_shows value isCode part member⟩
      rw [element_ends isCode]
      decide
  | container value =>
    rw [childParts]
    cases child_accepted accepted with
    | blank isBlank =>
      rw [if_neg (by simp [isBlank])]
      exact List.forall_mem_nil _
    | code isCode =>
      rw [if_pos isCode]
      exact List.forall_mem_singleton.mpr
        ⟨_, List.mem_singleton.mpr rfl, trim_ends _, _, rfl, .refl _⟩

end

end ComponentMarkdown.Factory
