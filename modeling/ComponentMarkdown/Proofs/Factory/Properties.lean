import Mathlib.Data.List.Chain
import ComponentMarkdown.Proofs.Factory.Calls
import ComponentMarkdown.Proofs.Render.Reading

/-!
# What the properties of an element amount to

The properties are written as `null`, as an object literal, or as a call of `Object.assign` that
copies literals and spread objects into the first literal. The file has:

* `IsGrouping`, how properties are grouped, and `exists_code` for the code they are written as;
* `Scope`, the objects and values that there are, and `PropertiesCode.evaluate?`;
* `Refers`, where the objects of the groups are found, and `assignAll_eq`;
* `properties_override`: a later property takes the place of an earlier one of its name, and no
  object that was there before changes.
-/

namespace ComponentMarkdown.Factory

open Script

variable {fields : List (Text × Text)} {props : List Property} {groups : List PropertyGroup}

/-! ## Groups -/

/-- Two groups side by side of which one at least is a spread. -/
inductive Apart : PropertyGroup → PropertyGroup → Prop
  | behind {code : Text} {next : PropertyGroup} : Apart (.spread code) next
  | before {group : PropertyGroup} {code : Text} : Apart group (.spread code)

/-- The groups have the properties as their members, in their order. Plain properties that stand
side by side are in one group; only the group in front, which is a literal in any case, may be
empty. -/
structure IsGrouping (props : List Property) (groups : List PropertyGroup) : Prop where
  members : groups.flatMap PropertyGroup.properties = props
  maximal : groups.IsChain Apart
  fresh : groups = [] ∨ ∃ fields others, groups = .literal fields :: others
  filled : PropertyGroup.literal [] ∉ groups.tail

theorem filled_groupFrom (fields : List (Text × Text)) (props : List Property) :
    PropertyGroup.literal [] ∉ groupFrom fields props := by
  have filled (fields : List (Text × Text)) : PropertyGroup.literal [] ∉ literalGroup fields := by
    cases fields <;> simp [literalGroup]
  induction props generalizing fields with
  | nil => exact filled fields
  | cons property props ih =>
    cases property with
    | field key value => exact ih _
    | spread code =>
      rw [groupFrom, List.mem_append, List.mem_cons]
      have apart : PropertyGroup.literal [] ≠ .spread code := PropertyGroup.noConfusion
      exact not_or.mpr ⟨filled fields, not_or.mpr ⟨apart, ih []⟩⟩

theorem maximal_groupFrom (fields : List (Text × Text)) (props : List Property) :
    (groupFrom fields props).IsChain Apart := by
  induction props generalizing fields with
  | nil =>
    rw [groupFrom, literalGroup]
    split
    · exact .nil
    · exact .singleton _
  | cons property props ih =>
    cases property with
    | field key value => exact ih _
    | spread code =>
      have behind : (PropertyGroup.spread code :: groupFrom [] props).IsChain Apart :=
        List.isChain_cons.mpr ⟨fun _ _ => .behind, ih []⟩
      rw [groupFrom, literalGroup]
      split
      · exact behind
      · exact behind.cons_cons .before

theorem isGrouping_groupProperties (props : List Property) :
    IsGrouping props (groupProperties props) := by
  have maximal := maximal_groupFrom [] props
  have filled := filled_groupFrom [] props
  have members := properties_groupProperties props
  rw [groupProperties] at members ⊢
  generalize groupFrom [] props = groups at maximal filled members
  split at members
  · exact ⟨members, maximal.cons_cons .before, .inr ⟨[], _, rfl⟩, filled⟩
  · next notSpread =>
    refine ⟨members, maximal, ?_, fun member => filled (List.mem_of_mem_tail member)⟩
    cases groups with
    | nil => exact .inl rfl
    | cons group others =>
      cases group with
      | literal fields => exact .inr ⟨fields, others, rfl⟩
      | spread code => exact absurd rfl (notSpread code others)

/-! ## Code for properties -/

/-- The code for properties, as far as its evaluation depends on it. -/
inductive PropertiesCode where
  | null
  | literal (fields : List (Text × Text))
  | assign (groups : List PropertyGroup)

namespace PropertiesCode

def write : PropertiesCode → Text
  | null => "null".toList
  | literal fields => objectLiteral fields
  | assign groups =>
    "Object.assign(".toList ++ Text.join [',', ' '] (groups.map PropertyGroup.write) ++ [')']

/-- The code for properties: a call only if there is a spread. -/
inductive For (props : List Property) : PropertiesCode → Prop
  | null (none : props = []) : For props .null
  | literal {fields : List (Text × Text)} (notEmpty : fields ≠ [])
      (plain : props = fields.map fun (key, value) => .field key value) :
      For props (.literal fields)
  | assign {groups : List PropertyGroup} (spread : ∃ code, Property.spread code ∈ props)
      (grouping : IsGrouping props groups) (notEmpty : groups ≠ []) : For props (.assign groups)

end PropertiesCode

/-- The group behind a literal is a spread. -/
theorem IsGrouping.spread {next : PropertyGroup}
    (grouping : IsGrouping props (.literal fields :: next :: groups)) :
    ∃ code, Property.spread code ∈ props := by
  cases (List.isChain_cons_cons.mp grouping.maximal).1 with
  | @before _ code =>
    refine ⟨code, grouping.members ▸ ?_⟩
    exact List.mem_flatMap.mpr ⟨.spread code, by simp, List.mem_cons_self⟩

theorem exists_code (props : List Property) :
    ∃ code : PropertiesCode, writeProperties props = code.write ∧ code.For props := by
  have grouping := isGrouping_groupProperties props
  have none : props = [] → groupProperties props = [] := by rintro rfl; rfl
  rw [writeProperties]
  generalize groupProperties props = groups at grouping none
  split
  · exact ⟨.null, rfl, .null grouping.members.symm⟩
  · next fields =>
    have plain : props = fields.map fun (key, value) => .field key value := by
      rw [← grouping.members]
      exact List.append_nil _
    refine ⟨.literal fields, rfl, .literal ?_ plain⟩
    rintro rfl
    cases none plain
  · next notEmpty notLiteral =>
    refine ⟨.assign groups, rfl, .assign ?_ grouping notEmpty⟩
    obtain rfl | ⟨fields, others, rfl⟩ := grouping.fresh
    · exact absurd rfl notEmpty
    · cases others with
      | nil => exact absurd rfl (notLiteral fields)
      | cons next others => exact grouping.spread

/-! ## Objects -/

/-- The name that a key denotes: what is quoted, or the key itself. -/
def keyName (key : Text) : Text :=
  match key with
  | '"' :: rest => ((Quoted.read? rest).map Prod.fst).getD key
  | _ => key

theorem keyName_propertyKey (name : Text) : keyName (propertyKey name) = name := by
  rw [propertyKey]
  split
  · next isName =>
    unfold keyName
    split
    · cases isName
    · rfl
  · change ((Quoted.read? (name.flatMap Quoted.escapeChar ++ ['"'])).map Prod.fst).getD _ = name
    rw [Quoted.read_quote]
    rfl

/-- An object: the values of its own properties. What `__proto__` sets is no property and is left
out; there are no setters. -/
abbrev Instance (Value : Type) := Text → Option Value

/-- The name that sets the prototype of an object. -/
def prototypeName : Text :=
  "__proto__".toList

namespace Instance

variable {Value : Type}

def empty : Instance Value := fun _ => none

/-- Gives a property a value. -/
def define (object : Instance Value) (name : Text) (value : Value) : Instance Value := fun other =>
  if other = name ∧ name ≠ prototypeName then some value else object other

/-- Takes all properties of another object. -/
def assign (object source : Instance Value) : Instance Value := fun name =>
  if name = prototypeName then object name else (source name).or (object name)

end Instance

/-- What code is evaluated in: the objects that there are, the value of each piece of code, and its
object if the value is one. -/
structure Scope (Value : Type) where
  heap : List (Instance Value)
  value : Text → Value
  object? : Text → Option (Fin heap.length)

/-! ## Evaluation -/

section

variable {Value : Type} (scope : Scope Value)

/-- A reference to an object of a heap. What is no object has no properties. -/
def objectAt (heap : List (Instance Value)) (reference : Option Nat) : Instance Value :=
  (reference.bind (heap[·]?)).getD .empty

/-- The object that a literal makes. -/
def literalObject (fields : List (Text × Text)) : Instance Value :=
  fields.foldl (fun object (key, code) => object.define (keyName key) (scope.value code)) .empty

/-- Evaluates an argument. A literal makes an object each time, a spread refers to one. -/
def PropertyGroup.evaluate (heap : List (Instance Value)) :
    PropertyGroup → List (Instance Value) × Option Nat
  | literal fields => (heap ++ [literalObject scope fields], some heap.length)
  | spread code => (heap, (scope.object? code).map Fin.val)

/-- Evaluates arguments from left to right. -/
def evaluateAll (heap : List (Instance Value)) :
    List PropertyGroup → List (Instance Value) × List (Option Nat)
  | [] => (heap, [])
  | group :: groups =>
    let (heap, reference) := group.evaluate scope heap
    let (heap, references) := evaluateAll heap groups
    (heap, reference :: references)

/-- Copies the properties of each source into the target, one source after the other. -/
def assignAll (target : Nat) (heap : List (Instance Value)) (sources : List (Option Nat)) :
    List (Instance Value) :=
  sources.foldl (fun heap source => heap.modify target (·.assign (objectAt heap source))) heap

/-- The heap and the result. A call without a target fails. -/
def PropertiesCode.evaluate? : PropertiesCode → Option (List (Instance Value) × Option Nat)
  | null => some (scope.heap, none)
  | literal fields => some (PropertyGroup.evaluate scope scope.heap (.literal fields))
  | assign groups =>
    match evaluateAll scope scope.heap groups with
    | (heap, some target :: sources) => some (assignAll target heap sources, some target)
    | _ => none

/-- The value that a property leaves under a name that had the value `before`. -/
def Property.override (name : Text) (before : Option Value) : Property → Option Value
  | field key code => if keyName key = name then some (scope.value code) else before
  | spread code => (objectAt scope.heap ((scope.object? code).map Fin.val) name).or before

/-- The value under a name when each property takes the place of those in front of it. -/
def overridden (props : List Property) (name : Text) : Option Value :=
  props.foldl (Property.override scope name) none

end

variable {Value : Type} {scope : Scope Value} {heap : List (Instance Value)} {name : Text}

/-! ## Values -/

theorem foldl_override_or (before after : Option Value) :
    props.foldl (Property.override scope name) (after.or before) =
      (props.foldl (Property.override scope name) after).or before := by
  induction props generalizing after with
  | nil => rfl
  | cons property props ih =>
    have first : Property.override scope name (after.or before) property =
        (Property.override scope name after property).or before := by
      cases property with
      | field key code => by_cases same : keyName key = name <;> simp [Property.override, same]
      | spread code => exact Option.or_assoc.symm
    rw [List.foldl_cons, List.foldl_cons, first, ih]

theorem overridden_or (before : Option Value) :
    (overridden scope props name).or before =
      props.foldl (Property.override scope name) before := by
  rw [overridden, ← foldl_override_or, Option.none_or]

/-- The object that stands for a group. -/
def PropertyGroup.object (scope : Scope Value) : PropertyGroup → Instance Value
  | literal fields => literalObject scope fields
  | spread code => objectAt scope.heap ((scope.object? code).map Fin.val)

theorem literalObject_apply (named : name ≠ prototypeName) (fields : List (Text × Text)) :
    literalObject scope fields name =
      overridden scope (fields.map fun (key, value) => .field key value) name := by
  have further (object : Instance Value) :
      fields.foldl (fun object (key, code) => object.define (keyName key) (scope.value code))
          object name =
        (fields.map fun (key, value) => Property.field key value).foldl
          (Property.override scope name) (object name) := by
    induction fields generalizing object with
    | nil => rfl
    | cons field fields ih =>
      obtain ⟨key, code⟩ := field
      rw [List.foldl_cons, ih, List.map_cons, List.foldl_cons]
      congr 1
      by_cases same : keyName key = name
      · subst same
        simp [Instance.define, Property.override, named]
      · simp [Instance.define, Property.override, same, Ne.symm same]
  exact further .empty

theorem PropertyGroup.object_apply (named : name ≠ prototypeName) (group : PropertyGroup) :
    group.object scope name = overridden scope group.properties name := by
  cases group with
  | literal fields => exact literalObject_apply named fields
  | spread code => exact (Option.or_none).symm

/-- Copying the objects of the groups into one is overriding its properties by those of the
groups. -/
theorem foldl_assign_apply (named : name ≠ prototypeName) (groups : List PropertyGroup)
    (object : Instance Value) :
    groups.foldl (fun object group => object.assign (group.object scope)) object name =
      (groups.flatMap PropertyGroup.properties).foldl (Property.override scope name)
        (object name) := by
  induction groups generalizing object with
  | nil => rfl
  | cons group groups ih =>
    rw [List.foldl_cons, ih, List.flatMap_cons, List.foldl_append, Instance.assign, if_neg named,
      PropertyGroup.object_apply named, overridden_or]

/-! ## References -/

/-- The reference is to the object of a group: one of the scope, or one that was made when there
were `first` objects already. -/
structure Refers (scope : Scope Value) (first : Nat) (heap : List (Instance Value))
    (reference : Option Nat) (group : PropertyGroup) : Prop where
  object : objectAt heap reference = group.object scope
  inHeap : ∀ index ∈ reference, index < heap.length
  origin : ∀ index ∈ reference, index < scope.heap.length ∨ first ≤ index

theorem objectAt_append {reference : Option Nat}
    (inHeap : ∀ index ∈ reference, index < heap.length) (more : List (Instance Value)) :
    objectAt (heap ++ more) reference = objectAt heap reference := by
  cases reference with
  | none => rfl
  | some index =>
    rw [objectAt, objectAt, Option.bind_some, Option.bind_some,
      List.getElem?_append_left (inHeap index rfl)]

theorem Refers.later {first earlier : Nat} {reference : Option Nat} {group : PropertyGroup}
    (refers : Refers scope first heap reference group) (behind : earlier ≤ first)
    (more : List (Instance Value)) : Refers scope earlier (heap ++ more) reference group where
  object := (objectAt_append refers.inHeap more).trans refers.object
  inHeap index isReference := by
    rw [List.length_append]
    exact Nat.lt_add_right _ (refers.inHeap index isReference)
  origin index isReference := (refers.origin index isReference).imp_right behind.trans

theorem PropertyGroup.refers_evaluate (known : scope.heap <+: heap) (group : PropertyGroup) :
    ∃ made reference, group.evaluate scope heap = (heap ++ made, reference) ∧
      Refers scope heap.length (heap ++ made) reference group := by
  cases group with
  | literal fields =>
    refine ⟨[literalObject scope fields], some heap.length, rfl, ?_, ?_, ?_⟩
    · simp [objectAt, object]
    · simp
    · simp
  | spread code =>
    obtain ⟨others, rfl⟩ := known
    have inScope : ∀ index ∈ (scope.object? code).map Fin.val, index < scope.heap.length := by
      intro index isReference
      obtain ⟨place, -, rfl⟩ := Option.map_eq_some_iff.mp isReference
      exact place.isLt
    refine ⟨[], (scope.object? code).map Fin.val, by rw [evaluate, List.append_nil], ?_, ?_, ?_⟩
    · rw [List.append_nil]
      exact objectAt_append inScope others
    · intro index isReference
      rw [List.append_nil, List.length_append]
      exact Nat.lt_add_right _ (inScope index isReference)
    · exact fun index isReference => .inl (inScope index isReference)

theorem refers_evaluateAll (known : scope.heap <+: heap) (groups : List PropertyGroup) :
    ∃ made references, evaluateAll scope heap groups = (heap ++ made, references) ∧
      List.Forall₂ (Refers scope heap.length (heap ++ made)) references groups := by
  induction groups generalizing heap with
  | nil => exact ⟨[], [], by rw [evaluateAll, List.append_nil], .nil⟩
  | cons group groups ih =>
    obtain ⟨first, reference, isFirst, refers⟩ := group.refers_evaluate known
    obtain ⟨more, references, areOthers, others⟩ :=
      ih (known.trans (List.prefix_append heap first))
    refine ⟨first ++ more, reference :: references, ?_, ?_⟩
    · rw [evaluateAll, isFirst]
      dsimp only
      rw [areOthers, List.append_assoc]
    · rw [← List.append_assoc]
      have behind : heap.length ≤ (heap ++ first).length := by simp
      refine .cons (refers.later (Nat.le_refl _) more) (others.imp fun _ _ refers => ?_)
      have same := refers.later behind []
      rwa [List.append_nil] at same

/-- A reference to another object sees no change of the target. -/
theorem Refers.set {target first : Nat} {reference : Option Nat} {group : PropertyGroup}
    (refers : Refers scope first heap reference group) (below : target < first)
    (outside : scope.heap.length ≤ target) (object : Instance Value) :
    Refers scope first (heap.set target object) reference group where
  object := by
    rw [← refers.object]
    cases reference with
    | none => rfl
    | some index =>
      have other : target ≠ index := by
        rcases refers.origin index rfl with known | behind
        · exact (known.trans_le outside).ne'
        · exact (below.trans_le behind).ne
      rw [objectAt, objectAt, Option.bind_some, Option.bind_some, List.getElem?_set_ne other]
  inHeap index isReference := by
    rw [List.length_set]
    exact refers.inHeap index isReference
  origin := refers.origin

/-- Only the target changes: it takes the properties of the sources, none of which it is. -/
theorem assignAll_eq {target first : Nat} {sources : List (Option Nat)} {object : Instance Value}
    (isTarget : heap[target]? = some object) (below : target < first)
    (outside : scope.heap.length ≤ target)
    (refer : List.Forall₂ (Refers scope first heap) sources groups) :
    assignAll target heap sources =
      heap.set target (groups.foldl (fun object group => object.assign (group.object scope))
        object) := by
  induction groups generalizing heap sources object with
  | nil =>
    cases refer
    obtain ⟨inHeap, rfl⟩ := List.getElem?_eq_some_iff.mp isTarget
    exact (List.set_getElem_self inHeap).symm
  | cons group groups ih =>
    cases refer with
    | @cons source _ sources _ refers others =>
      let assigned := object.assign (group.object scope)
      have modified : heap.modify target (·.assign (objectAt heap source)) =
          heap.set target assigned := by
        rw [List.modify_eq_set, isTarget, refers.object]
        rfl
      have again : (heap.set target assigned)[target]? = some assigned :=
        List.getElem?_set_self (List.getElem?_eq_some_iff.mp isTarget).1
      have later := ih again (others.imp fun _ _ refers => refers.set below outside assigned)
      rw [List.set_set] at later
      rw [assignAll, List.foldl_cons, modified]
      exact later

/-! ## Properties -/

/-- Evaluation gives no object if there are no properties. Otherwise it gives a new one, whose
properties are the last ones of their names, and no other object has changed. -/
structure PropertiesCode.Overrides (scope : Scope Value) (props : List Property)
    (code : PropertiesCode) (heap : List (Instance Value)) (result : Option Nat) : Prop where
  evaluated : code.evaluate? scope = some (heap, result)
  kept : scope.heap <+: heap
  nothing : result = none ↔ props = []
  fresh : ∀ index ∈ result, scope.heap.length ≤ index
  values : ∀ index ∈ result, ∃ object, heap[index]? = some object ∧
    ∀ name ≠ prototypeName, object name = overridden scope props name

theorem PropertiesCode.For.overrides {code : PropertiesCode} (isCode : code.For props)
    (scope : Scope Value) : ∃ heap result, code.Overrides scope props heap result := by
  cases isCode with
  | null isEmpty => exact ⟨scope.heap, none, rfl, List.prefix_rfl, by simp [isEmpty], nofun, nofun⟩
  | @literal fields notEmpty plain =>
    refine ⟨scope.heap ++ [literalObject scope fields], some scope.heap.length, rfl,
      List.prefix_append _ _, by simp [plain, notEmpty], ?_, ?_⟩
    · rintro index ⟨⟩
      exact Nat.le_refl _
    · rintro index ⟨⟩
      refine ⟨literalObject scope fields, by simp, fun name named => ?_⟩
      rw [plain]
      exact literalObject_apply named fields
  | @assign groups spread grouping notEmpty =>
    obtain rfl | ⟨fields, others, rfl⟩ := grouping.fresh
    · exact absurd rfl notEmpty
    let first := literalObject scope fields
    let result := others.foldl (fun object group => object.assign (group.object scope)) first
    obtain ⟨made, references, isEvaluated, refer⟩ :=
      refers_evaluateAll (List.prefix_append scope.heap [first]) others
    have evaluated : evaluateAll scope scope.heap (.literal fields :: others) =
        (scope.heap ++ [first] ++ made, some scope.heap.length :: references) := by
      rw [evaluateAll, PropertyGroup.evaluate]
      dsimp only
      rw [isEvaluated]
    have assigned : assignAll scope.heap.length (scope.heap ++ [first] ++ made) references =
        scope.heap ++ result :: made := by
      have isTarget : (scope.heap ++ [first] ++ made)[scope.heap.length]? = some first := by simp
      rw [assignAll_eq isTarget (by simp) (Nat.le_refl _) refer]
      simp [result]
    refine ⟨scope.heap ++ result :: made, some scope.heap.length, ?_, List.prefix_append _ _, ?_,
      ?_, ?_⟩
    · rw [evaluate?, evaluated, ← assigned]
    · obtain ⟨code, member⟩ := spread
      exact iff_of_false nofun (List.ne_nil_of_mem member)
    · rintro index ⟨⟩
      exact Nat.le_refl _
    · rintro index ⟨⟩
      refine ⟨result, by simp, fun name named => ?_⟩
      have isFirst : first name = _ := literalObject_apply named fields
      have isResult : result name = _ := foldl_assign_apply named others first
      rw [isResult, isFirst, ← grouping.members, overridden, overridden, List.flatMap_cons,
        List.foldl_append]
      rfl

/-! ## Attributes -/

/-- The name of an attribute; a container has none. -/
def attributeName? : Attribute → Option Text
  | .flag name | .text name _ | .code name _ | .element name _ | .interrupted name => some name
  | .container _ | .comment => none

/-- The property stands for the attribute, under its name. -/
structure Denotes (pragma : Text) (part : Attribute) (made : Property) : Prop where
  stands : PropertyFor pragma part made
  named : ∀ key value, made = .field key value → attributeName? part = some (keyName key)

theorem PropertyFor.denotes {pragma : Text} {part : Attribute} {made : Property}
    (stands : PropertyFor pragma part made) : Denotes pragma part made := by
  refine ⟨stands, ?_⟩
  rintro key value rfl
  cases stands <;> rw [keyName_propertyKey] <;> rfl

theorem denotes_properties {pragma : Text} {attributes : List Attribute}
    (accepted : properties pragma attributes = .ok props) :
    List.Forall₂ (Denotes pragma) attributes props := by
  induction attributes generalizing props with
  | nil =>
    rw [properties_nil accepted]
    exact .nil
  | cons part attributes ih =>
    obtain ⟨first, others, isFirst, areOthers, rfl⟩ := properties_accepted accepted
    exact .cons (property_accepted isFirst).denotes (ih areOthers)

/-- The properties of an element are those of its attributes in their order. They are written as
`null`, as one literal, or as literals and spreads that are assigned to the first literal; in any
scope this makes a new object that has the last property of each name, and changes no other. -/
theorem properties_override {pragma : Text} {attributes : List Attribute}
    (accepted : properties pragma attributes = .ok props) :
    List.Forall₂ (Denotes pragma) attributes props ∧
      ∃ code : PropertiesCode, writeProperties props = code.write ∧ code.For props ∧
        ∀ (Value : Type) (scope : Scope Value),
          ∃ heap result, code.Overrides scope props heap result := by
  obtain ⟨code, isWritten, isCode⟩ := exists_code props
  exact ⟨denotes_properties accepted, code, isWritten, isCode,
    fun Value scope => isCode.overrides scope⟩

/-- Spreads in front, side by side and behind everything else. -/
theorem properties_override_spreads :
    let spread (name : Char) : Attribute :=
      .container ⟨['\x7b', '.', '.', '.', name, '\x7d'], .spread⟩
    let attributes := [spread 'a', .flag "b".toList, .text "data-c".toList "x".toList, spread 'd',
      spread 'e', .flag "b".toList, spread 'f']
    let props : List Property := [.spread ['a'], .field ['b'] "true".toList,
      .field "\"data-c\"".toList "\"x\"".toList, .spread ['d'], .spread ['e'],
      .field ['b'] "true".toList, .spread ['f']]
    properties "h".toList attributes = .ok props ∧
      List.Forall₂ (Denotes "h".toList) attributes props ∧
      ∃ code : PropertiesCode, writeProperties props = code.write ∧ code.For props ∧
        ∀ (Value : Type) (scope : Scope Value),
          ∃ heap result, code.Overrides scope props heap result := by
  intro spread attributes props
  have accepted : properties "h".toList attributes = .ok props := by
    rfl
  exact ⟨accepted, properties_override accepted⟩

example : writeProperties [.spread ['a'], .field ['b'] "true".toList, .spread ['c'], .spread ['d'],
    .field ['e'] "f".toList] =
    "Object.assign(\x7b\x7d, a, \x7b b: true \x7d, c, d, \x7b e: f \x7d)".toList := by
  decide

end ComponentMarkdown.Factory
