import ComponentMarkdown.Factory
import ComponentMarkdown.Proofs.Render.Indent

/-!
# Calls for accepted elements

The file says once what the factory writes, for what is proved about the code later on:

* how properties are written, in groups that keep each property once and in its order;
* what stands between the parentheses of a call;
* the call for an element, the property for an attribute and the arguments for a part of a body,
  provided that they are accepted.
-/

namespace ComponentMarkdown.Factory

open Script

/-! ## Properties -/

/-- A field of an object literal as it is written. -/
def fieldText (field : Text × Text) : Text :=
  field.1 ++ [':', ' '] ++ field.2

theorem objectLiteral_eq {fields : List (Text × Text)} (notEmpty : fields ≠ []) :
    objectLiteral fields =
      '\x7b' :: (' ' :: Text.join [',', ' '] (fields.map fieldText) ++ [' ']) ++ ['\x7d'] := by
  rw [objectLiteral, if_neg (by simpa using notEmpty)]
  show ['\x7b', ' '] ++ Text.join [',', ' '] (fields.map fieldText) ++ [' ', '\x7d'] = _
  simp

/-- The properties that a group is made of. -/
def PropertyGroup.properties : PropertyGroup → List Property
  | .literal fields => fields.map fun (key, value) => .field key value
  | .spread code => [.spread code]

theorem properties_literalGroup (fields : List (Text × Text)) :
    (literalGroup fields).flatMap PropertyGroup.properties =
      fields.map fun (key, value) => .field key value := by
  cases fields with
  | nil => rfl
  | cons field fields => exact List.append_nil _

/-- Grouping keeps each property once, and all in their order. -/
theorem properties_groupFrom (fields : List (Text × Text)) (properties : List Property) :
    (groupFrom fields properties).flatMap PropertyGroup.properties =
      fields.map (fun (key, value) => .field key value) ++ properties := by
  induction properties generalizing fields with
  | nil => rw [groupFrom, properties_literalGroup, List.append_nil]
  | cons property properties ih =>
    cases property with
    | field key value =>
      rw [groupFrom, ih, List.map_append, List.append_assoc]
      rfl
    | spread code =>
      rw [groupFrom, List.flatMap_append, List.flatMap_cons, ih, properties_literalGroup]
      rfl

theorem properties_groupProperties (properties : List Property) :
    (groupProperties properties).flatMap PropertyGroup.properties = properties := by
  have grouped := properties_groupFrom [] properties
  rw [groupProperties]
  split
  · next same =>
    rw [same] at grouped
    exact grouped
  · exact grouped

/-- The argument for the groups: nothing, one literal or a call with the groups as its arguments. -/
inductive Assigns : List PropertyGroup → Text → Prop
  | none : Assigns [] "null".toList
  | literal {fields : List (Text × Text)} : Assigns [.literal fields] (objectLiteral fields)
  | groups {groups : List PropertyGroup} (notEmpty : groups ≠ []) :
      Assigns groups ("Object.assign".toList ++
        '(' :: Text.join [',', ' '] (groups.map PropertyGroup.write) ++ [')'])

theorem assigns_writeProperties (properties : List Property) :
    Assigns (groupProperties properties) (writeProperties properties) := by
  rw [writeProperties]
  generalize groupProperties properties = groups
  split
  · exact .none
  · exact .literal
  · next notEmpty _ => exact .groups notEmpty

/-! ## Calls -/

/-- What stands between the parentheses of a call. -/
def callBody (name properties : Text) (args : List Text) : Text :=
  if args.isEmpty then Text.join [',', ' '] [name, properties]
  else '\n' :: Text.join [',', '\n'] ((name :: properties :: args).map indentLines) ++ ['\n']

theorem call_eq (pragma name properties : Text) (args : List Text) :
    call pragma name properties args =
      pragma ++ '(' :: callBody name properties args ++ [')'] := by
  rw [call, callBody]
  split <;> simp [Text.join]

theorem call_ends {pragma name properties : Text} {args : List Text} :
    (call pragma name properties args).getLast? = some ')' := by
  rw [call_eq, List.getLast?_concat]

/-! ## What is accepted -/

theorem exists_of_bind_eq_ok {α β : Type} {x : Except Refusal α} {f : α → Except Refusal β}
    {result : β} (accepted : (x >>= f) = .ok result) :
    ∃ value, x = .ok value ∧ f value = .ok result := by
  cases x with
  | error reason => cases accepted
  | ok value => exact ⟨value, rfl, accepted⟩

/-- The name of an element as its open tag has it. -/
def nameOf : Element → Text
  | .selfClosing name _ | .pair name _ _ _ => name

def attributesOf : Element → List Attribute
  | .selfClosing _ attributes | .pair _ attributes _ _ => attributes

/-- The body of an element; there is none without a close tag. -/
def bodyOf : Element → List Child
  | .selfClosing .. => []
  | .pair _ _ body _ => body

section

variable {pragma code : Text}

theorem element_accepted {value : Element} (accepted : element pragma value = .ok code) :
    ∃ called props args, calledName (nameOf value) = .ok called ∧
      properties pragma (attributesOf value) = .ok props ∧
      children pragma (bodyOf value) = .ok args ∧
      code = call pragma called (writeProperties props) args := by
  cases value with
  | selfClosing name attributes =>
    rw [element] at accepted
    obtain ⟨called, isCalled, accepted⟩ := exists_of_bind_eq_ok accepted
    obtain ⟨props, isProps, accepted⟩ := exists_of_bind_eq_ok accepted
    cases accepted
    exact ⟨called, props, [], isCalled, isProps, by rw [bodyOf, children]; rfl, rfl⟩
  | pair name attributes body closeName =>
    rw [element] at accepted
    obtain ⟨called, isCalled, accepted⟩ := exists_of_bind_eq_ok accepted
    dsimp only at accepted
    split at accepted
    · cases accepted
    obtain ⟨props, isProps, accepted⟩ := exists_of_bind_eq_ok accepted
    obtain ⟨args, isArgs, accepted⟩ := exists_of_bind_eq_ok accepted
    cases accepted
    exact ⟨called, props, args, isCalled, isProps, isArgs, rfl⟩

/-- The property that an attribute stands for. -/
inductive PropertyFor (pragma : Text) : Attribute → Property → Prop
  | flag {name : Text} :
      PropertyFor pragma (.flag name) (.field (propertyKey name) "true".toList)
  | text {name value : Text} : PropertyFor pragma (.text name value)
      (.field (propertyKey name) (Quoted.quote (attributeText value)))
  | code {name : Text} {value : Container} : PropertyFor pragma (.code name value)
      (.field (propertyKey name) (containerBody value))
  | element {name code : Text} {value : Element} (isCode : element pragma value = .ok code) :
      PropertyFor pragma (.element name value) (.field (propertyKey name) code)
  | spread {code : Text} {value : Container}
      (found : Text.dropPrefix? "...".toList (containerBody value) = some code) :
      PropertyFor pragma (.container value) (.spread code.trim)

theorem property_accepted {item : Attribute} {made : Property}
    (accepted : property pragma item = .ok made) : PropertyFor pragma item made := by
  cases item with
  | flag name =>
    rw [property] at accepted
    cases accepted
    exact .flag
  | text name value =>
    rw [property] at accepted
    cases accepted
    exact .text
  | code name value =>
    rw [property] at accepted
    obtain ⟨body, isBody, accepted⟩ := exists_of_bind_eq_ok accepted
    cases accepted
    rw [codeValue] at isBody
    split at isBody
    · cases isBody
    · cases isBody
      exact .code
  | element name value =>
    rw [property] at accepted
    obtain ⟨code, isCode, accepted⟩ := exists_of_bind_eq_ok accepted
    cases accepted
    exact .element isCode
  | container value =>
    rw [property, spreadProperty] at accepted
    split at accepted
    · next found =>
      cases accepted
      exact .spread found
    · cases accepted
  | interrupted name =>
    rw [property] at accepted
    cases accepted
  | comment =>
    rw [property] at accepted
    cases accepted

/-- The arguments that a part of a body stands for. -/
inductive ArgumentsFor (pragma : Text) : Child → List Text → Prop
  | text {raw : Text} : ArgumentsFor pragma (.text raw) ((visibleText raw).toList.map Quoted.quote)
  | element {value : Element} {code : Text} (isCode : element pragma value = .ok code) :
      ArgumentsFor pragma (.element value) [code]
  | blank {value : Container} (isBlank : value.content = .blank) :
      ArgumentsFor pragma (.container value) []
  | code {value : Container} (isCode : value.content = .code) :
      ArgumentsFor pragma (.container value) [containerBody value]

theorem child_accepted {item : Child} {args : List Text} (accepted : child pragma item = .ok args) :
    ArgumentsFor pragma item args := by
  cases item with
  | text raw =>
    rw [child] at accepted
    cases accepted
    exact .text
  | element value =>
    rw [child] at accepted
    obtain ⟨code, isCode, accepted⟩ := exists_of_bind_eq_ok accepted
    cases accepted
    exact .element isCode
  | container value =>
    rw [child, containerChild] at accepted
    split at accepted
    · next isBlank =>
      cases accepted
      exact .blank isBlank
    · cases accepted
    · next isCode =>
      cases accepted
      exact .code isCode

theorem properties_accepted {part : Attribute} {attributes : List Attribute}
    {props : List Property} (accepted : properties pragma (part :: attributes) = .ok props) :
    ∃ first others, property pragma part = .ok first ∧
      properties pragma attributes = .ok others ∧ props = first :: others := by
  rw [properties] at accepted
  obtain ⟨first, isFirst, accepted⟩ := exists_of_bind_eq_ok accepted
  obtain ⟨others, areOthers, accepted⟩ := exists_of_bind_eq_ok accepted
  cases accepted
  exact ⟨first, others, isFirst, areOthers, rfl⟩

theorem properties_nil {props : List Property} (accepted : properties pragma [] = .ok props) :
    props = [] := by
  rw [properties] at accepted
  cases accepted
  rfl

theorem children_nil {args : List Text} (accepted : children pragma [] = .ok args) : args = [] := by
  rw [children] at accepted
  cases accepted
  rfl

theorem children_accepted {part : Child} {body : List Child} {args : List Text}
    (accepted : children pragma (part :: body) = .ok args) :
    ∃ first others, child pragma part = .ok first ∧ children pragma body = .ok others ∧
      args = first ++ others := by
  rw [children] at accepted
  obtain ⟨first, isFirst, accepted⟩ := exists_of_bind_eq_ok accepted
  obtain ⟨others, areOthers, accepted⟩ := exists_of_bind_eq_ok accepted
  cases accepted
  exact ⟨first, others, isFirst, areOthers, rfl⟩

end

/-- Is the part of a body an argument of the call? -/
def isKept : Child → Bool
  | .text raw => (visibleText raw).isSome
  | .element _ => true
  | .container container => container.content = .code

theorem child_length {pragma : Text} {part : Child} {args : List Text}
    (accepted : child pragma part = .ok args) : args.length = if isKept part then 1 else 0 := by
  cases child_accepted accepted with
  | @text raw => cases found : visibleText raw <;> simp [isKept, found]
  | element => rfl
  | blank isBlank => simp [isKept, isBlank]
  | code isCode => simp [isKept, isCode]

/-- A call has one argument for each part of the body that is kept. -/
theorem children_length {pragma : Text} {body : List Child} {args : List Text}
    (accepted : children pragma body = .ok args) : args.length = body.countP isKept := by
  induction body generalizing args with
  | nil =>
    cases children_nil accepted
    rfl
  | cons part body ih =>
    obtain ⟨first, others, isFirst, areOthers, rfl⟩ := children_accepted accepted
    rw [List.length_append, child_length isFirst, ih areOthers, List.countP_cons, Nat.add_comm]

theorem any_isKept {pragma : Text} {body : List Child} {args : List Text}
    (accepted : children pragma body = .ok args) : (body.any isKept = true) = (args ≠ []) := by
  rw [← List.length_pos_iff, children_length accepted, List.countP_pos_iff, List.any_eq_true]

end ComponentMarkdown.Factory
