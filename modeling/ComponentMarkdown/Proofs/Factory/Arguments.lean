import ComponentMarkdown.Proofs.Factory.Comments

/-!
# Arguments of factory calls

Copied code stands in lists of arguments and in object literals. It fills one place there only if no
comma outside of its brackets cuts it: a sequence in braces (`{a, b}`) loses its parentheses and
becomes two arguments. The file has:

* `IsArgument`, an operand that no comma cuts;
* what calls and object literals list;
* `factory_lists`: the arguments and the properties of every call in the code for markup.
-/

namespace ComponentMarkdown.Factory

open Script

/-! ## One place of a list -/

/-- A text that fills one place of a list, with or without blanks around it. -/
structure IsPiece (s : Text) : Prop where
  closed : ∃ run before, Reader.read {} s = ⟨.code run before, []⟩
  whole : Reader.split {} s = [s]

/-- An operand that no comma cuts. -/
structure IsArgument (s : Text) : Prop extends IsPiece s where
  solid : Solid s

theorem OperatesFrom.closed {expected : Expected} {copies : List (Nat × Text)} {s : Text}
    (made : OperatesFrom expected copies s) :
    ∃ run before, Reader.read ⟨.code [] expected, []⟩ s = ⟨.code run before, []⟩ := by
  obtain ⟨run, before, woven⟩ := made
  exact ⟨run, before, (woven []).read⟩

theorem Composes.isArgument {copies : List (Nat × Text)} {s : Text} (made : Composes copies s)
    (whole : Reader.split {} s = [s]) : IsArgument s :=
  ⟨⟨made.operates.closed, whole⟩, made.solid⟩

theorem IsPath.not_mem {s : Text} (isPath : IsPath s) {c : Char} (notRun : ¬Spot.isRunChar c) :
    c ∉ s :=
  fun member => notRun (isPath.2 c member).1

theorem IsPath.isArgument {s : Text} (isPath : IsPath s) : IsArgument s :=
  isPath.composes.isArgument (Reader.split_of_not_mem (isPath.not_mem (by decide)) {})

/-- No comma in a string cuts it. -/
theorem isArgument_quote (s : Text) : IsArgument (Quoted.quote s) := by
  refine (composes_quote s).isArgument ?_
  obtain ⟨read, all⟩ := isStringPart_escaped s []
  have body := Reader.split_whole (all.imp (q := fun r c => r.atComma c = false) fun r c inString =>
    by cases spot : r.spot <;> simp_all [Spot.isString, Reader.atComma])
  have mark : Reader.split ⟨.string true false, []⟩ ['"'] = [['"']] := rfl
  exact Reader.split_cons_whole (by decide)
    (Reader.split_append_whole body (read.symm ▸ mark))

theorem IsWord.isArgument {s : Text} (isWord : IsWord s) : IsArgument s := by
  cases isWord with
  | path isPath => exact isPath.isArgument
  | quoted s => exact isArgument_quote s

/-- No comma in brackets cuts what they stand in. -/
theorem split_bracketed {front body : Text} {opening closing : Char} {expected : Expected}
    (isPiece : IsPiece front) (pair : IsPair opening closing expected)
    (closed : ∃ run before, Reader.read ⟨.code [] expected, []⟩ body = ⟨.code run before, []⟩) :
    Reader.split {} (front ++ (opening :: body ++ [closing])) =
      [front ++ (opening :: body ++ [closing])] := by
  obtain ⟨frontRun, frontBefore, read⟩ := isPiece.closed
  obtain ⟨run, before, readBody⟩ := closed
  obtain ⟨bracket, behind, steps⟩ := pair.exists_bracket frontRun frontBefore
  obtain ⟨opens, -⟩ := steps []
  have inside : Reader.split ⟨.code [] expected, [bracket]⟩ body = [body] :=
    @Reader.split_under ⟨.code [] expected, []⟩ body (by rw [readBody]; exact nofun) bracket []
  have close : (Reader.read ⟨.code [] expected, [bracket]⟩ body).split [closing] = [[closing]] :=
    Reader.split_of_not_mem (by cases pair <;> decide) _
  refine Reader.split_append_whole isPiece.whole ?_
  rw [read]
  refine Reader.split_cons_whole (by cases pair <;> decide) ?_
  rw [opens]
  exact Reader.split_append_whole inside close

theorem IsPath.isArgument_call {path operands : Text} {copies : List (Nat × Text)}
    (isPath : IsPath path) (made : Operates copies operands) :
    IsArgument (path ++ '(' :: operands ++ [')']) := by
  refine (isPath.composes_call made).isArgument ?_
  rw [List.append_assoc]
  exact split_bracketed isPath.isArgument.toIsPiece .round made.closed

theorem isArgument_objectLiteral {copies : List (Nat × Text)} {fields : List (Text × Text)}
    (made : Each HasField copies fields) : IsArgument (objectLiteral fields) := by
  refine (composes_objectLiteral made).isArgument ?_
  by_cases notEmpty : fields ≠ []
  · rw [objectLiteral_eq notEmpty]
    have nothing : IsPiece [] := ⟨⟨[], .operand, rfl⟩, rfl⟩
    exact split_bracketed nothing .curly (operatesFrom_fields made notEmpty .statement).closed
  · rw [Decidable.not_not] at notEmpty
    subst notEmpty
    rfl

theorem isArgument_writeProperties {copies : List (Nat × Text)} {properties : List Property}
    (made : Each HasProperty copies properties) : IsArgument (writeProperties properties) := by
  have grouped := each_groupProperties made
  have assigns := assigns_writeProperties properties
  generalize writeProperties properties = text at assigns
  generalize groupProperties properties = groups at assigns grouped
  cases assigns with
  | none => exact isWord_null.isArgument
  | @literal fields =>
    obtain _ | ⟨first, -⟩ := grouped
    cases first with
    | literal made => exact isArgument_objectLiteral made
  | groups notEmpty => exact isPath_assign.isArgument_call (operates_groups grouped notEmpty)

/-! ## Lists -/

theorem split_separator {blank : Char} (isBlank : blank = ' ' ∨ blank = '\n') (run : Text)
    (before : Expected) (rest : Text) :
    Reader.split ⟨.code run before, []⟩ (',' :: blank :: rest) =
      [] :: Reader.split {} (blank :: rest) := by
  have notComma : blank ≠ ',' := by rcases isBlank with rfl | rfl <;> decide
  have stays : Reader.step {} blank = .before [] := by rcases isBlank with rfl | rfl <;> rfl
  have isComma : (⟨.code run before, []⟩ : Reader).atComma ',' = true := rfl
  obtain ⟨run', before', separated, spaced⟩ :=
    @step_separator ',' blank run before [] (.inl rfl) isBlank
  rw [Reader.split, if_pos isComma, separated, Reader.split_cons _ notComma,
    Reader.split_cons _ notComma, spaced, stays]

/-- The pieces between separators are what is listed. -/
theorem items_join {separator : Text} (comma : separator = [',', ' '] ∨ separator = [',', '\n'])
    {pieces : List Text} (each : ∀ piece ∈ pieces, IsPiece piece) (notEmpty : pieces ≠ []) :
    Reader.items (Text.join separator pieces) = pieces.map Text.trim := by
  induction pieces with
  | nil => exact absurd rfl notEmpty
  | cons piece pieces ih =>
    obtain ⟨first, others⟩ := List.forall_mem_cons.mp each
    cases pieces with
    | nil => exact congrArg (List.map Text.trim) first.whole
    | cons other pieces =>
      have behind := ih others (List.cons_ne_nil _ _)
      obtain ⟨run, before, read⟩ := first.closed
      obtain ⟨blank, isBlank, rfl⟩ : ∃ blank, (blank = ' ' ∨ blank = '\n') ∧
          separator = [',', blank] := by
        rcases comma with rfl | rfl
        · exact ⟨' ', .inl rfl, rfl⟩
        · exact ⟨'\n', .inr rfl, rfl⟩
      -- the blank of the separator goes to the piece behind it, which is trimmed
      have spaced : Reader.items (blank :: Text.join [',', blank] (other :: pieces)) =
          (other :: pieces).map Text.trim := by
        have around := @Reader.items_between [blank] []
          (List.forall_mem_singleton.mpr isBlank)
          (List.forall_mem_nil _) (Text.join [',', blank] (other :: pieces))
        rw [List.append_nil] at around
        exact around.trans behind
      rw [Text.join_cons _ _ (List.cons_ne_nil _ _), List.append_assoc, Reader.items,
        Reader.split_append first.whole, read, List.cons_append, List.singleton_append,
        split_separator isBlank, List.modifyHead_cons, List.append_nil, List.map_cons,
        List.map_cons]
      exact congrArg (piece.trim :: ·) spaced

theorem map_trim {args : List Text} (each : ∀ arg ∈ args, IsArgument arg) :
    args.map Text.trim = args :=
  (List.map_congr_left fun arg member => trim_solid (each arg member).solid).trans
    (List.map_id' args)

/-- An indented argument fills one place, with its blanks around it. -/
theorem IsArgument.indentLines {arg : Text} (isArgument : IsArgument arg) :
    IsPiece (Factory.indentLines arg) ∧ (Factory.indentLines arg).trim = hang arg := by
  have solid := isArgument.solid
  rw [indentLines_eq solid.ne_nil (solid.ends_ne (by decide))]
  refine ⟨⟨?_, ?_⟩, ?_⟩
  · obtain ⟨run, before, read⟩ := isArgument.closed
    exact ⟨run, before, (Reader.read_hang {} arg).trans read⟩
  · refine Reader.split_cons_whole (by decide) (Reader.split_cons_whole (by decide) ?_)
    have hung := Reader.split_hang {} arg
    rw [isArgument.whole] at hung
    exact hung
  · have blank : ∀ c ∈ [' ', ' '], isBlank c := List.all_eq_true.mp (by decide)
    have around := @trim_between [' ', ' '] _ [] solid.hang blank (List.forall_mem_nil _)
    rwa [List.append_nil] at around

/-- A call lists the name, the properties and the children; if there are children, all hang. -/
theorem items_callBody {name properties : Text} {args : List Text}
    (each : ∀ arg ∈ name :: properties :: args, IsArgument arg) :
    Reader.items (callBody name properties args) =
      (name :: properties :: args).map (hangBy (if args = [] then 0 else 1)) := by
  rw [callBody]
  split
  · next none =>
    rw [List.isEmpty_iff] at none
    subst none
    rw [items_join (.inl rfl) (fun arg member => (each arg member).toIsPiece) (by simp),
      map_trim each, if_pos rfl]
    rfl
  · next some =>
    have blank : ∀ c ∈ ['\n'], c = ' ' ∨ c = '\n' := List.forall_mem_singleton.mpr (.inr rfl)
    have pieces : ∀ piece ∈ (name :: properties :: args).map Factory.indentLines,
        IsPiece piece := by
      intro piece member
      obtain ⟨arg, isArg, rfl⟩ := List.mem_map.mp member
      exact (each arg isArg).indentLines.1
    have around := Reader.items_between blank blank
      (Text.join [',', '\n'] ((name :: properties :: args).map Factory.indentLines))
    rw [items_join (.inr rfl) pieces (by simp), List.map_map] at around
    rw [if_neg (by simpa using some)]
    refine around.trans (List.map_congr_left fun arg isArg => ?_)
    exact (each arg isArg).indentLines.2

/-! ## Properties -/

/-- The key and the value, or the object that is spread, are arguments. -/
def Property.IsListed : Property → Prop
  | .field key value => IsArgument key ∧ IsArgument value
  | .spread code => IsArgument code

theorem isArgument_fieldText {key value : Text} (isKey : IsArgument key)
    (isValue : IsArgument value) : IsArgument (fieldText (key, value)) := by
  obtain ⟨first, begins, firstShown⟩ := isKey.solid.begins
  obtain ⟨last, ends, lastShown⟩ := isValue.solid.ends
  obtain ⟨keyRun, keyBefore, readKey⟩ := isKey.closed
  obtain ⟨run, before, readValue⟩ := isValue.closed
  have separated : (⟨.code keyRun keyBefore, []⟩ : Reader).read [':', ' '] = {} := by
    obtain ⟨run', before', goes, spaced⟩ :=
      @step_separator ':' ' ' keyRun keyBefore [] (.inr rfl) (.inl rfl)
    rw [Reader.read_cons, Reader.read_cons, goes, spaced]
    rfl
  have colon : Reader.split ⟨.code keyRun keyBefore, []⟩ [':', ' '] = [[':', ' ']] :=
    Reader.split_of_not_mem (by decide) _
  have wholeKey : Reader.split {} (key ++ [':', ' ']) = [key ++ [':', ' ']] :=
    Reader.split_append_whole isKey.whole (by rw [readKey]; exact colon)
  have readFront : Reader.read {} (key ++ [':', ' ']) = {} := by
    rw [Reader.read_append, readKey, separated]
  refine ⟨⟨⟨run, before, ?_⟩, ?_⟩, ⟨first, ?_, firstShown⟩, ⟨last, ?_, lastShown⟩⟩
  · rw [fieldText, Reader.read_append, readFront, readValue]
  · exact Reader.split_append_whole wholeKey (by rw [readFront]; exact isValue.whole)
  · rw [fieldText, List.append_assoc, List.head?_append, begins]
    rfl
  · rw [fieldText, List.getLast?_append, ends]
    rfl

/-- An object literal lists its fields. -/
theorem items_objectLiteral {fields : List (Text × Text)} (notEmpty : fields ≠ [])
    (listed : ∀ field ∈ fields, IsArgument field.1 ∧ IsArgument field.2) :
    ∃ body, objectLiteral fields = '\x7b' :: body ++ ['\x7d'] ∧
      Reader.items body = fields.map fieldText := by
  refine ⟨_, objectLiteral_eq notEmpty, ?_⟩
  have blank : ∀ c ∈ [' '], c = ' ' ∨ c = '\n' := List.forall_mem_singleton.mpr (.inl rfl)
  have written : ∀ text ∈ fields.map fieldText, IsArgument text := by
    intro text member
    obtain ⟨field, isField, rfl⟩ := List.mem_map.mp member
    exact isArgument_fieldText (listed field isField).1 (listed field isField).2
  have around := Reader.items_between blank blank (Text.join [',', ' '] (fields.map fieldText))
  rw [items_join (.inl rfl) (fun text member => (written text member).toIsPiece)
    (by simpa using notEmpty), map_trim written] at around
  exact around

/-- The text is an object literal that lists the fields, hanging from their levels. -/
inductive ListsFields (level : Nat) : List (Text × Text) → Text → Prop
  | none : ListsFields level [] ['\x7b', '\x7d']
  | some {fields : List (Text × Text)} {body : Text} (notEmpty : fields ≠ [])
      (listed : Reader.items body = fields.map fun field => hangBy level (fieldText field)) :
      ListsFields level fields ('\x7b' :: body ++ ['\x7d'])

/-- The text is what the groups of properties are written as: `null`, one literal, or a call of
`Object.assign` that lists the groups. -/
inductive ListsGroups (level : Nat) : List PropertyGroup → Text → Prop
  | none : ListsGroups level [] "null".toList
  | literal {fields : List (Text × Text)} {text : Text} (listed : ListsFields level fields text) :
      ListsGroups level [.literal fields] text
  | groups {groups : List PropertyGroup} {body : Text}
      (listed : Reader.items body = groups.map fun group => hangBy level group.write)
      (literals : ∀ fields, .literal fields ∈ groups →
        ListsFields level fields (hangBy level (objectLiteral fields))) :
      ListsGroups level groups ("Object.assign".toList ++ '(' :: body ++ [')'])

theorem listsFields_objectLiteral {fields : List (Text × Text)}
    (listed : ∀ field ∈ fields, IsArgument field.1 ∧ IsArgument field.2) (level : Nat) :
    ListsFields level fields (hangBy level (objectLiteral fields)) := by
  by_cases notEmpty : fields ≠ []
  · obtain ⟨body, written, items⟩ := items_objectLiteral notEmpty listed
    have framed := @hangBy_frame [] '\x7b' '\x7d' (by decide) (by decide) (by decide) level body
    rw [List.nil_append, List.nil_append] at framed
    rw [written, framed]
    refine .some notEmpty ?_
    rw [Reader.items_hangBy, items, List.map_map]
    rfl
  · rw [Decidable.not_not] at notEmpty
    subst notEmpty
    rw [hangBy_line (by decide)]
    exact .none

theorem listsGroups_writeProperties {copies : List (Nat × Text)} {properties : List Property}
    (made : Each HasProperty copies properties)
    (listed : ∀ property ∈ properties, property.IsListed) (level : Nat) :
    ListsGroups level (groupProperties properties) (hangBy level (writeProperties properties)) := by
  have inGroups : ∀ group ∈ groupProperties properties, ∀ property ∈ group.properties,
      property.IsListed := by
    intro group isGroup property member
    refine listed property ?_
    rw [← properties_groupProperties properties]
    exact List.mem_flatMap.mpr ⟨group, isGroup, member⟩
  have literals : ∀ fields, .literal fields ∈ groupProperties properties →
      ∀ field ∈ fields, IsArgument field.1 ∧ IsArgument field.2 :=
    fun fields isGroup field member => inGroups _ isGroup _ (List.mem_map_of_mem member)
  have grouped := each_groupProperties made
  have assigns := assigns_writeProperties properties
  generalize writeProperties properties = text at assigns
  generalize groupProperties properties = groups at assigns inGroups literals grouped
  cases assigns with
  | none =>
    rw [hangBy_line (by decide)]
    exact .none
  | @literal fields =>
    exact .literal (listsFields_objectLiteral (literals fields (List.mem_singleton.mpr rfl)) level)
  | groups notEmpty =>
    have written : ∀ text ∈ groups.map PropertyGroup.write, IsArgument text := by
      intro text member
      obtain ⟨group, isGroup, rfl⟩ := List.mem_map.mp member
      obtain ⟨own, has⟩ := grouped.exists_of_mem isGroup
      cases has with
      | literal made => exact isArgument_objectLiteral made
      | @spread code _ => exact inGroups _ isGroup (.spread code) (List.mem_singleton.mpr rfl)
    have items := items_join (.inl rfl) (fun text member => (written text member).toIsPiece)
      (by simpa using notEmpty)
    rw [map_trim written] at items
    rw [hangBy_frame (by decide) (by decide) (by decide)]
    refine .groups ?_ fun fields isGroup =>
      listsFields_objectLiteral (literals fields isGroup) level
    rw [Reader.items_hangBy, items, List.map_map]
    rfl

/-! ## Elements -/

/-- No comma outside of brackets cuts the copied code. -/
def Part.IsWhole : Part → Prop
  | .copy code => Reader.split {} code = [code]
  | .call _ => True

instance (part : Part) : Decidable part.IsWhole :=
  match part with
  | .copy code => inferInstanceAs (Decidable (Reader.split {} code = [code]))
  | .call _ => isTrue trivial

/-- Is the property a field of an object literal? -/
def Property.isField : Property → Bool
  | .field .. => true
  | .spread _ => false

/-- Is the attribute one with a name? -/
def isPlain : Attribute → Bool
  | .flag _ | .text .. | .code .. | .element .. => true
  | .container _ | .interrupted _ | .comment => false

theorem isArgument_copy {code : Text} (readable : ∀ part ∈ [(0, Part.copy code)], part.2.IsReadable)
    (whole : ∀ part ∈ [(0, Part.copy code)], part.2.IsWhole) : IsArgument code :=
  (composes_copy readable).isArgument (whole _ (List.mem_singleton.mpr rfl))

section

variable {pragma : Text} (isPragma : IsPath pragma)

include isPragma

/-- The code for an element is one argument, whatever it has in it. -/
theorem element_isArgument {value : Element} {code : Text}
    (accepted : element pragma value = .ok code)
    (readable : ∀ part ∈ elementParts value, part.2.IsReadable) : IsArgument code := by
  obtain ⟨named, inTag, inBody⟩ := (forall_elementParts value).mp readable
  obtain ⟨called, props, args, isCalled, isProps, isArgs, rfl⟩ := element_accepted accepted
  rw [call_eq]
  exact isPragma.isArgument_call (operates_callBody (isWord_calledName isCalled named).composes
    (composes_writeProperties (properties_compose isPragma _ isProps inTag))
    (children_compose isPragma _ isArgs inBody))

theorem property_listed {item : Attribute} {made : Property}
    (accepted : property pragma item = .ok made)
    (readable : ∀ part ∈ attributeParts item, part.2.IsReadable)
    (whole : ∀ part ∈ attributeParts item, part.2.IsWhole) :
    made.IsListed ∧ made.isField = isPlain item := by
  have isKey (name : Text) : IsArgument (propertyKey name) := (isWord_key name).isArgument
  cases property_accepted accepted with
  | flag => exact ⟨⟨isKey _, isWord_true.isArgument⟩, rfl⟩
  | text => exact ⟨⟨isKey _, isArgument_quote _⟩, rfl⟩
  | code => exact ⟨⟨isKey _, isArgument_copy readable whole⟩, rfl⟩
  | element isCode => exact ⟨⟨isKey _, element_isArgument isPragma isCode readable⟩, rfl⟩
  | spread found =>
    rw [attributeParts, found] at readable whole
    exact ⟨isArgument_copy readable whole, rfl⟩

/-- Each attribute becomes one property, a field if it has a name. -/
theorem properties_listed {attributes : List Attribute} {props : List Property}
    (accepted : properties pragma attributes = .ok props)
    (readable : ∀ part ∈ attributesParts attributes, part.2.IsReadable)
    (whole : ∀ part ∈ attributesParts attributes, part.2.IsWhole) :
    (∀ property ∈ props, property.IsListed) ∧
      props.map Property.isField = attributes.map isPlain := by
  induction attributes generalizing props with
  | nil =>
    cases properties_nil accepted
    exact ⟨List.forall_mem_nil _, rfl⟩
  | cons first attributes ih =>
    obtain ⟨made, others, isFirst, areOthers, rfl⟩ := properties_accepted accepted
    obtain ⟨inFirst, inOthers⟩ := List.forall_mem_append.mp readable
    obtain ⟨wholeFirst, wholeOthers⟩ := List.forall_mem_append.mp whole
    obtain ⟨listed, plain⟩ := property_listed isPragma isFirst inFirst wholeFirst
    obtain ⟨othersListed, othersPlain⟩ := ih areOthers inOthers wholeOthers
    exact ⟨List.forall_mem_cons.mpr ⟨listed, othersListed⟩, by simp [plain, othersPlain]⟩

theorem child_listed {item : Child} {args : List Text} (accepted : child pragma item = .ok args)
    (readable : ∀ part ∈ childParts item, part.2.IsReadable)
    (whole : ∀ part ∈ childParts item, part.2.IsWhole) : ∀ arg ∈ args, IsArgument arg := by
  cases child_accepted accepted with
  | text =>
    intro arg member
    obtain ⟨text, -, rfl⟩ := List.mem_map.mp member
    exact isArgument_quote text
  | element isCode =>
    exact List.forall_mem_singleton.mpr (element_isArgument isPragma isCode readable)
  | blank => exact List.forall_mem_nil _
  | code isCode =>
    rw [childParts, if_pos isCode] at readable whole
    exact List.forall_mem_singleton.mpr (isArgument_copy readable whole)

theorem children_listed {body : List Child} {args : List Text}
    (accepted : children pragma body = .ok args)
    (readable : ∀ part ∈ bodyParts body, part.2.IsReadable)
    (whole : ∀ part ∈ bodyParts body, part.2.IsWhole) : ∀ arg ∈ args, IsArgument arg := by
  induction body generalizing args with
  | nil =>
    cases children_nil accepted
    exact List.forall_mem_nil _
  | cons first body ih =>
    obtain ⟨made, others, isFirst, areOthers, rfl⟩ := children_accepted accepted
    obtain ⟨inFirst, inOthers⟩ := List.forall_mem_append.mp readable
    obtain ⟨wholeFirst, wholeOthers⟩ := List.forall_mem_append.mp whole
    exact List.forall_mem_append.mpr ⟨child_listed isPragma isFirst inFirst wholeFirst,
      ih areOthers inOthers wholeOthers⟩

end

/-- What stands between the parentheses of the call for an element lists the name, the properties
and the children of the element, and the argument for the properties lists each property. -/
inductive ListsArguments (pragma : Text) (level : Nat) (value : Element) (body : Text) : Prop
  | intro {called : Text} {props : List Property} {args : List Text} (depth : Nat)
      (isCalled : calledName (nameOf value) = .ok called)
      (areProps : properties pragma (attributesOf value) = .ok props)
      (areArgs : children pragma (bodyOf value) = .ok args)
      (indented : depth = level + if args = [] then 0 else 1)
      (listed : Reader.items body =
        (called :: writeProperties props :: args).map (hangBy depth))
      (grouped : ListsGroups depth (groupProperties props) (hangBy depth (writeProperties props)))
      (kept : (groupProperties props).flatMap PropertyGroup.properties = props)
      (plain : props.map Property.isField = (attributesOf value).map isPlain) :
      ListsArguments pragma level value body

/-- A call has two arguments and one more for each kept part of the body. -/
theorem ListsArguments.length {pragma body : Text} {level : Nat} {value : Element}
    (lists : ListsArguments pragma level value body) :
    (Reader.items body).length = 2 + (bodyOf value).countP isKept := by
  obtain ⟨depth, -, -, areArgs, -, listed, -, -, -⟩ := lists
  rw [listed, List.length_map, List.length_cons, List.length_cons, children_length areArgs]
  omega

theorem element_lists {pragma : Text} (isPragma : IsPath pragma) {value : Element} {code : Text}
    (accepted : element pragma value = .ok code)
    (readable : ∀ part ∈ elementParts value, part.2.IsReadable)
    (whole : ∀ part ∈ elementParts value, part.2.IsWhole) (level : Nat) :
    ∃ body, hangBy level code = pragma ++ '(' :: body ++ [')'] ∧
      ListsArguments pragma level value body := by
  obtain ⟨named, inTag, inBody⟩ := (forall_elementParts value).mp readable
  obtain ⟨-, wholeTag, wholeBody⟩ := (forall_elementParts value).mp whole
  obtain ⟨called, props, args, isCalled, areProps, areArgs, rfl⟩ := element_accepted accepted
  obtain ⟨listed, plain⟩ := properties_listed isPragma areProps inTag wholeTag
  have made := properties_compose isPragma _ areProps inTag
  have isName := (isWord_calledName isCalled named).isArgument
  have each : ∀ arg ∈ called :: writeProperties props :: args, IsArgument arg :=
    List.forall_mem_cons.mpr ⟨isName, List.forall_mem_cons.mpr
      ⟨isArgument_writeProperties made, children_listed isPragma areArgs inBody wholeBody⟩⟩
  have oneLine : '\n' ∉ pragma := isPragma.not_mem (by decide)
  refine ⟨_, by rw [call_eq, hangBy_frame oneLine (by decide) (by decide)], ?_⟩
  refine .intro _ isCalled areProps areArgs rfl ?_ (listsGroups_writeProperties made listed _)
    (properties_groupProperties props) plain
  rw [Reader.items_hangBy, items_callBody each, List.map_map]
  exact List.map_congr_left fun arg _ => hangBy_hangBy level _ arg

/-! ## Markup -/

end ComponentMarkdown.Factory
