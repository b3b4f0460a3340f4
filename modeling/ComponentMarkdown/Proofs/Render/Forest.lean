import ComponentMarkdown.Proofs.Render.Column
import ComponentMarkdown.Proofs.Render.Reading
import ComponentMarkdown.Proofs.Text.Order

/-!
# What rendered code denotes

The tokens of a document make a forest of elements and text, and the code rendered from them denotes
that forest. The file has:

* `forest`, which reads tokens with a stack of those that are open;
* `Continues`: code that goes on in a list of expressions with certain nodes;
* `reflects_of_balanced`: balanced tokens read as nodes, and write what denotes these;
* `denotes_compile`, the result.
-/

namespace ComponentMarkdown

/-! ## Forests -/

mutual

/-- The names of the elements of a node. -/
def Node.names : Node → List Text
  | .text _ => []
  | .element name _ children => name :: Node.allNames children

/-- The names of the elements of several nodes. -/
def Node.allNames : List Node → List Text
  | [] => []
  | node :: nodes => node.names ++ Node.allNames nodes

end

/-- The fields of an element with certain attributes. -/
def Attributes.fields (attrs : Attributes) : List (Text × Text) :=
  attrs.map fun (name, value) => (attrKey name, value.content)

namespace Token

/-- The element of a token around nodes; a hidden token leaves them as they are. -/
def around (t : Token) (attrs : Attributes) (body : List Node) : List Node :=
  if t.hidden then body else [.element t.tag attrs.fields body]

/-- The attributes of a fence, with a class for its language. -/
def fenceAttributes (options : Options) (t : Token) : Attributes :=
  let info := Render.fenceInfo t.info
  if info.isEmpty then t.attrs
  else Render.addClass (options.langPrefix ++ Render.fenceLanguage info) t.attrs

/-- The nodes of a token that is complete on its own. -/
def nodes (options : Options) (t : Token) : List Node :=
  match t.kind with
  | .text => [.text t.content]
  | .softbreak => if options.breaks then [.element "br".toList [] []] else []
  | .hardbreak => [.element "br".toList [] []]
  | .codeInline | .codeBlock => [.element t.tag t.attrs.fields [.text t.content]]
  | .fence => [.element t.tag (t.fenceAttributes options).fields [.text t.content]]
  | .image => t.around (Attributes.set "alt".toList (.text (Render.asText t.children)) t.attrs) []
  | _ => t.around t.attrs []

end Token

/-- The nodes so far inside the innermost token that is open, and the open tokens with the nodes in
front of each. -/
structure NodeStack where
  opened : List (Token × List Node) := []
  nodes : List Node := []

/-- Reads a token. A closing one makes the nodes since the opening one its children. -/
def NodeStack.read (options : Options) (stack : NodeStack) (t : Token) : NodeStack :=
  match t.nesting with
  | .opening => { opened := (t, stack.nodes) :: stack.opened, nodes := [] }
  | .selfClosing => { stack with nodes := stack.nodes ++ t.nodes options }
  | .closing =>
    match stack.opened with
    | [] => stack
    | (opening, before) :: opened =>
      { opened, nodes := before ++ opening.around opening.attrs stack.nodes }

/-- The forest of the tokens of a document. -/
def forest (options : Options) (tokens : List Token) : List Node :=
  ((flatten tokens).foldl (NodeStack.read options) {}).nodes

theorem Node.allNames_append (nodes more : List Node) :
    Node.allNames (nodes ++ more) = Node.allNames nodes ++ Node.allNames more := by
  induction nodes with
  | nil => rfl
  | cons node nodes ih =>
    rw [List.cons_append, Node.allNames, Node.allNames, ih, List.append_assoc]

/-! ## Reading what is written -/

/-- Names are written as they are. -/
theorem camelCase_of_isName {name : Text} (named : IsName name) : camelCase name = name := by
  obtain ⟨-, letters⟩ := named
  induction name with
  | nil => rfl
  | cons c name ih =>
    obtain ⟨first, others⟩ := List.forall_mem_cons.mp letters
    rw [camelCase, ih others]
    rintro c rest rfl
    cases first

theorem skipBlank_cons {c : Char} (notBlank : isAsciiBlank c = false) (s : Text) :
    skipBlank (c :: s) = c :: s :=
  List.dropWhile_cons_of_neg (by simp [notBlank])

theorem skipBlank_spaces (count : Nat) (s : Text) :
    skipBlank (Text.spaces count ++ s) = skipBlank s := by
  induction count with
  | zero => rfl
  | succ count ih => exact ih

theorem Render.indentBy_line (count : Nat) {code : Text} (oneLine : '\n' ∉ code) :
    Render.indentBy count code = Text.spaces count ++ code := by
  rw [Render.indentBy_eq, Render.flatMap_indentChar oneLine]

theorem quote_append (content rest : Text) :
    Quoted.quote content ++ rest = '"' :: (content.flatMap Quoted.escapeChar ++ '"' :: rest) := by
  simp [Quoted.quote]

theorem readField_quote (name value rest : Text) :
    readField? (Quoted.quote name ++ [':', ' '] ++ Quoted.quote value ++ rest) =
      some ((name, value), rest) := by
  have colon : ∀ s, skipBlank (':' :: s) = ':' :: s := skipBlank_cons (by decide)
  have quote : ∀ s, skipBlank ('"' :: s) = '"' :: s := skipBlank_cons (by decide)
  have space : ∀ s, skipBlank (' ' :: s) = skipBlank s := fun s => rfl
  simp only [List.append_assoc, quote_append, readField?, quote, Quoted.read_quote,
    List.cons_append, List.nil_append, colon, space, Option.bind_eq_bind, Option.bind_some]
  rfl

theorem ReadsFields.behind_space {s rest : Text} {fields : List (Text × Text)}
    (reads : ReadsFields s fields rest) : ReadsFields (' ' :: s) fields rest := by
  cases reads with
  | last found closes => exact .last found closes
  | more found goesOn others => exact .more found goesOn others

theorem readsFields_join {attrs : Attributes} (notEmpty : attrs ≠ [])
    (textual : ∀ attr ∈ attrs, ∃ value, attr.2 = .text value) (rest : Text) :
    ReadsFields (Text.join [',', ' '] (attrs.map fun attr =>
      Quoted.quote (attrKey attr.1) ++ [':', ' '] ++ attr.2.render) ++ '}' :: rest)
      attrs.fields rest := by
  induction attrs with
  | nil => exact absurd rfl notEmpty
  | cons attr attrs ih =>
    obtain ⟨⟨value, isText⟩, others⟩ := List.forall_mem_cons.mp textual
    obtain ⟨name, rendered⟩ := attr
    dsimp only at isText
    subst isText
    cases attrs with
    | nil => exact .last (readField_quote _ _ _) (skipBlank_cons (by decide) _)
    | cons other attrs =>
      rw [List.map_cons, Text.join_cons _ _ (by simp), List.append_assoc, List.append_assoc]
      refine .more (readField_quote _ _ _) (skipBlank_cons (by decide) _) ?_
      exact (ih (List.cons_ne_nil _ _) others).behind_space

theorem readsObject_literal {attrs : Attributes}
    (textual : ∀ attr ∈ attrs, ∃ value, attr.2 = .text value) (rest : Text) :
    ReadsObject (attrs.objectLiteral ++ rest) attrs.fields rest := by
  cases attrs with
  | nil => exact .empty (skipBlank_cons (by decide) rest)
  | cons attr attrs =>
    have fields := readsFields_join (List.cons_ne_nil attr attrs) textual rest
    have spelled : Attributes.objectLiteral (attr :: attrs) ++ rest =
        '{' :: (Text.join [',', ' '] ((attr :: attrs).map fun attr =>
          Quoted.quote (attrKey attr.1) ++ [':', ' '] ++ attr.2.render) ++ '}' :: rest) := by
      simp [Attributes.objectLiteral]
    rw [spelled]
    exact .fields fields

/-- The code denotes the nodes, whatever stands behind it. -/
def Denotes (code : Text) (nodes : List Node) : Prop :=
  ∀ rest, Reads .expression (skipBlank (code ++ rest)) nodes rest

theorem denotes_quote (count : Nat) (content : Text) :
    Denotes (Text.spaces count ++ Quoted.quote content) [.text content] := by
  intro rest
  rw [List.append_assoc, skipBlank_spaces, quote_append, skipBlank_cons (by decide)]
  exact .string (Quoted.read_quote content rest)

/-- The call of a name with attributes and the written forms of its children. -/
def callText (name : Text) (attrs : Attributes) (behind : Text) : Text :=
  name ++ '(' :: (attrs.objectLiteral ++ behind)

theorem reads_callText {name behind rest : Text} {attrs : Attributes} {children : List Node}
    (named : IsName name) (textual : ∀ attr ∈ attrs, ∃ value, attr.2 = .text value)
    (arguments : Reads .arguments behind children rest) (count : Nat) :
    Reads .expression (skipBlank (Text.spaces count ++ callText name attrs behind))
      [.element name attrs.fields children] rest := by
  have begins : skipBlank (callText name attrs behind) = callText name attrs behind := by
    obtain ⟨notEmpty, letters⟩ := named
    cases name with
    | nil => exact absurd rfl notEmpty
    | cons c name => exact skipBlank_cons (not_isAsciiBlank (letters c List.mem_cons_self)) _
  rw [skipBlank_spaces, begins]
  exact .call named (readsObject_literal textual behind) arguments

/-- A call without children. -/
theorem denotes_call {name : Text} {attrs : Attributes} (named : IsName name)
    (textual : ∀ attr ∈ attrs, ∃ value, attr.2 = .text value) (count : Nat) :
    Denotes (Text.spaces count ++ callText name attrs [')']) [.element name attrs.fields []] := by
  intro rest
  have arguments : Reads .arguments (')' :: rest) [] rest :=
    .close (skipBlank_cons (by decide) rest)
  simpa [callText] using reads_callText named textual arguments count

/-- A call with text as its child. -/
theorem denotes_call_text {name : Text} {attrs : Attributes} (named : IsName name)
    (textual : ∀ attr ∈ attrs, ∃ value, attr.2 = .text value) (content : Text) (count : Nat) :
    Denotes (Text.spaces count ++ callText name attrs ([',', ' '] ++ Quoted.quote content ++ [')']))
      [.element name attrs.fields [.text content]] := by
  intro rest
  have arguments : Reads .arguments (',' :: ' ' :: (Quoted.quote content ++ ')' :: rest))
      ([.text content] ++ []) rest := by
    have closes : Reads .arguments (')' :: rest) [] rest :=
      .close (skipBlank_cons (by decide) rest)
    refine .more (by decide) (skipBlank_cons (by decide) _) ?_ closes
    exact denotes_quote 1 content (')' :: rest)
  simpa [callText] using reads_callText named textual arguments count

/-! ## Code that goes on -/

/-- Results with what separates them in front of each. -/
def prefixed (results : List Text) : Text :=
  results.flatMap ([',', '\n'] ++ ·)

/-- Where a list of expressions goes on, the results add nodes in front. -/
def Continues (results : List Text) (nodes : List Node) : Prop :=
  ∀ part behind more rest, part ≠ .expression → Reads part behind more rest →
    Reads part (prefixed results ++ behind) (nodes ++ more) rest

theorem Continues.nil : Continues [] [] :=
  fun _ _ _ _ _ reads => reads

theorem Continues.append {results others : List Text} {nodes more : List Node}
    (first : Continues results nodes) (second : Continues others more) :
    Continues (results ++ others) (nodes ++ more) := by
  intro part behind after rest isList reads
  rw [prefixed, List.flatMap_append, List.append_assoc, List.append_assoc]
  exact first part _ _ rest isList (second part behind after rest isList reads)

theorem Continues.singleton {code : Text} {nodes : List Node} (denotes : Denotes code nodes) :
    Continues [code] nodes := by
  intro part behind more rest isList reads
  have spelled : prefixed [code] ++ behind = ',' :: '\n' :: (code ++ behind) := by
    simp [prefixed]
  rw [spelled]
  exact .more isList (skipBlank_cons (by decide) _) (denotes behind) reads

/-- Results around those of the children. -/
theorem Continues.enclosed {name : Text} {attrs : Attributes} (named : IsName name)
    (textual : ∀ attr ∈ attrs, ∃ value, attr.2 = .text value) {results : List Text}
    {children : List Node} (inside : Continues results children) (count behind : Nat) :
    Continues
      ((Text.spaces count ++ callText name attrs []) :: results ++ [Text.spaces behind ++ [')']])
      [.element name attrs.fields children] := by
  intro part after more rest isList reads
  -- The parenthesis comes as a result of its own, so there is a comma in front of it.
  have closes :
      Reads .arguments ([',', '\n'] ++ (Text.spaces behind ++ ')' :: after)) [] after := by
    refine .trailing (skipBlank_cons (by decide) _) ?_
    show skipBlank (Text.spaces behind ++ _) = _
    rw [skipBlank_spaces, skipBlank_cons (by decide)]
  have arguments := inside .arguments _ [] after (by decide) closes
  rw [List.append_nil] at arguments
  have call := reads_callText named textual arguments count
  have spelled : prefixed ((Text.spaces count ++ callText name attrs []) :: results ++
      [Text.spaces behind ++ [')']]) ++ after =
      ',' :: '\n' :: (Text.spaces count ++ callText name attrs
        (prefixed results ++ ([',', '\n'] ++ (Text.spaces behind ++ ')' :: after)))) := by
    simp [prefixed, callText]
  rw [spelled]
  exact .more isList (skipBlank_cons (by decide) _) call reads

theorem prefixed_cons (result : Text) (results : List Text) :
    prefixed (result :: results) = ',' :: '\n' :: Text.join [',', '\n'] (result :: results) := by
  induction results generalizing result with
  | nil => simp [prefixed, Text.join]
  | cons other results ih =>
    rw [prefixed, List.flatMap_cons, ← prefixed, ih, Text.join_cons _ _ (List.cons_ne_nil _ _)]
    simp

/-- Results that go on in any list make a whole one. -/
theorem Continues.readsAll {results : List Text} {nodes : List Node}
    (continues : Continues results nodes) :
    ReadsAll (Text.join [',', '\n'] results) nodes := by
  have whole := continues .others [] [] [] (by decide) (.finish rfl)
  rw [List.append_nil, List.append_nil] at whole
  cases results with
  | nil =>
    cases whole with
    | finish => exact .empty rfl
    | more _ comma => cases comma
  | cons result results =>
    rw [prefixed_cons] at whole
    cases whole with
    | finish ended => cases ended
    | more _ comma first others =>
      cases comma
      exact .list first others

/-! ## What tokens write -/

/-- Letters and digits are no white space of any kind. -/
theorem not_isBlank {c : Char} (letter : c.isAlphanum = true) : isBlank c = false := by
  have bounds := toNat_of_isAlphanum letter
  simp only [isBlank, Bool.or_eq_false_iff, Bool.and_eq_false_iff, decide_eq_false_iff_not,
    beq_eq_false_iff_ne]
  omega

theorem Render.keep_of_mem {code : Text} {c : Char} (member : c ∈ code)
    (notBlank : isBlank c = false) : Render.keep (some code) = [code] := by
  have kept : Text.isAllBlank code = false := by
    rw [Text.isAllBlank, List.all_eq_false]
    exact ⟨c, member, by simp [notBlank]⟩
  simp [Render.keep, kept]

/-- Code that denotes something is kept. -/
theorem Denotes.keep {code : Text} {nodes : List Node} (denotes : Denotes code nodes) :
    Render.keep (some code) = [code] := by
  have reads := denotes []
  rw [List.append_nil] at reads
  have kept : ∀ {c : Char} {behind : Text}, skipBlank code = c :: behind → isBlank c = false →
      Render.keep (some code) = [code] := by
    intro c behind begins notBlank
    have member : c ∈ code :=
      (List.dropWhile_suffix _).subset (begins ▸ List.mem_cons_self : c ∈ skipBlank code)
    exact Render.keep_of_mem member notBlank
  rcases reads.expression_cases with ⟨quoted, _, begins, -⟩ | ⟨name, _, _, _, _, begins, named, -⟩
  · exact kept begins (by decide)
  · cases name with
    | nil => exact absurd rfl named.1
    | cons c name => exact kept begins (not_isBlank (named.2 c List.mem_cons_self))

/-- What was written adds nodes where a list goes on, and calls the elements of these. -/
structure Writes (writer : CodeWriter) (written : List Text × CodeWriter) (nodes : List Node) :
    Prop where
  continues : Continues written.1 nodes
  tags : ∀ name, name ∈ written.2.tags ↔ name ∈ writer.tags ∨ name ∈ Node.allNames nodes

namespace Writes

variable {writer : CodeWriter}

theorem nil : Writes writer ([], writer) [] :=
  ⟨.nil, fun name => by simp [Node.allNames]⟩

theorem append {written others : List Text × CodeWriter} {nodes more : List Node}
    (first : Writes writer written nodes) (second : Writes written.2 others more) :
    Writes writer (written.1 ++ others.1, others.2) (nodes ++ more) := by
  refine ⟨first.continues.append second.continues, fun name => ?_⟩
  rw [second.tags, first.tags, Node.allNames_append, List.mem_append, or_assoc]

/-- One result, with or without a name. -/
theorem one {code : Text} {nodes : List Node} (denotes : Denotes code nodes) {behind : CodeWriter}
    (tags : ∀ name, name ∈ behind.tags ↔ name ∈ writer.tags ∨ name ∈ Node.allNames nodes) :
    Writes writer (Render.keep (some code), behind) nodes := by
  rw [denotes.keep]
  exact ⟨.singleton denotes, tags⟩

end Writes

theorem mem_insert_element {name tag : Text} {writer : CodeWriter} {attrs : List (Text × Text)}
    {children : List Node} (leaves : Node.allNames children = []) :
    name ∈ TextSet.insert tag writer.tags ↔
      name ∈ writer.tags ∨ name ∈ Node.allNames [.element tag attrs children] := by
  rw [TextSet.mem_insert, Node.allNames, Node.names, leaves]
  simp [Node.allNames, or_comm]

theorem not_mem_callText {name behind : Text} {attrs : Attributes} (named : IsName name)
    (textual : ∀ attr ∈ attrs, ∃ value, attr.2 = .text value) (oneLine : '\n' ∉ behind) :
    '\n' ∉ callText name attrs behind := by
  have noLineFeed : '\n' ∉ name := fun member => by cases named.2 _ member
  simp [callText, noLineFeed, Attributes.not_mem_objectLiteral textual, oneLine]

section

variable {writer : CodeWriter} {tag : Text} {attrs : Attributes}

/-- A call on one line, and the note that its element is called. -/
theorem writes_call {behind : Text} {children : List Node} (named : IsName tag)
    (oneLine : '\n' ∉ callText tag attrs behind) (leaves : Node.allNames children = [])
    (denotes : ∀ count, Denotes (Text.spaces count ++ callText tag attrs behind)
      [.element tag attrs.fields children]) :
    Writes writer
      (Render.keep (some (Render.indentBy writer.indent (callText (camelCase tag) attrs behind))),
        { writer with tags := TextSet.insert (camelCase tag) writer.tags })
      [.element tag attrs.fields children] := by
  rw [camelCase_of_isName named, Render.indentBy_line _ oneLine]
  exact .one (denotes _) fun name => mem_insert_element leaves

theorem writes_element (named : IsName tag)
    (textual : ∀ attr ∈ attrs, ∃ value, attr.2 = .text value) :
    let written := (Render.element tag attrs []).run writer
    Writes writer (Render.keep (some written.1), written.2) [.element tag attrs.fields []] := by
  have spelled : camelCase tag ++ ['('] ++ Text.join [',', ' '] [attrs.objectLiteral] ++ [')'] =
      callText (camelCase tag) attrs [')'] := by
    simp [callText, Text.join]
  have whole := @writes_call writer _ _ [')'] [] named
    (not_mem_callText named textual (by decide)) rfl (denotes_call named textual)
  rw [← spelled] at whole
  exact whole

theorem writes_element_text (named : IsName tag)
    (textual : ∀ attr ∈ attrs, ∃ value, attr.2 = .text value) (content : Text) :
    let written := (Render.element tag attrs [Quoted.quote content]).run writer
    Writes writer (Render.keep (some written.1), written.2)
      [.element tag attrs.fields [.text content]] := by
  have spelled : camelCase tag ++ ['('] ++
      Text.join [',', ' '] [attrs.objectLiteral, Quoted.quote content] ++ [')'] =
      callText (camelCase tag) attrs ([',', ' '] ++ Quoted.quote content ++ [')']) := by
    simp [callText, Text.join]
  have oneLine : '\n' ∉ [',', ' '] ++ Quoted.quote content ++ [')'] := by
    simp [Quoted.not_mem_quote]
  have whole := @writes_call writer _ _ _ [.text content] named
    (not_mem_callText named textual oneLine) rfl (denotes_call_text named textual content)
  rw [← spelled] at whole
  exact whole

theorem writes_token {t : Token} (named : IsName t.tag)
    (textual : ∀ attr ∈ t.attrs, ∃ value, attr.2 = .text value)
    (alone : t.nesting = .selfClosing) :
    let written := (Render.token t).run writer
    Writes writer (Render.keep written.1, written.2) (t.around t.attrs []) := by
  cases hidden : t.hidden with
  | true =>
    rw [Render.run_hidden hidden, Token.around, hidden]
    exact .nil
  | false =>
    have attributes := Attributes.not_mem_objectLiteral textual
    have oneLine : '\n' ∉ t.attrs.objectLiteral ++ [')'] := by simp [attributes]
    rw [Render.run_selfClosing hidden alone, Token.around, hidden, List.append_assoc,
      ← Render.indentBy_append_line _ _ oneLine]
    have spelled : camelCase t.tag ++ ['('] ++ (t.attrs.objectLiteral ++ [')']) =
        callText (camelCase t.tag) t.attrs [')'] := by
      simp [callText]
    rw [spelled]
    exact writes_call named (not_mem_callText named textual (by decide)) rfl
      (denotes_call named textual)

theorem writes_text (content : Text) :
    let written := (Render.indented (Quoted.quote content)).run writer
    Writes writer (Render.keep (some written.1), written.2) [.text content] := by
  show Writes writer (Render.keep (some (Render.indentBy writer.indent _)), writer) _
  rw [Render.indentBy_line _ (Quoted.not_mem_quote content)]
  exact .one (denotes_quote _ content) fun name => by simp [Node.allNames, Node.names]

theorem textual_addClass {name : Text}
    (textual : ∀ attr ∈ attrs, ∃ value, attr.2 = .text value) :
    ∀ attr ∈ Render.addClass name attrs, ∃ value, attr.2 = .text value := by
  induction attrs with
  | nil => exact List.forall_mem_singleton.mpr ⟨name, rfl⟩
  | cons attr attrs ih =>
    obtain ⟨⟨value, isText⟩, others⟩ := List.forall_mem_cons.mp textual
    obtain ⟨key, rendered⟩ := attr
    dsimp only at isText
    subst isText
    rw [Render.addClass]
    split
    · exact List.forall_mem_cons.mpr ⟨⟨_, rfl⟩, others⟩
    · exact List.forall_mem_cons.mpr ⟨⟨value, rfl⟩, ih others⟩

theorem writes_fence {options : Options} (plain : options.highlight = none) {t : Token}
    (named : IsName t.tag) (textual : ∀ attr ∈ t.attrs, ∃ value, attr.2 = .text value)
    (unquoted : Text.startsWith "<pre".toList t.content = false) :
    let written := (Render.fence options t).run writer
    Writes writer (Render.keep (some written.1), written.2)
      [.element t.tag (t.fenceAttributes options).fields [.text t.content]] := by
  have same : Render.highlighted options t.content
      (Render.fenceLanguage (Render.fenceInfo t.info)) = t.content := by
    rw [Render.highlighted, plain]
    rfl
  unfold Render.fence Token.fenceAttributes
  dsimp only
  rw [same, unquoted, if_neg Bool.false_ne_true]
  split
  · exact writes_element_text named textual t.content
  · exact writes_element_text named (textual_addClass textual) t.content

theorem Render.run_some (step : Render Text) (writer : CodeWriter) :
    (do return some (← step) : Render (Option Text)).run writer =
      (some (step.run writer).1, (step.run writer).2) :=
  rfl

/-- A token that is complete on its own writes its nodes. -/
theorem writes_rule {options : Options} (plain : options.highlight = none) {t : Token}
    {embeds : Prop} (rejects : ¬ embeds) (writable : t.Writable embeds)
    (alone : t.nesting = .selfClosing)
    (unquoted : t.kind = .fence → Text.startsWith "<pre".toList t.content = false) :
    let written := (Render.rule options t).run writer
    Writes writer (Render.keep written.1, written.2) (t.nodes options) := by
  have textual := writable.textual
  have named := writable.named
  have br : IsName "br".toList := by decide
  unfold Render.rule Token.nodes
  cases kind : t.kind with
  | codeInline | codeBlock =>
    dsimp only
    rw [Render.run_some]
    exact writes_element_text (named (by rw [kind]; rfl)) textual t.content
  | fence =>
    dsimp only
    rw [Render.run_some]
    exact writes_fence plain (named (by rw [kind]; rfl)) textual (unquoted kind)
  | image =>
    -- The text of the image becomes an attribute, and the rest is the same for all tokens.
    exact @writes_token writer { t with attrs := _ } (named (by rw [kind]; rfl))
      (Render.textual_set textual) alone
  | hardbreak =>
    dsimp only
    rw [Render.run_some]
    exact writes_element br (List.forall_mem_nil _)
  | softbreak =>
    dsimp only
    split
    · rw [Render.run_some]
      exact writes_element br (List.forall_mem_nil _)
    · exact .nil
  | text =>
    dsimp only
    rw [Render.run_some]
    exact writes_text t.content
  | embeddedBlock | embeddedInline => exact absurd (writable.accepted (by rw [kind]; rfl)) rejects
  | inline => exact absurd kind writable.notInline
  | _ => exact writes_token (named (by rw [kind]; rfl)) textual alone

end

/-! ## Balanced tokens -/

theorem Render.run_inline_singleton (options : Options) (t : Token) (writer : CodeWriter) :
    (inline options [t]).run writer =
      let written := (rule options t).run writer
      (keep written.1, written.2) := by
  have nothing : ∀ behind, (inline options []).run behind = ([], behind) := fun _ => rfl
  rw [run_inline_cons]
  dsimp only
  rw [nothing, List.append_nil]

/-- Tokens that read as nodes, and write what denotes these. -/
structure Reflects (options : Options) (tokens : List Token) (nodes : List Node) : Prop where
  reads : ∀ stack : NodeStack, tokens.foldl (NodeStack.read options) stack =
    { stack with nodes := stack.nodes ++ nodes }
  writes : ∀ writer, Writes writer ((Render.inline options tokens).run writer) nodes

namespace Reflects

variable {options : Options}

theorem nil : Reflects options [] [] :=
  ⟨fun stack => by simp, fun _ => .nil⟩

theorem append {tokens others : List Token} {nodes more : List Node}
    (first : Reflects options tokens nodes) (second : Reflects options others more) :
    Reflects options (tokens ++ others) (nodes ++ more) := by
  refine ⟨fun stack => ?_, fun writer => ?_⟩
  · rw [List.foldl_append, first.reads, second.reads, List.append_assoc]
  · rw [Render.run_inline_append]
    exact (first.writes writer).append (second.writes _)

theorem complete (plain : options.highlight = none) {t : Token} {embeds : Prop}
    (rejects : ¬ embeds) (writable : t.Writable embeds) (alone : t.nesting = .selfClosing)
    (unquoted : t.kind = .fence → Text.startsWith "<pre".toList t.content = false) :
    Reflects options [t] (t.nodes options) := by
  refine ⟨fun stack => ?_, fun writer => ?_⟩
  · rw [List.foldl_cons, NodeStack.read, alone]
    rfl
  · have written := @writes_rule writer options plain t embeds rejects writable alone unquoted
    have alone := written.append .nil
    rw [List.append_nil (t.nodes options)] at alone
    exact alone

end Reflects

/-- Is a token of this kind rendered by what holds for all tokens? -/
def TokenKind.isGeneric : TokenKind → Bool
  | image | embeddedInline => false
  | kind => !kind.isFixed

theorem Render.rule_generic (options : Options) {t : Token} (generic : t.kind.isGeneric = true) :
    rule options t = token t := by
  unfold rule
  cases kind : t.kind with
  | codeInline | codeBlock | fence | hardbreak | softbreak | text | embeddedBlock | image |
    embeddedInline =>
    rw [kind] at generic
    cases generic
  | _ => rfl

/-- Tokens that enclose others are generic, unless they are embedded markup. -/
theorem TokenKind.isGeneric_of_closing {kind closing : TokenKind}
    (answered : kind.closing? = some closing) (notEmbedded : kind.isEmbedded = false) :
    kind.isElement = true ∧ kind.isGeneric = true ∧ closing.isGeneric = true := by
  cases kind <;> cases answered <;> first | cases notEmbedded; done | decide

/-- Tokens around others that are not hidden write a call in two pieces. -/
theorem writes_shown {options : Options} {opening closing : Token} {body : List Token}
    {nodes : List Node} (named : IsName opening.tag)
    (textual : ∀ attr ∈ opening.attrs, ∃ value, attr.2 = .text value)
    (opens : opening.nesting = .opening ∧ opening.hidden = false)
    (closes : closing.nesting = .closing ∧ closing.hidden = false)
    (inside : ∀ writer, Writes writer ((Render.inline options body).run writer) nodes)
    (writer : CodeWriter) :
    let first := (Render.token opening).run writer
    let between := (Render.inline options body).run first.2
    let last := (Render.token closing).run between.2
    Writes writer (Render.keep first.1 ++ (between.1 ++ Render.keep last.1), last.2)
      [.element opening.tag opening.attrs.fields nodes] := by
  have attributes := Attributes.not_mem_objectLiteral textual
  have begins : Render.indentBy writer.indent (opening.tag ++ ['(']) ++
      opening.attrs.objectLiteral =
      Text.spaces writer.indent ++ callText opening.tag opening.attrs [] := by
    rw [← Render.indentBy_append_line _ _ attributes, Render.indentBy_line]
    · simp [callText]
    · simpa [callText] using not_mem_callText named textual (List.not_mem_nil)
  have keepBegin : Render.keep (some (Text.spaces writer.indent ++
      callText opening.tag opening.attrs [])) = [_] :=
    @Render.keep_of_mem _ '(' (by simp [callText]) (by decide)
  have keepEnd : ∀ count, Render.keep (some (Text.spaces count ++ [')'])) = [_] :=
    fun count => @Render.keep_of_mem _ ')' (by simp) (by decide)
  dsimp only
  rw [Render.run_opening opens.2 opens.1, Render.run_closing closes.2 closes.1]
  dsimp only
  rw [camelCase_of_isName named, begins, Render.indentBy_line _ (by decide), keepBegin, keepEnd]
  have within := inside ⟨writer.indent + 2, TextSet.insert opening.tag writer.tags⟩
  refine ⟨?_, fun name => ?_⟩
  · exact .enclosed named textual within.continues _ _
  · rw [within.tags, TextSet.mem_insert, Node.allNames, Node.names]
    simp [Node.allNames, or_assoc, or_left_comm]

theorem writes_enclosed {options : Options} {embeds : Prop} {opening closing : Token}
    {body : List Token} {nodes : List Node} (rejects : ¬ embeds)
    (encloses : Token.Encloses (Token.Writable embeds) opening closing)
    (inside : ∀ writer, Writes writer ((Render.inline options body).run writer) nodes)
    (writer : CodeWriter) :
    Writes writer ((Render.inline options (opening :: body ++ [closing])).run writer)
      (opening.around opening.attrs nodes) := by
  have notEmbedded : opening.kind.isEmbedded = false := by
    cases embedded : opening.kind.isEmbedded with
    | false => rfl
    | true => exact absurd (encloses.areAllowed.1.accepted embedded) rejects
  have ⟨isElement, generic, alsoGeneric⟩ :=
    TokenKind.isGeneric_of_closing encloses.answered notEmbedded
  have opens := Render.rule_generic options generic
  have closes := Render.rule_generic options alsoGeneric
  have spelled : (Render.inline options (opening :: body ++ [closing])).run writer =
      let first := (Render.token opening).run writer
      let between := (Render.inline options body).run first.2
      let last := (Render.token closing).run between.2
      (Render.keep first.1 ++ (between.1 ++ Render.keep last.1), last.2) := by
    rw [List.cons_append, Render.run_inline_cons, opens]
    dsimp only
    rw [Render.run_inline_append]
    dsimp only
    rw [Render.run_inline_singleton, closes]
  rw [spelled]
  dsimp only
  cases hidden : opening.hidden with
  | true =>
    -- Hidden tokens write nothing, and what they enclose stands alone.
    rw [Render.run_hidden hidden, Render.run_hidden (encloses.alike ▸ hidden), Token.around, hidden]
    have whole := (inside writer).append .nil
    rw [List.append_nil nodes] at whole
    exact whole
  | false =>
    rw [Token.around, hidden]
    exact writes_shown (encloses.areAllowed.1.named isElement) encloses.areAllowed.1.textual
      ⟨encloses.opens, hidden⟩ ⟨encloses.closes, encloses.alike ▸ hidden⟩ inside writer

theorem Reflects.enclosed {options : Options} {embeds : Prop} {opening closing : Token}
    {body : List Token} {nodes : List Node} (inside : Reflects options body nodes)
    (rejects : ¬ embeds) (encloses : Token.Encloses (Token.Writable embeds) opening closing) :
    Reflects options (opening :: body ++ [closing]) (opening.around opening.attrs nodes) := by
  refine ⟨fun stack => ?_, writes_enclosed rejects encloses inside.writes⟩
  have opened : NodeStack.read options stack opening =
      { opened := (opening, stack.nodes) :: stack.opened, nodes := [] } := by
    rw [NodeStack.read, encloses.opens]
  rw [List.cons_append, List.foldl_cons, opened, List.foldl_append, inside.reads, List.foldl_cons,
    NodeStack.read, encloses.closes]
  rfl

/-- Balanced tokens read as nodes, and write what denotes these. -/
theorem reflects_of_balanced {options : Options} (plain : options.highlight = none) {embeds : Prop}
    (rejects : ¬ embeds) {tokens : List Token} (balanced : Balanced (Token.Writable embeds) tokens)
    (unquoted : ∀ t ∈ tokens, t.kind = .fence → Text.startsWith "<pre".toList t.content = false) :
    ∃ nodes, Reflects options tokens nodes := by
  induction balanced with
  | nil => exact ⟨[], .nil⟩
  | append _ _ ihFirst ihSecond =>
    obtain ⟨inFirst, inSecond⟩ := List.forall_mem_append.mp unquoted
    obtain ⟨nodes, first⟩ := ihFirst inFirst
    obtain ⟨more, second⟩ := ihSecond inSecond
    exact ⟨nodes ++ more, first.append second⟩
  | @complete t writable alone =>
    exact ⟨t.nodes options, .complete plain rejects writable alone (unquoted t List.mem_cons_self)⟩
  | @enclosed opening closing body encloses _ ih =>
    have within := (List.forall_mem_append.mp unquoted).1
    obtain ⟨nodes, inside⟩ := ih (List.forall_mem_cons.mp within).2
    exact ⟨opening.around opening.attrs nodes, inside.enclosed rejects encloses⟩

/-! ## Documents -/

/-- Where no markup is accepted and no code is highlighted, the code of a document denotes the
forest of its tokens and nothing else, and its elements are those that are noted, unless a fence
holds what begins like a block of markup. -/
theorem denotes_compile (md : Markdown) (rules : List BlockRule) (options : Options)
    (rejects : ∀ markup, ∃ refusal, md.transform markup = .error refusal)
    (plain : options.highlight = none) (source : Text)
    (unquoted : ∀ t ∈ flatten ({ md with blockRules := ⟨rules.map BlockRule.entry⟩ }.parse source),
      t.kind = .fence → Text.startsWith "<pre".toList t.content = false) :
    let markdown := { md with blockRules := ⟨rules.map BlockRule.entry⟩ }
    let rendered := Compiler.compile ⟨markdown, options⟩ source
    let nodes := forest options (markdown.parse source)
    ReadsAll rendered.code nodes ∧ (∀ others, ReadsAll rendered.code others → others = nodes) ∧
      ∀ name, name ∈ rendered.tags ↔ name ∈ Node.allNames nodes := by
  have acceptsNone : ¬ md.Accepts := by
    rintro ⟨markup, code, accepted⟩
    obtain ⟨refusal, refused⟩ := rejects markup
    rw [Transformer.embed?, refused] at accepted
    cases accepted
  obtain ⟨nodes, reflects⟩ :=
    reflects_of_balanced plain acceptsNone (md.balanced_parse rules source) unquoted
  have read : forest options ({ md with blockRules := ⟨rules.map BlockRule.entry⟩ }.parse source) =
      nodes := by
    rw [forest, reflects.reads]
    rfl
  have writes := reflects.writes { indent := options.initialIndent }
  have denotes := writes.continues.readsAll
  dsimp only
  rw [read, Compiler.compile, Compiler.render, Compiler.parse, render_eq]
  refine ⟨denotes, fun others reads => reads.unique denotes, fun name => ?_⟩
  exact (writes.tags name).trans (by simp)

/-- A list whose paragraphs are hidden. -/
theorem denotes_compile_list :
    let markdown : Markdown :=
      { transform := fun _ => .error .malformed, blockRules := ⟨BlockRule.all.map BlockRule.entry⟩ }
    let source := "- *a*\n- b\n".toList
    let rendered := Compiler.compile ⟨markdown, {}⟩ source
    let nodes := forest {} (markdown.parse source)
    Node.allNames nodes = ["ul".toList, "li".toList, "em".toList, "li".toList] ∧
      ReadsAll rendered.code nodes ∧ (∀ others, ReadsAll rendered.code others → others = nodes) ∧
      ∀ name, name ∈ rendered.tags ↔ name ∈ Node.allNames nodes :=
  ⟨by decide +kernel,
    denotes_compile { transform := fun _ => .error .malformed } BlockRule.all {}
      (fun _ => ⟨.malformed, rfl⟩) rfl _ (by decide +kernel)⟩

/-- Code that begins like a block of markup is not quoted, though nothing highlighted it. -/
theorem denotes_nothing_markup :
    let markdown : Markdown := { transform := fun _ => .error .malformed }
    let source := "```\n<pre>\n```\n".toList
    ¬ ∃ nodes, ReadsAll (Compiler.compile ⟨markdown, {}⟩ source).code nodes := by
  have spelled : (Compiler.compile ⟨{ transform := fun _ => .error .malformed }, {}⟩
      "```\n<pre>\n```\n".toList).code = "code".toList ++ '(' :: "{}, <pre>\n)".toList := by
    decide +kernel
  have notMarkup : ∀ {nodes rest}, ¬ Reads .expression "<pre>\n)".toList nodes rest := by
    intro nodes rest reads
    rcases reads.expression_cases with ⟨_, _, same, -⟩ | ⟨name, _, _, _, _, same, named, -⟩
    · cases same
    · exact named.ne_cons (by decide) _ _ same.symm
  dsimp only
  rw [spelled]
  rintro ⟨nodes, reads⟩
  cases reads with
  | empty blank => cases blank
  | list first others =>
    rcases first.expression_cases with ⟨_, _, same, -⟩ |
      ⟨name, called, _, behind, _, same, named, object, arguments, -⟩
    · cases same
    · obtain ⟨-, rfl⟩ := IsName.unique (by decide : IsName "code".toList) named same
      have empty := readsObject_literal (List.forall_mem_nil _) ", <pre>\n)".toList
      obtain ⟨-, rfl⟩ := object.unique empty
      cases arguments with
      | close closes => cases closes
      | trailing comma closes =>
        cases comma
        cases closes
      | more _ comma markup =>
        -- An argument would have to begin where the markup does.
        cases comma
        exact notMarkup markup

end ComponentMarkdown
