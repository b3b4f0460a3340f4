import ComponentMarkdown.Proofs.Factory.Copies
import ComponentMarkdown.Proofs.Render.Column

/-!
# Template literals in compiled documents

Line ends inside a template literal are part of the string, but indentation goes behind them as
behind others. A literal therefore stands in the compiled code as it was written only if it has no
line end, or if nothing indents it. The file has:

* `Factory.markupParts`, what the factory copies from embedded markup;
* literals in tidied and in indented code;
* `literal_compile`, which says where a literal of a document stands in the code.
-/

namespace ComponentMarkdown

/-! ## Copied code -/

namespace Factory

/-- What the code for embedded markup has in it, with the number of calls that indent it. -/
def markupParts (markup : Text) : List (Nat × Part) :=
  match braced? markup.trim with
  | some inner => [(0, .copy inner.trim)]
  | none =>
    match expressionOf markup with
    | .ok (found, _) => (found.element.map elementParts).getD []
    | .error _ => []

theorem bracedExpression_accepted {inner code : Text}
    (accepted : bracedExpression inner = .ok code) : code = inner := by
  rw [bracedExpression] at accepted
  dsimp only at accepted
  split at accepted
  · cases accepted
  · obtain ⟨⟨found, rest⟩, -, accepted⟩ := exists_of_bind_eq_ok accepted
    dsimp only at accepted
    split at accepted
    · cases accepted
      rfl
    · cases accepted

/-- Accepted markup is an expression in braces or an element. -/
theorem factory_accepted {pragma markup code : Text}
    (accepted : Transformer.factory pragma markup = .ok code) :
    markupParts markup = [(0, .copy code)] ∨
      ∃ root, markupParts markup = elementParts root ∧ element pragma root = .ok code := by
  rw [Transformer.factory] at accepted
  split at accepted
  · next inner isBraced =>
    rw [markupParts, isBraced, bracedExpression_accepted accepted]
    exact .inl rfl
  · next notBraced =>
    obtain ⟨⟨found, behind⟩, isFound, accepted⟩ := exists_of_bind_eq_ok accepted
    dsimp only at accepted
    split at accepted
    · next root isElement =>
      refine .inr ⟨root, ?_, accepted⟩
      simp only [markupParts, notBraced, isFound, isElement, Option.map_some, Option.getD_some]
    · cases accepted

theorem factory_shows {pragma markup code : Text}
    (accepted : Transformer.factory pragma markup = .ok code) :
    ShowsParts pragma code (markupParts markup) := by
  rcases factory_accepted accepted with isCopy | ⟨root, isElement, accepted⟩
  · rw [isCopy]
    exact .copy
  · rw [isElement]
    exact element_shows root accepted

end Factory

/-! ## Literals -/

/-- A text between backticks. -/
def IsTemplate (s : Text) : Prop :=
  ∃ inner, s = '\x60' :: inner ++ ['\x60']

namespace IsTemplate

variable {s : Text}

theorem solid (isTemplate : IsTemplate s) : Factory.Solid s := by
  obtain ⟨inner, rfl⟩ := isTemplate
  exact ⟨⟨_, rfl, by decide⟩, ⟨_, List.getLast?_concat, by decide⟩⟩

theorem hangBy (isTemplate : IsTemplate s) (level : Nat) :
    IsTemplate (Factory.hangBy level s) := by
  induction level with
  | zero => exact isTemplate
  | succ level ih =>
    obtain ⟨inner, same⟩ := ih
    refine ⟨Factory.hang inner, ?_⟩
    rw [Factory.hangBy, same, Factory.hang_append (by simp),
      Factory.hang_cons (by decide) (by simp)]
    rfl

end IsTemplate

section

variable {part s : Text}

/-- What does not begin with a dropped character stays when such characters are dropped. -/
theorem infix_dropWhile {p : Char → Bool} {first : Char} (begins : part.head? = some first)
    (stops : p first = false) (inside : part <:+: s) : part <:+: s.dropWhile p := by
  obtain ⟨rest, rfl⟩ := List.head?_eq_some_iff.mp begins
  obtain ⟨front, behind, rfl⟩ := inside
  rw [List.append_assoc, List.dropWhile_append]
  split
  · rw [List.cons_append, List.dropWhile_cons_of_neg (by simp [stops])]
    exact (List.prefix_append (first :: rest) behind).isInfix
  · exact ⟨front.dropWhile p, behind, List.append_assoc _ _ _⟩

theorem infix_trimWhile {p : Char → Bool} {first last : Char} (begins : part.head? = some first)
    (ends : part.getLast? = some last) (stops : p first = false ∧ p last = false)
    (inside : part <:+: s) : part <:+: s.trimWhile p := by
  have front := infix_dropWhile begins stops.1 inside
  rw [Text.trimWhile, Text.dropEndWhile, ← List.reverse_infix, List.reverse_reverse]
  exact infix_dropWhile (by rw [List.head?_reverse, ends]) stops.2 (List.reverse_infix.mpr front)

theorem IsTemplate.infix_trim (isTemplate : IsTemplate part) (inside : part <:+: s) :
    part <:+: s.trim := by
  obtain ⟨inner, rfl⟩ := isTemplate
  exact infix_trimWhile rfl List.getLast?_concat (by decide) inside

theorem IsTemplate.infix_tidyCode (isTemplate : IsTemplate part) (inside : part <:+: s) :
    part <:+: tidyCode s := by
  have trimmed := isTemplate.infix_trim inside
  refine isTemplate.infix_trim ?_
  obtain ⟨inner, rfl⟩ := isTemplate
  exact infix_trimWhile rfl List.getLast?_concat (by decide) trimmed

theorem IsTemplate.visible (isTemplate : IsTemplate part) (inside : part <:+: s) :
    Text.isAllBlank s = false := by
  obtain ⟨inner, rfl⟩ := isTemplate
  rw [Text.isAllBlank, List.all_eq_false]
  exact ⟨'\x60', inside.subset List.mem_cons_self, by decide⟩

/-- A literal does not end with the parenthesis that ends a call. -/
theorem IsTemplate.infix_of_append (isTemplate : IsTemplate part)
    (inside : part <:+: s ++ [')']) : part <:+: s := by
  obtain ⟨inner, rfl⟩ := isTemplate
  rcases List.infix_concat_iff.mp inside with isSuffix | inside
  · obtain ⟨front, same⟩ := isSuffix
    rw [← List.append_assoc] at same
    cases List.append_inj_right' same rfl
  · exact inside

end

/-! ## Tokens -/

/-- The token has the code as its content, or, if it opens an element around other tokens, all of
the code but the parenthesis at its end. -/
inductive Token.Holds (code : Text) : Token → Prop
  | block {t : Token} (kind : t.kind = .embeddedBlock) (content : t.content = code) : Holds code t
  | inline {t : Token} (kind : t.kind = .embeddedInline) (alone : t.nesting = .selfClosing)
      (content : t.content = code) : Holds code t
  | opening {t : Token} (kind : t.kind = .embeddedInline) (opens : t.nesting = .opening)
      (content : t.content ++ [')'] = code) : Holds code t

theorem Token.Holds.inside {code literal : Text} {t : Token} (holds : t.Holds code)
    (isTemplate : IsTemplate literal) (inside : literal <:+: code) : literal <:+: t.content := by
  cases holds with
  | block kind content => exact content ▸ inside
  | inline kind alone content => exact content ▸ inside
  | opening kind opens content => exact isTemplate.infix_of_append (content ▸ inside)

/-- A token that holds code writes its content at the present column. -/
theorem Render.run_rule_holds (options : Options) {code : Text} {t : Token} (holds : t.Holds code)
    (writer : CodeWriter) :
    ((Render.rule options t).run writer).1 =
      some (Render.indentBy writer.indent t.content.trim) := by
  cases holds with
  | block kind content =>
    rw [Render.rule, kind]
    rfl
  | inline kind alone content =>
    rw [Render.rule, kind, alone]
    rfl
  | opening kind opens content =>
    rw [Render.rule, kind, opens]
    rfl

theorem Render.infix_indentBy {part s : Text} (count : Nat) (inside : part <:+: s) :
    part.flatMap (indentChar count) <:+: indentBy count s := by
  obtain ⟨front, behind, rfl⟩ := inside
  rw [indentBy_eq, List.flatMap_append, List.flatMap_append]
  exact ⟨Text.spaces count ++ front.flatMap (indentChar count),
    behind.flatMap (indentChar count), by simp⟩

/-- What a token of a document writes stands in the code of the document. -/
theorem infix_render {options : Options} {before after : List Token} {t : Token}
    {written : List Token} (found : flatten written = before ++ t :: after) {code : Text}
    (writes : ((Render.rule options t).run ((Render.inline options before).run
      { indent := options.initialIndent }).2).1 = some code)
    (shown : Text.isAllBlank code = false) : code <:+: (render options written).code := by
  rw [render_eq, found]
  dsimp only
  rw [Render.run_inline_append]
  dsimp only
  rw [Render.run_inline_cons]
  dsimp only
  rw [writes]
  refine Factory.infix_join [',', '\n'] (List.mem_append_right _ (List.mem_append_left _ ?_))
  simp [Render.keep, shown]

/-! ## Documents -/

/-- Wherever a document has the code for embedded markup, each template literal of the markup stands
in the code of the document with as many spaces behind each line end as its column: two for each
call that indents it, from the column at which its token is written. A literal without line ends
stands there as it was written. -/
theorem literal_compile (md : Markdown) (rules : List BlockRule) (options : Options)
    (pragma source : Text) {before after : List Token} {t : Token} {markup code : Text}
    (found : flatten (Compiler.parse ⟨{ md with
      transform := .factory pragma, blockRules := ⟨rules.map BlockRule.entry⟩ }, options⟩ source) =
        before ++ t :: after)
    (accepted : (Transformer.factory pragma).embed? markup = some code) (holds : t.Holds code)
    {level : Nat} {copy literal : Text}
    (copied : (level, copy) ∈ Factory.copies (Factory.markupParts markup))
    (isTemplate : IsTemplate literal) (noReturn : '\r' ∉ literal) (inside : literal <:+: copy) :
    let compiled := Compiler.compile ⟨{ md with
      transform := .factory pragma, blockRules := ⟨rules.map BlockRule.entry⟩ }, options⟩ source
    ∃ column : Nat, (column : Int) = options.initialIndent + shifts before ∧
      literal.flatMap (Render.indentChar (column + 2 * level)) <:+: compiled.code ∧
      ('\n' ∉ literal → literal <:+: compiled.code) := by
  intro compiled
  obtain ⟨raw, isRaw, rfl⟩ := Option.map_eq_some_iff.mp accepted
  have isOk : Transformer.factory pragma markup = .ok raw := by
    generalize Transformer.factory pragma markup = result at isRaw
    cases result <;> cases isRaw
    rfl
  have hung := isTemplate.hangBy level
  obtain ⟨_, rfl, shown⟩ := Factory.factory_shows isOk _ (Factory.mem_copies.mp copied)
  have inToken : Factory.hangBy level literal <:+: t.content.trim :=
    hung.infix_trim (holds.inside hung (hung.infix_tidyCode
      (shown literal isTemplate.solid inside)))
  have returns := Render.returns_of_balanced options
    (Markdown.balanced_parse { md with transform := .factory pragma } rules source)
  obtain ⟨-, column⟩ := returns.column { indent := options.initialIndent } before
    ⟨t :: after, found.symm⟩
  have writes := Render.run_rule_holds options holds
    ((Render.inline options before).run { indent := options.initialIndent }).2
  generalize ((Render.inline options before).run _).2.indent = indent at column writes
  have visible : Text.isAllBlank (Render.indentBy indent t.content.trim) = false := by
    rw [Render.isAllBlank_indentBy]
    exact hung.visible inToken
  have inCode : Render.indentBy indent t.content.trim <:+: compiled.code :=
    infix_render found writes visible
  have indented := (Render.infix_indentBy indent inToken).trans inCode
  rw [Factory.hangBy_eq noReturn, List.flatMap_assoc] at indented
  simp only [Render.indentChar_indentChar] at indented
  refine ⟨indent, column, indented, fun oneLine => ?_⟩
  rwa [Render.flatMap_indentChar oneLine] at indented

/-- The literal of a child, in a document that begins at column four. -/
theorem literal_compile_child :
    let markdown : Markdown :=
      { transform := .factory ['h'], blockRules := ⟨BlockRule.all.map BlockRule.entry⟩ }
    let literal := "\x60a\nb\x60".toList
    let compiled := Compiler.compile ⟨markdown, { initialIndent := 4 }⟩
      "<A>\x7b\x60a\nb\x60\x7d</A>\n".toList
    ∃ column : Nat, (column : Int) = 4 + shifts [] ∧
      literal.flatMap (Render.indentChar (column + 2 * 1)) <:+: compiled.code ∧
      ('\n' ∉ literal → literal <:+: compiled.code) := by
  have tokens : (flatten (Compiler.parse ⟨{
      transform := .factory ['h'], blockRules := ⟨BlockRule.all.map BlockRule.entry⟩ },
      { initialIndent := 4 }⟩ "<A>\x7b\x60a\nb\x60\x7d</A>\n".toList)).map
        (fun t => (t.kind, t.content)) =
      [(.embeddedBlock, "h(\n  A,\n  null,\n  \x60a\n  b\x60\n)".toList)] := by
    decide +kernel
  obtain ⟨t, found, held⟩ := List.map_eq_singleton_iff.mp tokens
  obtain ⟨kind, content⟩ := Prod.mk.inj held
  have accepted : (Transformer.factory ['h']).embed? "<A>\x7b\x60a\nb\x60\x7d</A>".toList =
      some "h(\n  A,\n  null,\n  \x60a\n  b\x60\n)".toList := by
    decide +kernel
  exact @literal_compile { transform := .factory ['h'] } BlockRule.all { initialIndent := 4 } ['h']
    _ [] [] t _ _ found accepted (.block kind content) 1 _ _ (by decide +kernel)
    ⟨"a\nb".toList, by decide⟩ (by decide) (List.infix_refl _)

/-- Both kinds of indentation get into a literal: that of the arguments of a call, and that of the
code of a document which does not begin at the first column. -/
theorem literal_moved :
    let literal := "\x60a\nb\x60".toList
    let child := "<A>\x7b\x60a\nb\x60\x7d</A>\n".toList
    let alone := "\x7b\x60a\nb\x60\x7d\n".toList
    let held := fun (options : Options) (source : Text) =>
      (flatten ((Compiler.standard options).parse source)).map fun t => (t.kind, some t.content)
    IsTemplate literal ∧
    ((1, literal) ∈ Factory.copies (Factory.markupParts child) ∧
      (.embeddedBlock, Transformer.createElement.embed? child) ∈ held {} child ∧
      ¬ literal <:+: (compileDocument child).code) ∧
    ((0, literal) ∈ Factory.copies (Factory.markupParts alone) ∧
      (.embeddedInline, Transformer.createElement.embed? alone) ∈
        held { initialIndent := 4 } alone ∧
      ¬ literal <:+: (compileDocument alone { initialIndent := 4 }).code) := by
  dsimp only
  refine ⟨⟨"a\nb".toList, by decide⟩, ⟨?_, ?_, ?_⟩, ?_, ?_, ?_⟩
  · decide +kernel
  · decide +kernel
  · decide +kernel
  · decide +kernel
  · decide +kernel
  · decide +kernel

end ComponentMarkdown
