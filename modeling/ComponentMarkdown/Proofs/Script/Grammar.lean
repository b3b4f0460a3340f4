import ComponentMarkdown.Proofs.Script.Expressions
import Mathlib.Data.List.TakeDrop

/-!
# The script grammar reads forward

Statements and elements stay within the text that the scanners for nested constructs stay within.
So all scanners of the grammar leave an end of their text, to whatever depth they read
(`within_rules`).
-/

namespace ComponentMarkdown.Script

open Scan

/-! ## Parts without nested constructs -/

section

variable {t : Text}

theorem within_jumpRest : jumpRest.Within t := by
  unfold jumpRest
  grind

theorem within_anyString : anyString.Within t := by
  unfold anyString
  grind

theorem within_exportName : exportName.Within t := by
  unfold exportName
  have anyStringWithin := within_anyString (t := t)
  grind

theorem within_renamed : renamed.Within t := by
  unfold renamed
  have exportNameWithin := within_exportName (t := t)
  grind

theorem within_nameList : nameList.Within t := by
  have renamedWithin := within_renamed (t := t)
  refine within_bind within_beforeOperand fun _ => within_bind (within_token _) fun _ =>
    within_bind (within_discard (within_option ?_)) fun _ => ?_
  · refine within_bind within_renamed fun _ =>
      within_bind (within_discard (within_many ?_)) fun _ => within_discard (within_option ?_)
    · grind
    · grind
  · grind

theorem within_fromClause : fromClause.Within t := by
  unfold fromClause
  have anyStringWithin := within_anyString (t := t)
  grind

theorem within_namespaceImport : namespaceImport.Within t := by
  unfold namespaceImport
  have exportNameWithin := within_exportName (t := t)
  grind

theorem within_namedDeclarationAhead : namedDeclarationAhead.Within t :=
  within_test

theorem within_namePart : namePart.Within t := by
  unfold namePart
  grind

theorem within_namespacedName : namespacedName.Within t := by
  unfold namespacedName
  have namePartWithin := within_namePart (t := t)
  grind

theorem within_dottedName : dottedName.Within t := by
  unfold dottedName
  grind

theorem within_writtenName : writtenName.Within t := by
  unfold writtenName
  have namePartWithin := within_namePart (t := t)
  have namespacedNameWithin := within_namespacedName (t := t)
  have dottedNameWithin := within_dottedName (t := t)
  grind

theorem within_attributeName : attributeName.Within t := by
  unfold attributeName
  have namePartWithin := within_namePart (t := t)
  have namespacedNameWithin := within_namespacedName (t := t)
  grind

@[grind →]
theorem afterUpTo?_suffix {p : Char → Bool} {most : Nat} {s rest : Text}
    (found : afterUpTo? p most s = some rest) : rest <:+ s := by
  rw [afterUpTo?] at found
  split at found
  · cases found
  · cases found
    exact List.drop_suffix _ s

@[grind →]
theorem afterReference?_suffix {s rest : Text} (found : afterReference? s = some rest) :
    rest <:+ s := by
  unfold afterReference? at found
  split at found
  · next behind =>
    obtain ⟨body, isBody, found⟩ := Option.bind_eq_some_iff.mp found
    have inside : body <:+ behind := by
      rcases eq_some_of_orElse isBody with isHex | isOther
      · split at isHex
        · exact (afterUpTo?_suffix isHex).trans (List.suffix_append ['#', 'x'] _)
        · exact (afterUpTo?_suffix isHex).trans (List.suffix_append ['#', 'X'] _)
        · cases isHex
      rcases eq_some_of_orElse isOther with isDecimal | isName
      · split at isDecimal
        · exact (afterUpTo?_suffix isDecimal).trans (List.suffix_append ['#'] _)
        · cases isDecimal
      · exact afterUpTo?_suffix isName
    refine List.IsSuffix.trans ?_ (List.suffix_cons '&' behind)
    split at found
    · cases found
      exact suffix_of_cons_suffix inside
    · cases found
      exact inside
  · cases found

theorem afterPlain_suffix {quote : Char} {s : Text} : afterPlain quote s <:+ s := by
  fun_induction afterPlain quote s <;> grind

theorem within_attributeStringPart (quote : Char) : (attributeStringPart quote).Within t := by
  unfold attributeStringPart
  grind [afterPlain_suffix]

theorem within_attributeString (quote : Char) : (attributeString quote).Within t := by
  unfold attributeString
  have attributeStringPartWithin := within_attributeStringPart (t := t)
  grind

theorem within_bodyGap : bodyGap.Within t := by
  refine within_get fun s inside => ?_
  rw [List.span_eq_takeWhile_dropWhile]
  have behind := (List.dropWhile_suffix fun c => !endsText c).trans inside
  dsimp only
  split
  · exact within_set behind
  · split
    · next found => exact within_set ((afterHtmlComment?_suffix found).trans behind)
    · exact within_get fun s inside => within_set ((List.dropWhile_suffix _).trans inside)

theorem within_bodyText (fuel : Nat) : (bodyText fuel).Within t := by
  have bodyGapWithin := within_bodyGap (t := t)
  induction fuel with
  | zero => exact within_failure
  | succ fuel ih =>
    unfold bodyText
    grind

end

section

variable {t : Text} {r : Rules} (nested : r.Within t)

include nested

/-! ## Declarations -/

theorem within_bindingTarget : (bindingTarget r).Within t := by
  unfold bindingTarget
  have objectWithin := within_object nested
  have arrayWithin := within_array nested
  grind

theorem within_declarator : (declarator r).Within t := by
  unfold declarator
  have valueWithin := within_value nested
  have bindingTargetWithin := within_bindingTarget nested
  grind

theorem within_declarationRest : (declarationRest r).Within t := by
  unfold declarationRest
  have declaratorWithin := within_declarator nested
  grind

theorem within_functionDeclaration : (functionDeclaration r).Within t := by
  unfold functionDeclaration
  have functionRestWithin := within_functionRest nested
  grind

theorem within_classDeclaration : (classDeclaration r).Within t := by
  unfold classDeclaration
  have decoratorsWithin := within_decorators nested
  have classRestWithin := within_classRest nested
  grind

theorem within_declaration : (declaration r).Within t := by
  unfold declaration
  have declarationRestWithin := within_declarationRest nested
  have functionDeclarationWithin := within_functionDeclaration nested
  have classDeclarationWithin := within_classDeclaration nested
  grind

/-! ## Conditions, loops and jumps -/

theorem within_condition : (condition r).Within t := by
  unfold condition
  have sequenceWithin := within_sequence nested
  grind

theorem within_body : (body r).Within t := by
  unfold body
  grind

theorem within_conditionalRest : (conditionalRest r).Within t := by
  unfold conditionalRest
  have conditionWithin := within_condition nested
  have bodyWithin := within_body nested
  grind

theorem within_caseBody : (caseBody r).Within t := by
  unfold caseBody
  grind

theorem within_switchRest : (switchRest r).Within t := by
  have sequenceWithin := within_sequence nested
  have caseBodyWithin := within_caseBody nested
  refine within_bind (within_condition nested) fun _ => within_bind within_beforeOperand fun _ =>
    within_bind (within_token _) fun _ => within_bind (within_discard (within_many ?_)) fun _ => ?_
  · refine within_bind within_beforeOperand fun _ => ?_
    grind
  · grind

theorem within_memberLoopHeader : (memberLoopHeader r).Within t := by
  unfold memberLoopHeader
  have sequenceWithin := within_sequence nested
  have operandWithin := within_operand nested
  have bindingTargetWithin := within_bindingTarget nested
  grind

theorem within_loopPart : (loopPart r).Within t := by
  unfold loopPart
  have sequenceWithin := within_sequence nested
  grind

theorem within_countingLoopHeader : (countingLoopHeader r).Within t := by
  unfold countingLoopHeader
  have sequenceWithin := within_sequence nested
  have declarationRestWithin := within_declarationRest nested
  have loopPartWithin := within_loopPart nested
  grind

theorem within_forRest : (forRest r).Within t := by
  unfold forRest
  have bodyWithin := within_body nested
  have memberLoopHeaderWithin := within_memberLoopHeader nested
  have countingLoopHeaderWithin := within_countingLoopHeader nested
  grind

theorem within_doRest : (doRest r).Within t := by
  unfold doRest
  have conditionWithin := within_condition nested
  have bodyWithin := within_body nested
  grind

theorem within_tryRest : (tryRest r).Within t := by
  have blockWithin := within_block nested
  have bindingTargetWithin := within_bindingTarget nested
  refine within_bind (within_block nested) fun _ =>
    within_bind (within_discard (within_option ?_)) fun _ => ?_
  · refine within_bind within_beforeOperand fun _ => within_bind (within_keyword "catch") fun _ =>
      within_bind (within_discard (within_option ?_)) fun _ => within_block nested
    grind
  · grind

/-! ## Imports and exports -/

theorem within_importStatement : (importStatement r).Within t := by
  have objectWithin := within_object nested
  have nameListWithin := within_nameList (t := t)
  have namespaceImportWithin := within_namespaceImport (t := t)
  refine within_bind (within_keyword "import") fun _ => within_bind (within_orElse ?_ ?_) fun _ =>
    within_bind (within_discard (within_option ?_)) fun _ => ?_
  · exact within_anyString
  · refine within_bind (within_orElse (by grind) (within_bind within_beforeOperand fun _ => ?_))
      fun _ => within_fromClause
    grind
  · grind
  · grind

theorem within_exportStatement : (exportStatement r).Within t := by
  have valueWithin := within_value nested
  have exportNameWithin := within_exportName (t := t)
  have nameListWithin := within_nameList (t := t)
  have fromClauseWithin := within_fromClause (t := t)
  have declarationWithin := within_declaration nested
  refine within_bind (within_keyword "export") fun _ => within_bind within_beforeOperand fun _ =>
    within_bind (within_orElse ?_ (within_orElse ?_ (within_orElse ?_ ?_))) fun _ => within_pure _
  · refine within_bind (within_token "*") fun _ => ?_
    grind
  · grind
  · refine within_bind (within_keyword "default") fun _ => ?_
    grind
  · grind

/-! ## Statements -/

theorem within_expressionStatement : (expressionStatement r).Within t := by
  unfold expressionStatement
  have sequenceWithin := within_sequence nested
  have expressionWithin := within_expression nested
  grind

theorem within_labeledStatement : (labeledStatement r).Within t := by
  unfold labeledStatement
  have bodyWithin := within_body nested
  grind

theorem within_keywordStatement {name : String} {scan : Scan Statement}
    (found : keywordStatement r name = some scan) : scan.Within t := by
  unfold keywordStatement at found
  have sequenceWithin := within_sequence nested
  have jumpRestWithin := within_jumpRest (t := t)
  have declarationRestWithin := within_declarationRest nested
  have conditionWithin := within_condition nested
  have bodyWithin := within_body nested
  have conditionalRestWithin := within_conditionalRest nested
  have switchRestWithin := within_switchRest nested
  have forRestWithin := within_forRest nested
  have doRestWithin := within_doRest nested
  have tryRestWithin := within_tryRest nested
  split at found
  all_goals cases found
  all_goals grind

theorem within_wordStatement (name : Text) : (wordStatement r name).Within t := by
  unfold wordStatement
  have namedDeclarationAheadWithin := within_namedDeclarationAhead (t := t)
  have declarationRestWithin := within_declarationRest nested
  have functionDeclarationWithin := within_functionDeclaration nested
  have classDeclarationWithin := within_classDeclaration nested
  have importStatementWithin := within_importStatement nested
  have exportStatementWithin := within_exportStatement nested
  have expressionStatementWithin := within_expressionStatement nested
  have labeledStatementWithin := within_labeledStatement nested
  split
  · next found => exact within_keywordStatement nested found
  · grind

theorem within_statement : (statement r).Within t := by
  unfold statement
  have blockWithin := within_block nested
  have classDeclarationWithin := within_classDeclaration nested
  have exportStatementWithin := within_exportStatement nested
  have expressionStatementWithin := within_expressionStatement nested
  have wordStatementWithin := within_wordStatement nested
  grind

/-! ## Tags and bodies -/

theorem within_container : (container r).Within t := by
  have valueWithin := within_value nested
  have sequenceWithin := within_sequence nested
  refine within_bind (within_source (within_bind (within_token _) fun _ =>
    within_bind (within_gap .operand) fun comments => within_bind (within_ahead _) fun isBlank =>
      within_bind (within_ahead _) fun isSpread => ?_)) fun found => within_pure _
  dsimp only
  split
  · grind
  · split <;> grind

theorem within_namedAttribute : (namedAttribute r).Within t := by
  have attributeStringWithin := within_attributeString (t := t)
  have containerWithin := within_container nested
  refine within_bind within_attributeName fun name =>
    within_bind (within_option (by grind)) fun comments => ?_
  split
  · exact within_pure _
  · refine within_bind within_peek? fun next => ?_
    grind

theorem within_tagRest (fuel : Nat) : (tagRest r fuel).Within t := by
  have containerWithin := within_container nested
  have namedAttributeWithin := within_namedAttribute nested
  induction fuel with
  | zero => exact within_failure
  | succ fuel ih =>
    unfold tagRest
    grind

theorem within_bodyRest (fuel : Nat) : (bodyRest r fuel).Within t := by
  have writtenNameWithin := within_writtenName (t := t)
  have containerWithin := within_container nested
  induction fuel with
  | zero => exact within_failure
  | succ fuel ih =>
    refine within_get fun s _ => within_bind (within_source (within_bodyText _)) fun found =>
      within_bind (within_ahead "</") fun isEnd => ?_
    split
    · refine within_bind (within_token "</") fun _ => within_bind within_beforeOperand fun _ => ?_
      grind
    · refine within_bind (within_ahead "<") fun isElement => ?_
      grind

theorem within_element : (element r).Within t := by
  have bodyRestWithin := within_bodyRest nested
  refine within_bind (within_token "<") fun _ => within_bind (within_gap .operand) fun comments =>
    within_bind (within_ahead ">") fun isFragment => ?_
  split
  · grind
  · refine within_bind within_writtenName fun name => within_get fun s _ =>
      within_bind (within_tagRest nested _) fun tag => ?_
    grind

end

/-- All scanners of the grammar leave an end of their text. -/
theorem within_rules (depth : Nat) (t : Text) : (rules depth).Within t := by
  induction depth with
  | zero =>
    exact ⟨fun _ => within_failure, fun _ => within_failure, within_failure, within_failure⟩
  | succ depth ih =>
    exact ⟨within_expression ih, within_operand ih, within_statement ih, within_element ih⟩

end ComponentMarkdown.Script
