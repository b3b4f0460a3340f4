import ComponentMarkdown.Proofs.Script.Within

/-!
# Expressions read forward

Every scanner for a part of an expression stays within the text that the scanners for nested
constructs stay within (`Rules.Within`). A scanner does if its steps do: a proof names the facts
about the scanners that stand in the steps, and `grind` follows the steps of a short one; a longer
one is taken apart first.
-/

namespace ComponentMarkdown.Script

open Scan

/-- The scanners for nested constructs stay within a text. -/
structure Rules.Within (t : Text) (r : Rules) : Prop where
  expression (lineEnds : Bool) : (r.expression lineEnds).Within t
  operand (lineEnds : Bool) : (r.operand lineEnds).Within t
  statement : r.statement.Within t
  element : r.element.Within t

attribute [grind ←] Rules.Within.expression Rules.Within.operand Rules.Within.statement
  Rules.Within.element

/-! ## Parts without nested constructs -/

section

variable {t : Text}

theorem within_sameStatement (lineEnds : Bool) : (sameStatement lineEnds).Within t := by
  unfold sameStatement
  grind

theorem within_modifier (name : String) (next : Char → Bool) :
    (modifier name next).Within t := by
  unfold modifier
  grind

theorem within_methodModifiers : methodModifiers.Within t := by
  unfold methodModifiers
  have modifierWithin := within_modifier (t := t)
  grind

theorem afterTemplateText_suffix {s : Text} : afterTemplateText s <:+ s := by
  fun_induction afterTemplateText s <;> grind

theorem within_arrowAhead : arrowAhead.Within t :=
  within_test

theorem within_memberName : memberName.Within t := by
  unfold memberName
  grind

/-- What stands behind the first of several words that the text begins with. -/
theorem findSome?_dropPrefix?_suffix {words : List String} {s rest : Text}
    (found : words.findSome? (fun word => Text.dropPrefix? word.toList s) = some rest) :
    rest <:+ s := by
  obtain ⟨word, -, isWord⟩ := List.exists_of_findSome?_eq_some found
  exact dropPrefix?_suffix isWord

@[grind ←]
theorem within_extend {step : Expression → Scan Expression} (within : ∀ e, (step e).Within t)
    (fuel : Nat) (e : Expression) : (extend step fuel e).Within t := by
  induction fuel generalizing e with
  | zero => exact within_pure e
  | succ fuel ih =>
    unfold extend
    grind

theorem within_binaryOperator : binaryOperator.Within t := by
  refine within_get fun s inside => ?_
  split
  · next found => exact within_set ((findSome?_dropPrefix?_suffix found).trans inside)
  · grind

theorem within_questionMark : questionMark.Within t := by
  unfold questionMark
  grind

end

section

variable {t : Text} {r : Rules} (nested : r.Within t)

include nested

/-! ## Values, slots and functions -/

theorem within_value (lineEnds : Bool) : (r.value lineEnds).Within t := by
  unfold Rules.value
  grind

theorem within_sequence (lineEnds : Bool) : (r.sequence lineEnds).Within t := by
  unfold Rules.sequence
  have sameStatementWithin := within_sameStatement (t := t)
  have valueWithin := within_value nested
  grind

theorem within_slot : (slot r).Within t := by
  unfold slot
  grind

theorem within_slotsUpTo (fuel : Nat) : (slotsUpTo r fuel).Within t := by
  have slotWithin := within_slot nested
  induction fuel with
  | zero => exact within_failure
  | succ fuel ih =>
    unfold slotsUpTo
    grind

theorem within_slots (open_ close : String) : (slots r open_ close).Within t := by
  unfold slots
  have slotsUpToWithin := within_slotsUpTo nested
  grind

theorem within_arguments : (arguments r).Within t := by
  unfold arguments
  have slotsWithin := within_slots nested
  grind

theorem within_parameters : (parameters r).Within t := by
  unfold parameters
  have slotsWithin := within_slots nested
  grind

theorem within_block : (block r).Within t := by
  unfold block
  grind

theorem within_functionBody : (functionBody r).Within t := by
  unfold functionBody
  have parametersWithin := within_parameters nested
  have blockWithin := within_block nested
  grind

theorem within_functionRest : (functionRest r).Within t := by
  unfold functionRest
  have functionBodyWithin := within_functionBody nested
  grind

/-! ## Members of objects and classes -/

theorem within_propertyName : (propertyName r).Within t := by
  unfold propertyName
  have valueWithin := within_value nested
  grind

theorem within_member : (member r).Within t := by
  have valueWithin := within_value nested
  have functionBodyWithin := within_functionBody nested
  refine within_bind within_beforeOperand fun _ => within_bind within_peek? fun next => ?_
  split
  · exact within_pure _
  · exact within_pure _
  · refine within_bind (within_ahead "...") fun isSpread => ?_
    split
    · grind
    · refine within_bind (within_option (within_modifier _ _)) fun isStatic =>
        within_bind within_methodModifiers fun isMethod =>
          within_bind (within_propertyName nested) fun isWord => ?_
      grind

theorem within_membersUpTo (fuel : Nat) : (membersUpTo r fuel).Within t := by
  have memberWithin := within_member nested
  induction fuel with
  | zero => exact within_failure
  | succ fuel ih =>
    unfold membersUpTo
    grind

theorem within_object : (object r).Within t := by
  unfold object
  have membersUpToWithin := within_membersUpTo nested
  grind

theorem within_decorators : (decorators r).Within t := by
  have argumentsWithin := within_arguments nested
  refine within_discard (within_many ?_)
  grind

theorem within_classMember : (classMember r).Within t := by
  have valueWithin := within_value nested
  have blockWithin := within_block nested
  have functionBodyWithin := within_functionBody nested
  refine within_bind within_beforeOperand fun _ => within_bind (within_ahead ";") fun isEmpty => ?_
  split
  · grind
  · refine within_bind (within_decorators nested) fun _ => within_bind within_beforeOperand fun _ =>
      within_bind (within_option (within_modifier _ _)) fun isStatic =>
        within_bind (within_ahead _) fun isBlock => ?_
    split
    · grind
    · refine within_bind within_methodModifiers fun isMethod =>
        within_bind (within_discard (within_propertyName nested)) fun _ => ?_
      grind

theorem within_classRest : (classRest r).Within t := by
  have classMemberWithin := within_classMember nested
  refine within_bind within_beforeOperand fun _ => within_bind within_wordAhead? fun name => ?_
  dsimp only
  refine within_optional () (within_discard within_word) fun _ =>
    within_bind within_beforeOperand fun _ =>
      within_bind (within_keywordAhead "extends") fun isDerived => ?_
  split
  · refine within_bind (within_keyword "extends") fun _ =>
      within_bind (within_discard (within_value nested false)) fun _ => ?_
    grind
  · grind

/-! ## Templates, arrow functions and words -/

theorem within_templatePart : (templatePart r).Within t := by
  have sequenceWithin := within_sequence nested
  refine within_get fun s inside => ?_
  split
  · grind
  · grind
  · have behind := afterTemplateText_suffix.trans inside
    grind

theorem within_template : (template r).Within t := by
  unfold template
  have templatePartWithin := within_templatePart nested
  grind

theorem within_arrowRest (lineEnds : Bool) : (arrowRest r lineEnds).Within t := by
  unfold arrowRest
  have valueWithin := within_value nested
  have blockWithin := within_block nested
  grind

theorem within_parenthesized (lineEnds : Bool) : (parenthesized r lineEnds).Within t := by
  unfold parenthesized
  have arrowAheadWithin := within_arrowAhead (t := t)
  have slotsWithin := within_slots nested
  have arrowRestWithin := within_arrowRest nested
  grind

theorem within_array : (array r).Within t := by
  unfold array
  have slotsWithin := within_slots nested
  grind

theorem within_functionExpression : (functionExpression r).Within t := by
  unfold functionExpression
  have functionRestWithin := within_functionRest nested
  grind

theorem within_identifierRest (lineEnds : Bool) : (identifierRest r lineEnds).Within t := by
  unfold identifierRest
  have arrowAheadWithin := within_arrowAhead (t := t)
  have arrowRestWithin := within_arrowRest nested
  grind

theorem within_asyncRest (lineEnds : Bool) : (asyncRest r lineEnds).Within t := by
  have arrowAheadWithin := within_arrowAhead (t := t)
  have slotsWithin := within_slots nested
  have arrowRestWithin := within_arrowRest nested
  have functionExpressionWithin := within_functionExpression nested
  have identifierRestWithin := within_identifierRest nested
  refine within_get fun s inside => within_bind within_afterOperand fun _ =>
    within_bind (within_keywordAhead "function") fun isFunction => ?_
  split
  · grind
  · refine within_bind within_test fun isArrow => ?_
    split
    · grind
    · refine within_bind (within_ahead "(") fun isCall => ?_
      grind

theorem within_importRest : (importRest r).Within t := by
  unfold importRest
  have argumentsWithin := within_arguments nested
  grind

theorem within_wordOperand (lineEnds : Bool) : (wordOperand r lineEnds).Within t := by
  unfold wordOperand
  have classRestWithin := within_classRest nested
  have functionExpressionWithin := within_functionExpression nested
  have identifierRestWithin := within_identifierRest nested
  have asyncRestWithin := within_asyncRest nested
  have importRestWithin := within_importRest nested
  grind

theorem within_primary (lineEnds : Bool) : (primary r lineEnds).Within t := by
  unfold primary
  have objectWithin := within_object nested
  have decoratorsWithin := within_decorators nested
  have classRestWithin := within_classRest nested
  have templateWithin := within_template nested
  have parenthesizedWithin := within_parenthesized nested
  have arrayWithin := within_array nested
  have wordOperandWithin := within_wordOperand nested
  grind

/-! ## Suffixes and operands -/

theorem within_index : (index r).Within t := by
  unfold index
  have sequenceWithin := within_sequence nested
  grind

theorem within_memberSuffix (e : Expression) : (memberSuffix r e).Within t := by
  have memberNameWithin := within_memberName (t := t)
  have argumentsWithin := within_arguments nested
  have templateWithin := within_template nested
  have indexWithin := within_index nested
  refine within_bind (within_guard _) fun _ => within_get fun s inside => ?_
  split
  · grind
  · refine within_bind (within_guard _) fun _ => within_bind (within_set (by grind)) fun _ =>
      within_bind within_afterOperand fun _ => ?_
    grind
  · grind
  · grind
  · exact within_failure

theorem within_assignmentSuffix (lineEnds : Bool) (e : Expression) :
    (assignmentSuffix r lineEnds e).Within t := by
  have valueWithin := within_value nested
  refine within_get fun s inside => ?_
  split
  · grind
  · refine within_bind (within_guard _) fun _ => ?_
    split
    · exact within_failure
    · next found =>
      have behind := (findSome?_dropPrefix?_suffix found).trans inside
      grind

theorem within_suffix (lineEnds : Bool) (e : Expression) : (suffix r lineEnds e).Within t := by
  unfold suffix
  have sameStatementWithin := within_sameStatement (t := t)
  have argumentsWithin := within_arguments nested
  have memberSuffixWithin := within_memberSuffix nested
  have assignmentSuffixWithin := within_assignmentSuffix nested
  grind

theorem within_newOperand (lineEnds : Bool) : (newOperand r lineEnds).Within t := by
  have sameStatementWithin := within_sameStatement (t := t)
  have argumentsWithin := within_arguments nested
  have primaryWithin := within_primary nested
  have memberSuffixWithin := within_memberSuffix nested
  have made : Within t do
      discard <| Scan.option (do sameStatement lineEnds; afterOperand; arguments r)
      return ({ kind := .new } : Expression) := by
    grind
  refine within_bind (within_keyword "new") fun _ => within_bind within_beforeOperand fun _ =>
    within_bind (within_ahead ".") fun isTarget => ?_
  split
  · grind
  · refine within_bind (within_keywordAhead "new") fun isNested => ?_
    split
    · grind
    · grind

theorem within_yieldOperand (lineEnds : Bool) : (yieldOperand r lineEnds).Within t := by
  have sameStatementWithin := within_sameStatement (t := t)
  have valueWithin := within_value nested
  refine within_bind (within_keyword "yield") fun _ =>
    within_bind (within_discard (within_option ?_)) fun _ => within_pure _
  grind

@[grind ←]
theorem within_prefixedOperand (lineEnds : Bool) {operator : Scan Unit}
    (within : operator.Within t) (kind : ExpressionKind) :
    (prefixedOperand r lineEnds operator kind).Within t := by
  unfold prefixedOperand
  grind

theorem within_leading (lineEnds : Bool) : (leading r lineEnds).Within t := by
  have primaryWithin := within_primary nested
  have newOperandWithin := within_newOperand nested
  have yieldOperandWithin := within_yieldOperand nested
  refine within_get fun s inside => ?_
  split
  · grind
  · grind
  · split
    · grind
    · refine within_bind within_wordAhead? fun name => ?_
      cases name with
      | none => exact within_primary nested lineEnds
      | some name => grind
  · exact within_failure

theorem within_operand (lineEnds : Bool) : (operand r lineEnds).Within t := by
  unfold operand
  have suffixWithin := within_suffix nested
  have leadingWithin := within_leading nested
  grind

/-! ## Expressions -/

theorem within_branches (lineEnds : Bool) : (branches r lineEnds).Within t := by
  unfold branches
  have questionMarkWithin := within_questionMark (t := t)
  have valueWithin := within_value nested
  grind

theorem within_rightOperand (lineEnds : Bool) : (rightOperand r lineEnds).Within t := by
  unfold rightOperand
  have binaryOperatorWithin := within_binaryOperator (t := t)
  have operandWithin := within_operand nested
  grind

theorem within_expression (lineEnds : Bool) : (expression r lineEnds).Within t := by
  unfold expression
  have sameStatementWithin := within_sameStatement (t := t)
  have operandWithin := within_operand nested
  have branchesWithin := within_branches nested
  have rightOperandWithin := within_rightOperand nested
  grind

end

end ComponentMarkdown.Script
