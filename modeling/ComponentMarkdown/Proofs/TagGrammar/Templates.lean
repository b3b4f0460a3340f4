import ComponentMarkdown.Proofs.TagGrammar.Syntax

/-!
# Template literals in braces

The text of an expression may hold template literals, and the substitutions of a literal are
expressions again. The scanner knows no substitutions: what stands between two backticks is a
string. So it meets a literal as a string and what is substituted in it as a part of that string;
a backtick in there ends the string, and the literal that begins with it is met as code. This file
has:

* the grammar of expressions, with what each way to meet a text asks of it (`IsExpression`,
  `IsLiteral`);
* what the scanner skips (`IsExpression.skips`, `IsLiteral.skips`);
* the end of a group: it is found where the text is balanced for a scanner without substitutions,
  which holds for every expression that is met well (`jsx_expression`).
-/

namespace ComponentMarkdown

namespace Jsx

variable {s rest inside : Text} {met : Meeting}

/-! ## The grammar -/

/-- How the scanner meets a text: as code, or as a part of a string in backticks. `unmet` is for
texts as they are written, whatever the scanner makes of them. -/
inductive Meeting where
  | unmet
  | code
  | string
deriving DecidableEq, Repr

/-- How the scanner meets what stands behind a backtick. -/
def Meeting.flip : Meeting → Meeting
  | .unmet => .unmet
  | .code => .string
  | .string => .code

/-- A character that neither opens nor closes anything in code. -/
def isLoose (c : Char) : Bool :=
  !(isQuote c || c == '{' || c == '}')

mutual

/-- The text of an expression. -/
inductive IsExpression : Meeting → Text → Prop
  | nil {met : Meeting} : IsExpression met []
  | char {met : Meeting} {c : Char} {s : Text} :
      isLoose c = true → c ≠ '\\' → IsExpression met s → IsExpression met (c :: s)
  | group {met : Meeting} {inside s : Text} :
      IsExpression met inside → IsExpression met s → IsExpression met ('{' :: (inside ++ '}' :: s))
  | string {met : Meeting} {quote : Char} {inside s : Text} :
      quote = '"' ∨ quote = '\'' → IsEscaped quote inside →
      (met = .string → IsEscaped '\x60' inside) → IsExpression met s →
      IsExpression met (quote :: (inside ++ quote :: s))
  | template {met : Meeting} {inside s : Text} :
      IsLiteral met inside → IsExpression met s →
      IsExpression met ('\x60' :: (inside ++ '\x60' :: s))

/-- What stands between the backticks of a template literal. A literal that stands inside a string
for the scanner is met as code. -/
inductive IsLiteral : Meeting → Text → Prop
  | nil {met : Meeting} : IsLiteral met []
  | char {met : Meeting} {c : Char} {s : Text} :
      c ≠ '\x60' → c ≠ '\\' → (c = '$' → s.head? ≠ some '{') →
      (met = .string → isLoose c = true) → IsLiteral met s → IsLiteral met (c :: s)
  | escape {met : Meeting} {c : Char} {s : Text} :
      (met = .string → isLoose c = true) → IsLiteral met s → IsLiteral met ('\\' :: c :: s)
  | substitution {met : Meeting} {inside s : Text} :
      IsExpression met.flip inside → IsLiteral met s →
      IsLiteral met ('$' :: '{' :: (inside ++ '}' :: s))

end

mutual

/-- What is met well was an expression before. -/
theorem IsExpression.unmet {met : Meeting} {s : Text} :
    IsExpression met s → IsExpression .unmet s
  | .nil => .nil
  | .char loose notEscape others => .char loose notEscape others.unmet
  | .group isExpression others => .group isExpression.unmet others.unmet
  | .string quotes escaped _ others =>
    .string quotes escaped (fun same => absurd same (by decide)) others.unmet
  | .template isLiteral others => .template isLiteral.unmet others.unmet

theorem IsLiteral.unmet {met : Meeting} {s : Text} : IsLiteral met s → IsLiteral .unmet s
  | .nil => .nil
  | .char notQuote notEscape noSubstitution _ others =>
    .char notQuote notEscape noSubstitution (fun same => absurd same (by decide)) others.unmet
  | .escape _ others => .escape (fun same => absurd same (by decide)) others.unmet
  | .substitution isExpression others => .substitution isExpression.unmet others.unmet

end

/-! ## What the scanner skips -/

/-- The scanner goes on behind the text as it does in front of it, in any group. -/
def Skips : Meeting → Text → Prop
  | .unmet, _ => True
  | .code, s => ∀ depth rest, afterBraces? (depth + 1) (s ++ rest) = afterBraces? (depth + 1) rest
  | .string, s => ∀ depth rest,
      afterQuote? (depth + 1) '\x60' (s ++ rest) = afterQuote? (depth + 1) '\x60' rest

theorem Skips.nil : Skips met [] := by
  cases met
  · trivial
  · intro depth rest
    rfl
  · intro depth rest
    rfl

theorem Skips.append (skips : Skips met s) (others : Skips met rest) : Skips met (s ++ rest) := by
  cases met
  · trivial
  · intro depth behind
    rw [List.append_assoc, skips, others]
  · intro depth behind
    rw [List.append_assoc, skips, others]

theorem afterQuote?_cons {depth : Nat} {quote c : Char} (notEscape : c ≠ '\\')
    (notQuote : c ≠ quote) (s : Text) :
    afterQuote? depth quote (c :: s) = afterQuote? depth quote s := by
  rw [afterQuote?, if_neg (by simpa using notQuote)]
  rintro _ _ same -
  exact notEscape same

theorem afterQuote?_quote {depth : Nat} {quote : Char} (notEscape : quote ≠ '\\') (s : Text) :
    afterQuote? depth quote (quote :: s) = afterBraces? depth s := by
  rw [afterQuote?, if_pos (beq_self_eq_true quote)]
  rintro _ _ same -
  exact notEscape same

theorem afterBraces?_loose {depth : Nat} {c : Char} (loose : isLoose c = true) (s : Text) :
    afterBraces? depth (c :: s) = afterBraces? depth s := by
  simp only [isLoose, Bool.not_eq_true', Bool.or_eq_false_iff] at loose
  obtain ⟨⟨notQuote, notOpen⟩, notClose⟩ := loose
  rw [afterBraces?, notOpen, notClose, notQuote]
  rfl

theorem afterBraces?_backtick (depth : Nat) (s : Text) :
    afterBraces? depth ('\x60' :: s) = afterQuote? depth '\x60' s := by
  rw [afterBraces?, if_neg (by decide), if_neg (by decide), if_pos (by decide)]

theorem Skips.loose {c : Char} (loose : isLoose c = true) : Skips .code [c] :=
  fun _ rest => afterBraces?_loose loose rest

theorem Skips.part {c : Char} (notQuote : c ≠ '\x60') (notEscape : c ≠ '\\') :
    Skips .string [c] :=
  fun _ rest => afterQuote?_cons notEscape notQuote rest

theorem Skips.escape (c : Char) : Skips .string ['\\', c] := by
  intro depth rest
  rw [List.cons_append, List.singleton_append, afterQuote?]

theorem Skips.escaped (escaped : IsEscaped '\x60' inside) : Skips .string inside := by
  induction escaped with
  | nil => exact .nil
  | @escape c _ _ ih => exact .append (.escape c) ih
  | char notEscape notQuote _ ih => exact .append (.part notQuote notEscape) ih

theorem Skips.group (skips : Skips met inside) : Skips met ('{' :: (inside ++ ['}'])) := by
  cases met
  · trivial
  · intro depth rest
    rw [List.cons_append, List.append_assoc, afterBraces?, if_pos (by decide), skips,
      List.singleton_append, afterBraces?_inner]
  · have opens : Skips .string ['{'] := .part (by decide) (by decide)
    have closes : Skips .string ['}'] := .part (by decide) (by decide)
    exact opens.append (skips.append closes)

theorem Skips.string {quote : Char} (quotes : quote = '"' ∨ quote = '\'')
    (escaped : IsEscaped quote inside) (inString : met = .string → IsEscaped '\x60' inside) :
    Skips met (quote :: (inside ++ [quote])) := by
  cases met
  · trivial
  · intro depth rest
    rw [List.cons_append, List.append_assoc, List.singleton_append,
      afterBraces?_string (by rcases quotes with rfl | rfl <;> rfl) escaped]
  · have mark : Skips .string [quote] := by
      rcases quotes with rfl | rfl <;> exact .part (by decide) (by decide)
    exact mark.append ((Skips.escaped (inString rfl)).append mark)

theorem Skips.template (skips : Skips met.flip inside) :
    Skips met ('\x60' :: (inside ++ ['\x60'])) := by
  cases met
  · trivial
  · intro depth rest
    rw [List.cons_append, List.append_assoc, List.singleton_append, afterBraces?_backtick, skips,
      afterQuote?_quote (by decide)]
  · intro depth rest
    rw [List.cons_append, List.append_assoc, List.singleton_append,
      afterQuote?_quote (by decide), skips, afterBraces?_backtick]

mutual

/-- An expression is skipped in the way that the scanner meets it. -/
theorem IsExpression.skips {met : Meeting} {s : Text} : IsExpression met s → Skips met s
  | .nil => .nil
  | .char loose notEscape others => by
    refine .append (s := [_]) ?_ others.skips
    cases met
    · trivial
    · exact .loose loose
    · refine .part ?_ notEscape
      rintro rfl
      exact absurd loose (by decide)
  | .group isExpression others => by
    have skips := (Skips.group isExpression.skips).append others.skips
    rwa [List.cons_append, List.append_assoc, List.singleton_append] at skips
  | .string quotes escaped inString others => by
    have skips := (Skips.string quotes escaped inString).append others.skips
    rwa [List.cons_append, List.append_assoc, List.singleton_append] at skips
  | .template isLiteral others => by
    have skips := (Skips.template isLiteral.skips).append others.skips
    rwa [List.cons_append, List.append_assoc, List.singleton_append] at skips

/-- The inside of a literal is skipped in the other way. -/
theorem IsLiteral.skips {met : Meeting} {s : Text} : IsLiteral met s → Skips met.flip s
  | .nil => .nil
  | .char notQuote notEscape _ loose others => by
    refine .append (s := [_]) ?_ others.skips
    cases met
    · trivial
    · exact .part notQuote notEscape
    · exact .loose (loose rfl)
  | .escape loose others => by
    refine .append (s := [_, _]) ?_ others.skips
    cases met
    · trivial
    · exact .escape _
    · exact (Skips.loose (by decide)).append (.loose (loose rfl))
  | .substitution isExpression others => by
    have dollar : Skips met.flip ['$'] := by
      cases met
      · trivial
      · exact .part (by decide) (by decide)
      · exact .loose (by decide)
    have skips := dollar.append ((Skips.group isExpression.skips).append others.skips)
    rwa [List.singleton_append, List.cons_append, List.append_assoc, List.singleton_append] at skips

end

/-! ## The end of a group -/

/-- Both scans of the group around the text end at its closing brace. -/
def EndsAtBrace (s : Text) : Prop :=
  ∀ rest, TagGrammar.jsx.openTag .inline ('{' :: (s ++ '}' :: rest)) = some ⟨[], s.length + 2⟩ ∧
    TagGrammar.jsx.selfClosing .inline ('{' :: (s ++ '}' :: rest)) = some (s.length + 2)

theorem openTag?_group (s : Text) :
    openTag? .inline ('{' :: s) = (afterBraces? 1 s).map (⟨[], true, ·⟩) := by
  rw [openTag?]
  cases afterBraces? 1 s <;> rfl

theorem endsAtBrace_iff : EndsAtBrace s ↔ IsBraced s := by
  constructor
  · intro ends
    obtain ⟨tag, opened, same⟩ := Option.map_eq_some_iff.mp (ends []).1
    rw [openTag?_group] at opened
    obtain ⟨rest, group, rfl⟩ := Option.map_eq_some_iff.mp opened
    obtain ⟨inside, isText, braced⟩ := afterBraces?_reads_group group
    have length : rest.length = 0 := by
      have whole := congrArg List.length isText
      have taken := congrArg FoundTag.length same
      simp only [List.length_append, List.length_cons, List.length_nil] at whole taken
      omega
    rw [List.eq_nil_of_length_eq_zero length] at isText
    rwa [List.append_cancel_right isText]
  · intro braced rest
    have opened : openTag? .inline ('{' :: (s ++ '}' :: rest)) = some ⟨[], true, rest⟩ := by
      rw [openTag?_group, afterBraces?_group braced]
      rfl
    have taken : ('{' :: (s ++ '}' :: rest)).length - rest.length = s.length + 2 := by
      simp only [List.length_append, List.length_cons]
      omega
    simp only [TagGrammar.jsx, opened, Option.filter_some, Option.map_some, if_true, taken,
      and_self]

theorem isBraced_of_skips (skips : Skips .code s) : IsBraced s := by
  have found : afterBraces? 1 (s ++ '}' :: []) = some [] := by
    rw [skips 0]
    rfl
  obtain ⟨inside, same, braced⟩ := afterBraces?_reads_group found
  rwa [List.append_cancel_right same]

end Jsx

open Jsx in
/-- Both scans of a group end at its brace exactly when the text in it is balanced with its strings
and template literals taken as they are. That is so for every expression that is met well. -/
theorem jsx_expression (s : Text) :
    (EndsAtBrace s ↔ IsBraced s) ∧ (IsExpression .code s → EndsAtBrace s) :=
  ⟨endsAtBrace_iff, fun isExpression => endsAtBrace_iff.mpr (isBraced_of_skips isExpression.skips)⟩

open Jsx in
/-- A literal in the substitution of another one, without quotes and braces. -/
theorem jsx_expression_literals :
    IsExpression .code "\x60$\x7b\x60x\x60\x7d\x60".toList ∧
      EndsAtBrace "\x60$\x7b\x60x\x60\x7d\x60".toList := by
  have inner : IsExpression .string ['\x60', 'x', '\x60'] :=
    .template (.char (by decide) (by decide) (by decide) (by decide) .nil) .nil
  have literal : IsLiteral .code ['$', '{', '\x60', 'x', '\x60', '}'] :=
    @IsLiteral.substitution .code ['\x60', 'x', '\x60'] [] inner .nil
  have outer : IsExpression .code "\x60$\x7b\x60x\x60\x7d\x60".toList :=
    .template literal .nil
  exact ⟨outer, (jsx_expression _).2 outer⟩

open Jsx in
/-- In a literal that stands in the substitution of another one a brace is taken for the end. -/
theorem jsx_expression_nested :
    IsExpression .unmet "\x60a$\x7b\x60\x7d\x60\x7db\x60".toList ∧
      ¬ EndsAtBrace "\x60a$\x7b\x60\x7d\x60\x7db\x60".toList := by
  have inner : IsExpression .unmet ['\x60', '}', '\x60'] :=
    .template (.char (by decide) (by decide) (by decide) (by decide) .nil) .nil
  have last : IsLiteral .unmet ['b'] :=
    .char (by decide) (by decide) (by decide) (by decide) .nil
  have literal : IsLiteral .unmet ['a', '$', '{', '\x60', '}', '\x60', '}', 'b'] :=
    .char (by decide) (by decide) (by decide) (by decide)
      (@IsLiteral.substitution .unmet ['\x60', '}', '\x60'] ['b'] inner last)
  refine ⟨.template literal .nil, fun ends => ?_⟩
  have tooFar := (ends []).2
  exact absurd tooFar (by decide)

end ComponentMarkdown
