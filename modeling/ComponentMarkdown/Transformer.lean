import ComponentMarkdown.Script.Tree

/-!
# Transformers

A transformer turns embedded markup into code, or refuses it. The scanners of a document take a
refusal as "no embedded markup here", so a document has no errors of its own.
-/

namespace ComponentMarkdown

/-- Why embedded markup is refused. -/
inductive Refusal where
  /-- A reason that the transformer words itself. -/
  | refused (reason : Text)
  | malformed
  | emptyExpression
  | severalExpressions
  | statementCount (count : Nat)
  | notExpression (found : Script.StatementKind)
  | notElement (found : Script.ExpressionKind)
  | closeName (expected found : Text)
  | fragment
  | spreadExpected
  | spreadChild
  | emptyAttribute (name : Text)
  | interruptedAttribute
  | commentAttribute
deriving DecidableEq, Repr

/-- The wording of a refusal. -/
def Refusal.message : Refusal → Text
  | refused reason => reason
  | malformed => "embedded markup does not parse".toList
  | emptyExpression => "empty expression".toList
  | severalExpressions => "braces do not hold a single expression".toList
  | statementCount count =>
    "expected one expression, found ".toList ++ Text.ofNat count ++ " statements".toList
  | notExpression found => "expected an expression, found ".toList ++ found.name.toList
  | notElement found => "expected a JSX element, found ".toList ++ found.name.toList
  | closeName expected found =>
    "expected </".toList ++ expected ++ ">, found </".toList ++ found ++ ">".toList
  | fragment => "fragments are not supported".toList
  | spreadExpected => "expected a spread attribute".toList
  | spreadChild => "spread children are not supported".toList
  | emptyAttribute name =>
    "attribute ".toList ++ name ++ " must not be an empty expression".toList
  | interruptedAttribute => "malformed attribute".toList
  | commentAttribute => "unexpected attribute html_comment".toList

/-- Turns embedded markup into code. -/
abbrev Transformer := Text → Except Refusal Text

/-- Drops white space and semicolons from both ends of code. -/
def tidyCode (code : Text) : Text :=
  (code.trim.trimWhile (· == ';')).trim

/-- The code for embedded markup, if the transformer accepts it. -/
def Transformer.embed? (transform : Transformer) (source : Text) : Option Text :=
  (transform source).toOption.map tidyCode

end ComponentMarkdown
