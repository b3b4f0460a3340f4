import ComponentMarkdown.Script.Trivia

/-!
# What a script holds

A script is read only as far as a document needs it: the kind of each statement, the kind of the
expression of an expression statement, and the markup elements with the source text of the code
inside them.
-/

namespace ComponentMarkdown.Script

/-- The kinds of expression. -/
inductive ExpressionKind where
  | identifier | undefined | this | super | nullLiteral | trueLiteral | falseLiteral
  | number | string | template | regex
  | object | array
  | functionExpression | generatorFunction | arrowFunction | classExpression
  | metaProperty | importName | privateName
  | parenthesized | member | subscript | call | new
  | await | unary | binary | ternary | update | yield
  | assignment | augmentedAssignment
  | element | selfClosingElement
  | sequence
deriving DecidableEq, Repr

/-- The name of a kind of expression in messages. -/
def ExpressionKind.name : ExpressionKind → String
  | identifier => "identifier"
  | undefined => "undefined"
  | this => "this"
  | super => "super"
  | nullLiteral => "null"
  | trueLiteral => "true"
  | falseLiteral => "false"
  | number => "number"
  | string => "string"
  | template => "template_string"
  | regex => "regex"
  | object => "object"
  | array => "array"
  | functionExpression => "function_expression"
  | generatorFunction => "generator_function"
  | arrowFunction => "arrow_function"
  | classExpression => "class"
  | metaProperty => "meta_property"
  | importName => "import"
  | privateName => "private_property_identifier"
  | parenthesized => "parenthesized_expression"
  | member => "member_expression"
  | subscript => "subscript_expression"
  | call => "call_expression"
  | new => "new_expression"
  | await => "await_expression"
  | unary => "unary_expression"
  | binary => "binary_expression"
  | ternary => "ternary_expression"
  | update => "update_expression"
  | yield => "yield_expression"
  | assignment => "assignment_expression"
  | augmentedAssignment => "augmented_assignment_expression"
  | element => "jsx_element"
  | selfClosingElement => "jsx_self_closing_element"
  | sequence => "sequence_expression"

/-- Does the expression bind as tightly as a name does? -/
def ExpressionKind.isPrimary : ExpressionKind → Bool
  | await | unary | binary | ternary | update | yield | assignment | augmentedAssignment
  | element | selfClosingElement | sequence | new | importName | privateName => false
  | _ => true

/-- The kinds of statement and of what else stands at the top of a script. -/
inductive StatementKind where
  | hashBang | htmlComment
  | expression | block | empty
  | variableDeclaration | lexical | function | generator | classDeclaration
  | conditional | switch | forLoop | forIn | whileLoop | doLoop | tryBlock | withBlock
  | breakOut | continueOn | returnValue | throwValue | debugger | labeled
  | imported | exported
deriving DecidableEq, Repr

/-- The name of a kind of statement in messages. -/
def StatementKind.name : StatementKind → String
  | hashBang => "hash_bang_line"
  | htmlComment => "html_comment"
  | expression => "expression_statement"
  | block => "statement_block"
  | empty => "empty_statement"
  | variableDeclaration => "variable_declaration"
  | lexical => "lexical_declaration"
  | function => "function_declaration"
  | generator => "generator_function_declaration"
  | classDeclaration => "class_declaration"
  | conditional => "if_statement"
  | switch => "switch_statement"
  | forLoop => "for_statement"
  | forIn => "for_in_statement"
  | whileLoop => "while_statement"
  | doLoop => "do_statement"
  | tryBlock => "try_statement"
  | withBlock => "with_statement"
  | breakOut => "break_statement"
  | continueOn => "continue_statement"
  | returnValue => "return_statement"
  | throwValue => "throw_statement"
  | debugger => "debugger_statement"
  | labeled => "labeled_statement"
  | imported => "import_statement"
  | exported => "export_statement"

/-- What stands between the braces of a container. -/
inductive ContainerContent where
  /-- Nothing, or comments only. -/
  | blank
  | code
  | spread
deriving DecidableEq, Repr

/-- Code in braces inside markup; `source` includes the braces. -/
structure Container where
  source : Text
  content : ContainerContent
deriving DecidableEq, Repr

mutual

/-- An element of markup. Names are kept as they are written. -/
inductive Element where
  | selfClosing (name : Text) (attributes : List Attribute)
  | pair (name : Text) (attributes : List Attribute) (children : List Child) (closeName : Text)

/-- A part of an open tag behind its name. -/
inductive Attribute where
  | flag (name : Text)
  | text (name value : Text)
  | code (name : Text) (value : Container)
  | element (name : Text) (value : Element)
  /-- Code in braces without a name. -/
  | container (value : Container)
  /-- A name and a value with a comment between them. -/
  | interrupted (name : Text)
  /-- A comment of HTML, which counts as a part of the tag. -/
  | comment

/-- A part of the body of an element; text and nested parts together are the whole body. -/
inductive Child where
  | text (raw : Text)
  | element (value : Element)
  | container (value : Container)

end

/-- An expression, as far as its surroundings need to know it. Some literals can stand only for a
pattern (`{a = 1}`), some only for a value. -/
structure Expression where
  kind : ExpressionKind
  /-- May it stand where a value is wanted? -/
  isValue : Bool := true
  /-- May it stand where something is assigned to or bound? -/
  isTarget : Bool := false
  /-- Is it a target with a default value? -/
  isDefaulted : Bool := false
  /-- The markup, if the expression is an element. -/
  element : Option Element := none

/-- May the expression stand for a parameter or a part of a pattern? -/
def Expression.isPattern (e : Expression) : Bool :=
  e.isTarget || e.isDefaulted

/-- A statement; an expression statement has its expression and the text that follows it. -/
structure Statement where
  kind : StatementKind
  expression : Option (Expression × Text) := none

end ComponentMarkdown.Script
