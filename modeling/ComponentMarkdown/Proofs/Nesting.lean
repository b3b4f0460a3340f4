import ComponentMarkdown.Token

/-!
# Well-nested tokens

Tokens are read with a stack of those that are open. The file has:

* `readToken`, which checks that a closing token answers the opening one and that a level is the
  depth, and `openBehind` for several tokens;
* `WellNested` for a whole list, and `NestsAt` for tokens that stand somewhere in one;
* `NestsAt.append` and `NestsAt.enclosed`, from which nesting is built up.
-/

namespace ComponentMarkdown

/-- The kind of the tokens that close what a token of this kind opens. -/
def TokenKind.closing? : TokenKind → Option TokenKind
  | paragraphOpen => some paragraphClose
  | headingOpen => some headingClose
  | blockquoteOpen => some blockquoteClose
  | bulletListOpen => some bulletListClose
  | orderedListOpen => some orderedListClose
  | listItemOpen => some listItemClose
  | emOpen => some emClose
  | strongOpen => some strongClose
  | linkOpen => some linkClose
  | embeddedInline => some embeddedInline
  | _ => none

/-- Does a closing token answer this opening token? -/
def Token.isAnsweredBy (opening closing : Token) : Bool :=
  opening.kind.closing? = some closing.kind && opening.tag = closing.tag &&
    opening.level = closing.level

/-- Reads a token when those of `opened` are open, the innermost one first. Its level has to be the
number of tokens that are open around it. -/
def readToken (opened : List Token) (token : Token) : Option (List Token) :=
  match token.nesting with
  | .opening => if token.level = opened.length then some (token :: opened) else none
  | .selfClosing => if token.level = opened.length then some opened else none
  | .closing =>
    match opened with
    | [] => none
    | opening :: outer =>
      if token.level = outer.length ∧ opening.isAnsweredBy token then some outer else none

/-- The tokens that are open behind `tokens`. -/
def openBehind (opened tokens : List Token) : Option (List Token) :=
  tokens.foldlM readToken opened

/-- Every opening token is answered by a closing one, in the order of nesting, and the level of each
token is its depth. -/
def WellNested (tokens : List Token) : Prop :=
  openBehind [] tokens = some []

instance (tokens : List Token) : Decidable (WellNested tokens) :=
  decidable_of_iff ((openBehind [] tokens).map List.isEmpty = some true) (by
    simp [WellNested, Option.map_eq_some_iff])

theorem openBehind_cons (opened : List Token) (token : Token) (tokens : List Token) :
    openBehind opened (token :: tokens) = (readToken opened token).bind (openBehind · tokens) :=
  List.foldlM_cons

theorem openBehind_append (opened tokens more : List Token) :
    openBehind opened (tokens ++ more) = (openBehind opened tokens).bind (openBehind · more) :=
  List.foldlM_append

/-- Tokens at a depth of `level` leave what is open around them as it is. -/
def NestsAt (level : Nat) (tokens : List Token) : Prop :=
  ∀ opened : List Token, opened.length = level → openBehind opened tokens = some opened

theorem NestsAt.wellNested {tokens : List Token} (nests : NestsAt 0 tokens) :
    WellNested tokens :=
  nests [] rfl

theorem nestsAt_nil (level : Nat) : NestsAt level [] :=
  fun _ _ => rfl

theorem NestsAt.append {level : Nat} {tokens more : List Token} (first : NestsAt level tokens)
    (second : NestsAt level more) : NestsAt level (tokens ++ more) := by
  intro opened depth
  rw [openBehind_append, first opened depth]
  exact second opened depth

/-- A token that is complete on its own. -/
theorem nestsAt_selfClosing {token : Token} (complete : token.nesting = .selfClosing) :
    NestsAt token.level [token] := by
  intro opened depth
  simp [openBehind, readToken, complete, depth]

/-- An opening and a closing token around tokens that are one level deeper. -/
theorem NestsAt.enclosed {opening closing : Token} {body : List Token}
    (nests : NestsAt (opening.level + 1) body) (opens : opening.nesting = .opening)
    (closes : closing.nesting = .closing) (answered : opening.isAnsweredBy closing) :
    NestsAt opening.level (opening :: body ++ [closing]) := by
  intro opened depth
  have level : closing.level = opened.length := by
    simp only [Token.isAnsweredBy, Bool.and_eq_true, decide_eq_true_eq] at answered
    rw [depth, answered.2]
  have opensHere : readToken opened opening = some (opening :: opened) := by
    simp [readToken, opens, depth]
  have closesHere : readToken (opening :: opened) closing = some opened := by
    simp [readToken, closes, level, answered]
  have inside : openBehind (opening :: opened) body = some (opening :: opened) :=
    nests (opening :: opened) (by rw [List.length_cons, depth])
  rw [List.cons_append, openBehind_cons, opensHere, Option.bind_some, openBehind_append, inside,
    Option.bind_some, openBehind_cons, closesHere]
  rfl

end ComponentMarkdown
