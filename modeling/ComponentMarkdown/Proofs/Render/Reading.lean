import ComponentMarkdown.Proofs.Balance
import ComponentMarkdown.Text.Quoted

/-!
# Reading rendered code

Rendered code is a list of expressions. An expression is a string of JSON, or else a call of a name
with an object of strings and any number of further expressions. The file has:

* `Quoted.read?` for strings, and `Quoted.read_quote`, which gives back what was quoted;
* `Node`, what an expression denotes, and `Reads`, the grammar of expressions;
* `Reads.unique`: there is one way to read an expression at most, and `ReadsAll.unique` for code.
-/

namespace ComponentMarkdown

/-! ## Strings -/

namespace Quoted

/-- The character for an escape of one letter. -/
def unescapeChar? : Char → Option Char
  | '"' => some '"'
  | '\\' => some '\\'
  | '/' => some '/'
  | 'b' => some '\x08'
  | 'f' => some '\x0c'
  | 'n' => some '\n'
  | 'r' => some '\r'
  | 't' => some '\t'
  | _ => none

def hexValue (c : Char) : Nat :=
  if c.isDigit then c.toNat - '0'.toNat else 10 + (c.toLower.toNat - 'a'.toNat)

/-- The character for an escape of four hexadecimal digits. None is for half of a pair. -/
def unicodeChar? (digits : Text) : Option Char :=
  let code := digits.foldl (fun code digit => 16 * code + hexValue digit) 0
  if digits.all isHexDigit && code.isValidChar then some (Char.ofNat code) else none

/-- What a string whose first quote was read denotes, and what is behind it. -/
def read? : Text → Option (Text × Text)
  | [] => none
  | '"' :: rest => some ([], rest)
  | '\\' :: 'u' :: a :: b :: c :: d :: rest => do
    let char ← unicodeChar? [a, b, c, d]
    let (content, behind) ← read? rest
    return (char :: content, behind)
  | '\\' :: c :: rest => do
    let char ← unescapeChar? c
    let (content, behind) ← read? rest
    return (char :: content, behind)
  | c :: rest =>
    if 0x20 ≤ c.toNat && c != '\\' then do
      let (content, behind) ← read? rest
      return (c :: content, behind)
    else none

theorem unicodeChar_control : ∀ n < 0x20,
    unicodeChar? ['0', '0', hexDigit (n / 16), hexDigit (n % 16)] = some (Char.ofNat n) := by
  decide

/-- A string reads one character of what was quoted after the other. -/
theorem read_escapeChar (c : Char) {s content behind : Text}
    (found : read? s = some (content, behind)) :
    read? (escapeChar c ++ s) = some (c :: content, behind) := by
  unfold escapeChar
  split
  case h_8 notQuote notBackslash _ _ _ _ _ =>
    split
    · next control =>
      have decoded := unicodeChar_control c.toNat control
      rw [Char.ofNat_toNat] at decoded
      simp [read?, decoded, found]
    · next printable =>
      have shown : 0x20 ≤ c.toNat := by omega
      have plain : c ≠ '\\' := notBackslash
      rw [List.singleton_append, read?]
      · have allowed : (decide (0x20 ≤ c.toNat) && c != '\\') = true := by simp [shown, plain]
        rw [allowed, found]
        rfl
      · exact notQuote
      · intro a b c d rest isBackslash
        exact absurd isBackslash notBackslash
      · intro a rest isBackslash
        exact absurd isBackslash notBackslash
  all_goals simp [read?, unescapeChar?, found]

theorem read_quote (s rest : Text) :
    read? (s.flatMap escapeChar ++ '"' :: rest) = some (s, rest) := by
  induction s with
  | nil => rfl
  | cons c s ih =>
    rw [List.flatMap_cons, List.append_assoc]
    exact read_escapeChar c ih

end Quoted

/-! ## The grammar -/

/-- What an expression denotes. -/
inductive Node where
  | text (content : Text)
  | element (name : Text) (attrs : List (Text × Text)) (children : List Node)

/-- The text behind white space. -/
def skipBlank (s : Text) : Text :=
  s.dropWhile isAsciiBlank

/-- A name and a string behind white space, with a colon between them. -/
def readField? (s : Text) : Option ((Text × Text) × Text) :=
  match skipBlank s with
  | '"' :: s => do
    let (name, s) ← Quoted.read? s
    match skipBlank s with
    | ':' :: s =>
      match skipBlank s with
      | '"' :: s => do
        let (value, behind) ← Quoted.read? s
        return ((name, value), behind)
      | _ => none
    | _ => none
  | _ => none

/-- The fields of an object up to its closing brace. -/
inductive ReadsFields : Text → List (Text × Text) → Text → Prop
  | last {s behind rest : Text} {field : Text × Text} (found : readField? s = some (field, behind))
      (closes : skipBlank behind = '}' :: rest) : ReadsFields s [field] rest
  | more {s behind next rest : Text} {field : Text × Text} {fields : List (Text × Text)}
      (found : readField? s = some (field, behind)) (goesOn : skipBlank behind = ',' :: next)
      (others : ReadsFields next fields rest) : ReadsFields s (field :: fields) rest

/-- An object of strings. -/
inductive ReadsObject : Text → List (Text × Text) → Text → Prop
  | empty {s rest : Text} (closes : skipBlank s = '}' :: rest) : ReadsObject ('{' :: s) [] rest
  | fields {s rest : Text} {attrs : List (Text × Text)} (fields : ReadsFields s attrs rest) :
      ReadsObject ('{' :: s) attrs rest

/-- The parts of code. -/
inductive Part where
  | expression
  /-- The arguments of a call behind the first one, with its closing parenthesis. -/
  | arguments
  /-- What stands behind the first expression of the code. -/
  | others
deriving DecidableEq

/-- The nodes that a part at the front of a text denotes, and the text behind the part. -/
inductive Reads : Part → Text → List Node → Text → Prop
  | string {s content rest : Text} (found : Quoted.read? s = some (content, rest)) :
      Reads .expression ('"' :: s) [.text content] rest
  | call {name s behind rest : Text} {attrs : List (Text × Text)} {children : List Node}
      (named : IsName name) (object : ReadsObject s attrs behind)
      (arguments : Reads .arguments behind children rest) :
      Reads .expression (name ++ '(' :: s) [.element name attrs children] rest
  | close {s rest : Text} (closes : skipBlank s = ')' :: rest) : Reads .arguments s [] rest
  /-- A comma may stand behind the last argument. -/
  | trailing {s behind rest : Text} (comma : skipBlank s = ',' :: behind)
      (closes : skipBlank behind = ')' :: rest) : Reads .arguments s [] rest
  | finish {s : Text} (ended : skipBlank s = []) : Reads .others s [] []
  | more {part : Part} {s behind next rest : Text} {node nodes : List Node}
      (isList : part ≠ .expression) (comma : skipBlank s = ',' :: behind)
      (first : Reads .expression (skipBlank behind) node next)
      (others : Reads part next nodes rest) : Reads part s (node ++ nodes) rest

/-- Code denotes nodes: it is empty, or a list of expressions. -/
inductive ReadsAll : Text → List Node → Prop
  | empty {code : Text} (blank : skipBlank code = []) : ReadsAll code []
  | list {code behind : Text} {node nodes : List Node}
      (first : Reads .expression (skipBlank code) node behind)
      (others : Reads .others behind nodes []) : ReadsAll code (node ++ nodes)

/-! ## Uniqueness -/

theorem ReadsFields.unique {s rest rest' : Text} {fields fields' : List (Text × Text)}
    (reads : ReadsFields s fields rest) (other : ReadsFields s fields' rest') :
    fields = fields' ∧ rest = rest' := by
  induction reads generalizing fields' with
  | last found closes =>
    cases other with
    | last alsoFound alsoCloses =>
      cases found.symm.trans alsoFound
      cases closes.symm.trans alsoCloses
      exact ⟨rfl, rfl⟩
    | more alsoFound goesOn _ =>
      cases found.symm.trans alsoFound
      cases closes.symm.trans goesOn
  | more found goesOn others ih =>
    cases other with
    | last alsoFound closes =>
      cases found.symm.trans alsoFound
      cases goesOn.symm.trans closes
    | more alsoFound alsoGoesOn alsoOthers =>
      cases found.symm.trans alsoFound
      cases goesOn.symm.trans alsoGoesOn
      obtain ⟨rfl, rfl⟩ := ih alsoOthers
      exact ⟨rfl, rfl⟩

/-- A field begins with a quote, so the object is not at its end. -/
theorem ReadsFields.begins {s rest : Text} {fields : List (Text × Text)}
    (reads : ReadsFields s fields rest) : ∃ behind, skipBlank s = '"' :: behind := by
  have begins : ∀ {field behind}, readField? s = some (field, behind) →
      ∃ behind, skipBlank s = '"' :: behind := by
    intro field behind found
    unfold readField? at found
    split at found
    · next rest same => exact ⟨rest, same⟩
    · cases found
  cases reads with
  | last found closes => exact begins found
  | more found goesOn others => exact begins found

theorem ReadsObject.unique {s rest rest' : Text} {attrs attrs' : List (Text × Text)}
    (reads : ReadsObject s attrs rest) (other : ReadsObject s attrs' rest') :
    attrs = attrs' ∧ rest = rest' := by
  cases reads with
  | empty closes =>
    cases other with
    | empty alsoCloses =>
      cases closes.symm.trans alsoCloses
      exact ⟨rfl, rfl⟩
    | fields fields =>
      obtain ⟨behind, begins⟩ := fields.begins
      cases closes.symm.trans begins
  | fields fields =>
    cases other with
    | empty closes =>
      obtain ⟨behind, begins⟩ := fields.begins
      cases closes.symm.trans begins
    | fields others => exact fields.unique others

/-- A name ends where the parenthesis begins. -/
theorem IsName.unique {name name' s s' : Text} (named : IsName name) (other : IsName name')
    (same : name ++ '(' :: s = name' ++ '(' :: s') : name = name' ∧ s = s' := by
  have ends : ∀ {name s : Text}, IsName name →
      (name ++ '(' :: s).takeWhile Char.isAlphanum = name := by
    intro name s named
    rw [List.takeWhile_append_of_pos named.2, List.takeWhile_cons_of_neg (by decide),
      List.append_nil]
  have names : name = name' := by rw [← ends named, same, ends other]
  subst names
  exact ⟨rfl, (List.cons.inj (List.append_cancel_left same)).2⟩

theorem IsName.ne_cons {name : Text} (named : IsName name) {c : Char}
    (notLetter : c.isAlphanum = false) (s behind : Text) : name ++ '(' :: s ≠ c :: behind := by
  intro same
  cases name with
  | nil => exact named.1 rfl
  | cons letter name =>
    have isLetter := named.2 letter List.mem_cons_self
    rw [(List.cons.inj same).1, notLetter] at isLetter
    cases isLetter

/-- An expression is a string or a call. -/
theorem Reads.expression_cases {s rest : Text} {nodes : List Node}
    (reads : Reads .expression s nodes rest) :
    (∃ quoted content, s = '"' :: quoted ∧ Quoted.read? quoted = some (content, rest) ∧
        nodes = [.text content]) ∨
      ∃ name called attrs behind children, s = name ++ '(' :: called ∧ IsName name ∧
        ReadsObject called attrs behind ∧ Reads .arguments behind children rest ∧
        nodes = [.element name attrs children] := by
  generalize isExpression : Part.expression = part at reads
  cases reads with
  | string found => exact .inl ⟨_, _, rfl, found, rfl⟩
  | call named object arguments =>
    exact .inr ⟨_, _, _, _, _, rfl, named, object, arguments, rfl⟩
  | close | trailing | finish => cases isExpression
  | more isList => exact absurd isExpression.symm isList

/-- An expression does not begin like the end of the arguments. -/
theorem Reads.not_close {s rest : Text} {nodes : List Node}
    (reads : Reads .expression s nodes rest) (behind : Text) : s ≠ ')' :: behind := by
  rcases reads.expression_cases with ⟨quoted, content, rfl, -⟩ | ⟨name, s, _, _, _, rfl, named, -⟩
  · rintro ⟨⟩
  · exact named.ne_cons rfl s behind

theorem Reads.unique {part : Part} {s rest rest' : Text} {nodes nodes' : List Node}
    (reads : Reads part s nodes rest) (other : Reads part s nodes' rest') :
    nodes = nodes' ∧ rest = rest' := by
  induction reads generalizing nodes' rest' with
  | string found =>
    rcases other.expression_cases with ⟨_, _, same, alsoFound, rfl⟩ |
      ⟨name, _, _, _, _, same, named, -⟩
    · cases same
      cases found.symm.trans alsoFound
      exact ⟨rfl, rfl⟩
    · exact absurd same.symm (named.ne_cons rfl _ _)
  | @call name _ _ _ _ _ named object arguments ih =>
    rcases other.expression_cases with ⟨_, _, same, -⟩ |
      ⟨other, _, _, _, _, same, alsoNamed, alsoObject, alsoArguments, rfl⟩
    · exact absurd same (named.ne_cons rfl _ _)
    · obtain ⟨rfl, rfl⟩ := named.unique alsoNamed same
      obtain ⟨rfl, rfl⟩ := object.unique alsoObject
      obtain ⟨rfl, rfl⟩ := ih alsoArguments
      exact ⟨rfl, rfl⟩
  | close closes =>
    cases other with
    | close alsoCloses =>
      cases closes.symm.trans alsoCloses
      exact ⟨rfl, rfl⟩
    | trailing comma => cases closes.symm.trans comma
    | more _ comma => cases closes.symm.trans comma
  | trailing comma closes =>
    cases other with
    | close alsoCloses => cases comma.symm.trans alsoCloses
    | trailing alsoComma alsoCloses =>
      cases comma.symm.trans alsoComma
      cases closes.symm.trans alsoCloses
      exact ⟨rfl, rfl⟩
    | more _ alsoComma first =>
      -- Behind the same comma there is either the end or an expression.
      cases comma.symm.trans alsoComma
      exact absurd closes (first.not_close _)
  | finish ended =>
    cases other with
    | finish => exact ⟨rfl, rfl⟩
    | more _ comma => cases ended.symm.trans comma
  | more isList comma first others ihFirst ihOthers =>
    cases other with
    | string | call => exact absurd rfl isList
    | close closes => cases comma.symm.trans closes
    | trailing alsoComma closes =>
      cases comma.symm.trans alsoComma
      exact absurd closes (first.not_close _)
    | finish ended => cases comma.symm.trans ended
    | more _ alsoComma alsoFirst alsoOthers =>
      cases comma.symm.trans alsoComma
      obtain ⟨rfl, rfl⟩ := ihFirst alsoFirst
      obtain ⟨rfl, rfl⟩ := ihOthers alsoOthers
      exact ⟨rfl, rfl⟩

/-- Code denotes one list of nodes at most. -/
theorem ReadsAll.unique {code : Text} {nodes nodes' : List Node} (reads : ReadsAll code nodes)
    (other : ReadsAll code nodes') : nodes = nodes' := by
  have notBlank : ∀ {s nodes rest}, Reads .expression s nodes rest → s ≠ [] := by
    intro s nodes rest first
    rcases first.expression_cases with ⟨_, _, rfl, -⟩ | ⟨name, _, _, _, _, rfl, -⟩
    · exact List.cons_ne_nil _ _
    · exact List.append_ne_nil_of_right_ne_nil _ (List.cons_ne_nil _ _)
  cases reads with
  | empty blank =>
    cases other with
    | empty => rfl
    | list first => exact absurd blank (notBlank first)
  | list first others =>
    cases other with
    | empty blank => exact absurd blank (notBlank first)
    | list alsoFirst alsoOthers =>
      obtain ⟨rfl, rfl⟩ := first.unique alsoFirst
      obtain ⟨rfl, -⟩ := others.unique alsoOthers
      rfl

end ComponentMarkdown
