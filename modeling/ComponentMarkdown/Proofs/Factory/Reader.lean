import ComponentMarkdown.Proofs.Factory.Hanging

/-!
# Reading scripts

A script is read one character at a time, as far as it takes to tell code from comments, strings,
templates, patterns and markup, and to know which brackets are open. A slash begins a pattern where
an operand is expected and divides behind one; an angle bracket begins a tag or compares. Where the
characters do not tell which, as behind a closing brace or at the end of a line, which may end a
statement, reading gives up. It also gives up at what begins a comment of HTML, since only some
scripts have such comments. The file has:

* what may come next in code (`Expected`), and what each character does (`Spot.next`);
* `Reader`, and what it cuts at commas (`split`);
* reading inside further brackets (`read_under`) and reading hanging lines (`read_hang`);
* `IsOperand`, a text that begins and ends in code with the brackets it began with.
-/

namespace ComponentMarkdown

/-! ## What may come next -/

/-- What may come next in code. -/
inductive Expected where
  | operand
  /-- An operand or a statement. -/
  | statement
  /-- An operator, since an operand was read. -/
  | operator
  /-- The name of a member. -/
  | name
  /-- The characters do not tell. -/
  | unclear
deriving DecidableEq, Repr

namespace Expected

/-- The operators that are words and stand before their operand. -/
def leadingWords : List String :=
  ["typeof", "void", "delete", "new"]

/-- The operators that are words and stand between two operands. -/
def infixWords : List String :=
  ["in", "instanceof"]

/-- The words that begin a statement or a part of one, and have an operand behind them. -/
def statementWords : List String :=
  ["return", "throw", "case"]

/-- The words that have a statement behind them. -/
def branchWords : List String :=
  ["else", "do"]

/-- The words that may be names, or that have an operand behind them in some places only. A
parenthesis behind one of them may belong to a statement. -/
def unclearWords : List String :=
  ["if", "while", "for", "with", "of", "await", "yield", "let", "break", "continue", "debugger",
   "default", "extends"]

/-- What may come behind a word. -/
def behindWord (before : Expected) (word : Text) : Expected :=
  let isAmong := fun (words : List String) => (words.map String.toList).contains word
  if before = name then operator
  else if isAmong leadingWords then operand
  else if isAmong infixWords then if before = operator then operand else unclear
  else if isAmong statementWords then if before = operand then unclear else operand
  else if isAmong branchWords then if before = operand then unclear else statement
  else if isAmong unclearWords then unclear
  else operator

/-- A whole number, of which a period behind it may be part. -/
def isNumeral (s : Text) : Bool :=
  s.head?.any Char.isDigit && s.all fun c => c.isDigit || c == '_'

/-- What may come behind words with periods between them. Behind a period stands the name of a
member, or the fraction of a number. Where the fraction is missing, it takes the number's notation
to tell whether the period is part of it. -/
def behindChain (before : Expected) (chain : Text) : Expected :=
  let last := (chain.reverse.takeWhile (· != '.')).reverse
  let front := chain.take (chain.length - last.length)
  if front.isEmpty then behindWord before last
  else if isNumeral front.dropLast then if last.head?.any Char.isDigit then operator else unclear
  else if last.isEmpty then name
  else operator

/-- What may come behind three periods and words. -/
def behindSpread (before : Expected) : Text → Expected
  | ['.', '.', '.'] => operand
  | '.' :: '.' :: '.' :: chain => behindChain operand chain
  | chain => behindChain before chain

/-- What may come behind other characters: an operand, but that those that count up and down may
stand behind one. -/
def behindOperator (s : Text) : Expected :=
  if ['+', '+'].isSuffixOf s || ['-', '-'].isSuffixOf s then unclear
  else if s.getLast? = some ';' then statement
  else operand

end Expected

/-! ## Characters of a script -/

/-- What braces or an element stand in. -/
inductive Host where
  | code
  | template
  /-- An open tag. -/
  | tag
  /-- The body of an element. -/
  | body
deriving DecidableEq, Repr

/-- An open bracket. -/
inductive Bracket where
  /-- A parenthesis; `sure` says whether what it closes is an operand. -/
  | round (sure : Bool)
  | square
  | curly (host : Host)
  | element (host : Host)
deriving DecidableEq, Repr

/-- What is being read. -/
inductive Spot where
  /-- Code. `run` is the word, the chain of words or the operator that is being read, and `before`
  is what was expected there. -/
  | code (run : Text) (before : Expected)
  /-- A slash was read in code. -/
  | slash (before : Expected)
  | lineComment (before : Expected)
  | blockComment (before : Expected) (star : Bool)
  | string (double escaped : Bool)
  | template (escaped dollar : Bool)
  /-- A regular expression. -/
  | pattern (inClass escaped : Bool)
  /-- The angle bracket that begins a tag was read. -/
  | angle (host : Host)
  /-- An open tag; `closes` says whether the slash that closes it was read. -/
  | tag (closes : Bool)
  /-- The string of an attribute, which has no escapes. -/
  | quoted (double : Bool)
  | closeTag
  /-- Text between tags. -/
  | body
  /-- Reading has given up: a bracket was closed that was not open, or the characters do not tell
  what is read. -/
  | stray
deriving DecidableEq, Repr

/-- What a character does. -/
inductive Move where
  | goes (spot : Spot)
  | opens (bracket : Bracket) (spot : Spot)
  | closes (c : Char)
deriving DecidableEq, Repr

/-- Where reading goes on when braces or an element end. -/
def Host.resume : Host → Spot
  | code => .code [] .unclear
  | template => .template false false
  | tag => .tag false
  | body => .body

/-- Where reading goes on behind the character, if it closes the bracket. -/
def Bracket.behind? : Bracket → Char → Option Spot
  | round sure, ')' => some (.code [] (if sure then .operator else .unclear))
  | square, ']' => some (.code [] .operator)
  | curly host, '\x7d' | element host, '>' => some host.resume
  | _, _ => none

namespace Spot

/-- A character of a chain of words. Private names begin with a hash. -/
def isRunChar (c : Char) : Bool :=
  Script.isWordChar c || c == '.' || c == '#'

/-- Does the character end a line of a script? -/
def endsLine (c : Char) : Bool :=
  c == '\n' || c == '\r' || Script.isSeparator c

/-- What may come behind a character of a gap or of a comment. The end of a line behind an operand
may end a statement there. -/
def behindGap (before : Expected) (c : Char) : Expected :=
  if endsLine c && before = .operator then .unclear else before

theorem behindGap_return_line (before : Expected) :
    behindGap (behindGap before '\r') '\n' = behindGap before '\n' := by
  cases before <;> rfl

/-- What may come behind a run. -/
def expects (run : Text) (before : Expected) : Expected :=
  match run.getLast? with
  | none => before
  | some c => if isRunChar c then .behindSpread before run else .behindOperator run

/-- The run with one more character, or a new run of another kind. -/
def extend (run : Text) (before : Expected) (c : Char) : Spot :=
  if run.getLast?.map isRunChar = some (isRunChar c) then code (run ++ [c]) before
  else code [c] (expects run before)

/-- The angle bracket compares behind an operand, and may be followed by another one there. -/
def angleNext (run : Text) (before : Expected) : Move :=
  let expected := expects run before
  if run = ['<'] || expected = .operator then .goes (extend run before '<')
  else if expected = .operand || expected = .statement then .goes (angle .code)
  else .goes stray

/-- Goes on with a run, but gives up at `mark`: a comment of HTML begins behind it, where there are
such comments. -/
def commentNext (mark run : Text) (before : Expected) (c : Char) : Move :=
  .goes (if mark.isSuffixOf run then stray else extend run before c)

def codeNext (run : Text) (before : Expected) (c : Char) : Move :=
  let expected := expects run before
  if Script.isGapBlank c then .goes (code [] (behindGap expected c))
  else match c with
    | '"' => .goes (string true false)
    | '\'' => .goes (string false false)
    | '\x60' => .goes (template false false)
    | '/' => .goes (slash expected)
    | '(' => .opens (.round (expected != .unclear)) (code [] .operand)
    | '[' => .opens .square (code [] .operand)
    | '\x7b' => .opens (.curly .code) (code [] .statement)
    | ')' | ']' | '\x7d' => .closes c
    | '<' => angleNext run before
    | '>' => commentNext ['-', '-'] run before '>'
    | '-' => commentNext ['<', '!', '-'] run before '-'
    | '\\' => .goes stray
    | _ => .goes (extend run before c)

/-- The characters that are no part of a run in code. -/
def marks : List Char :=
  ['"', '\'', '\x60', '/', '(', '[', '\x7b', ')', ']', '\x7d', '<', '>', '-', '\\']

/-- Other characters go on with a run or begin one. -/
theorem codeNext_of_not_mem {run : Text} {before : Expected} {c : Char}
    (notGap : Script.isGapBlank c = false) (plain : c ∉ marks) :
    codeNext run before c = .goes (extend run before c) := by
  simp only [marks, List.mem_cons, List.not_mem_nil, or_false, not_or] at plain
  fun_cases codeNext run before c with
  | case1 _ _ isGap => exact absurd isGap (Bool.eq_false_iff.mp notGap)
  | case16 => rfl
  | _ => simp at plain

def patternNext (inClass : Bool) (c : Char) : Spot :=
  if endsLine c then stray
  else match c with
    | '\\' => pattern inClass true
    | '[' => pattern true false
    | ']' => pattern false false
    -- a pattern counts as a private name, so that its flags go on with it
    | '/' => if inClass then pattern inClass false else code ['#'] .operand
    | _ => pattern inClass false

def slashNext (before : Expected) (c : Char) : Move :=
  if c == '/' then .goes (lineComment before)
  else if c == '*' then .goes (blockComment before false)
  else match before with
    | .operator => codeNext [] .operand c
    | .operand | .statement => .goes (patternNext false c)
    | .name | .unclear => .goes stray

def templateNext (dollar : Bool) (c : Char) : Move :=
  match c with
  | '\\' => .goes (template true false)
  | '\x60' => .goes (code [] .operator)
  | '$' => .goes (template false true)
  | '\x7b' =>
    if dollar then .opens (.curly .template) (code [] .operand) else .goes (template false false)
  | _ => .goes (template false false)

/-- A character of names in tags, or the sign between a name and its value. -/
def isTagChar (c : Char) : Bool :=
  Script.isWordChar c || c == '-' || c == ':' || c == '.' || c == '='

/-- Behind the angle bracket: a close tag, a tag without a name, or a name. -/
def tagBegins (host : Host) (c : Char) : Move :=
  if Script.isGapBlank c then .goes (angle host)
  else if c == '/' then .goes closeTag
  else if c == '>' then .opens (.element host) body
  else if Script.isWordChar c then .opens (.element host) (tag false)
  else .goes stray

def tagNext (closes : Bool) (c : Char) : Move :=
  if closes then if c == '>' then .closes '>' else .goes stray
  else if Script.isGapBlank c || isTagChar c then .goes (tag false)
  else match c with
    | '"' => .goes (quoted true)
    | '\'' => .goes (quoted false)
    | '\x7b' => .opens (.curly .tag) (code [] .operand)
    | '<' => .goes (angle .tag)
    | '/' => .goes (tag true)
    | '>' => .goes body
    | _ => .goes stray

def closeTagNext (c : Char) : Move :=
  if c == '>' then .closes '>'
  else if Script.isGapBlank c || isTagChar c then .goes closeTag
  else .goes stray

def bodyNext (c : Char) : Move :=
  match c with
  | '\x7b' => .opens (.curly .body) (code [] .operand)
  | '<' => .goes (angle .body)
  | '>' | '\x7d' => .goes stray
  | _ => .goes body

/-- What a character does where it is read. -/
def next : Spot → Char → Move
  | code run before, c => codeNext run before c
  | slash before, c => slashNext before c
  | lineComment before, c =>
    .goes (if endsLine c then code [] (behindGap before c) else lineComment before)
  | blockComment before star, c =>
    .goes (if star && c == '/' then code [] before
      else blockComment (behindGap before c) (c == '*'))
  | string double escaped, c =>
    .goes (if escaped then string double false
      else if c == '\\' then string double true
      else if c == (if double then '"' else '\'') then code [] .operator
      else string double false)
  | template escaped dollar, c =>
    if escaped then .goes (template false false) else templateNext dollar c
  | pattern inClass escaped, c =>
    .goes (if escaped && !endsLine c then pattern inClass false else patternNext inClass c)
  | angle host, c => tagBegins host c
  | tag closes, c => tagNext closes c
  | quoted double, c =>
    .goes (if c == (if double then '"' else '\'') then tag false else quoted double)
  | closeTag, c => closeTagNext c
  | body, c => bodyNext c
  | stray, _ => .goes stray

def isString : Spot → Bool
  | string .. => true
  | _ => false

def isComment : Spot → Bool
  | lineComment _ | blockComment .. => true
  | _ => false

theorem isComment_of_isString {spot : Spot} (inString : spot.isString) :
    spot.isComment = false := by
  cases spot with
  | string double escaped => rfl
  | _ => cases inString

end Spot

/-- Where reading stands, with the open brackets, the innermost first. -/
structure Reader where
  spot : Spot := .code [] .operand
  brackets : List Bracket := []
deriving DecidableEq, Repr

namespace Reader

/-- Reads a character. -/
def step (r : Reader) (c : Char) : Reader :=
  match r.spot.next c with
  | .goes spot => { r with spot }
  | .opens bracket spot => ⟨spot, bracket :: r.brackets⟩
  | .closes c =>
    match r.brackets with
    | [] => ⟨.stray, []⟩
    | innermost :: outer =>
      match innermost.behind? c with
      | some spot => ⟨spot, outer⟩
      | none => ⟨.stray, r.brackets⟩

/-- Reads a text. -/
def read (r : Reader) (s : Text) : Reader :=
  s.foldl step r

/-- Does every character of a text satisfy `p` where it is read? -/
def All (p : Reader → Char → Prop) (r : Reader) : Text → Prop
  | [] => True
  | c :: s => p r c ∧ All p (r.step c) s

/-- A comma in code outside of brackets. -/
def atComma (r : Reader) (c : Char) : Bool :=
  (r.spot matches .code ..) && r.brackets.isEmpty && c == ','

/-- Cuts a text at the commas outside of brackets. -/
def split (r : Reader) : Text → List Text
  | [] => [[]]
  | c :: s =>
    if r.atComma c then [] :: split (r.step c) s
    else (split (r.step c) s).modifyHead (c :: ·)

/-- Where an operand is expected. -/
def before (brackets : List Bracket) : Reader :=
  ⟨.code [] .operand, brackets⟩

/-! ## One text after the other -/

section

variable {r : Reader} {p q : Reader → Char → Prop} {c : Char} {s : Text}

theorem read_append (r : Reader) (s more : Text) : r.read (s ++ more) = (r.read s).read more :=
  List.foldl_append

theorem read_cons (r : Reader) (c : Char) (s : Text) : r.read (c :: s) = (r.step c).read s := rfl

theorem All.append {more : Text} (front : r.All p s) (behind : (r.read s).All p more) :
    r.All p (s ++ more) := by
  induction s generalizing r with
  | nil => exact behind
  | cons c s ih => exact ⟨front.1, ih front.2 behind⟩

theorem All.imp (implies : ∀ r c, p r c → q r c) (all : r.All p s) : r.All q s := by
  induction s generalizing r with
  | nil => trivial
  | cons c s ih => exact ⟨implies r c all.1, ih all.2⟩

theorem split_ne_nil (r : Reader) (s : Text) : r.split s ≠ [] := by
  induction s generalizing r with
  | nil => exact List.cons_ne_nil _ _
  | cons c s ih =>
    rw [split]
    split
    · exact List.cons_ne_nil _ _
    · exact mt List.modifyHead_eq_nil_iff.mp (ih _)

theorem split_cons (r : Reader) (notComma : c ≠ ',') (s : Text) :
    r.split (c :: s) = ((r.step c).split s).modifyHead (c :: ·) := by
  rw [split, if_neg (by simp [atComma, notComma])]

theorem split_whole (noComma : r.All (fun r c => r.atComma c = false) s) : r.split s = [s] := by
  induction s generalizing r with
  | nil => rfl
  | cons c s ih =>
    rw [split, if_neg (by simp [noComma.1]), ih noComma.2]
    rfl

theorem split_of_not_mem (noComma : ',' ∉ s) (r : Reader) : r.split s = [s] := by
  induction s generalizing r with
  | nil => rfl
  | cons c s ih =>
    rw [List.mem_cons, not_or] at noComma
    rw [split_cons r (Ne.symm noComma.1), ih noComma.2]
    rfl

/-- What is not cut goes before the first piece of what follows. -/
theorem split_append (whole : r.split s = [s]) (more : Text) :
    r.split (s ++ more) = ((r.read s).split more).modifyHead (s ++ ·) := by
  induction s generalizing r with
  | nil =>
    obtain ⟨piece, pieces, cut⟩ := List.exists_cons_of_ne_nil (split_ne_nil r more)
    exact cut ▸ rfl
  | cons c s ih =>
    rw [split] at whole
    split at whole
    · cases whole
    · next notCut =>
      have behind : (r.step c).split s = [s] := by
        obtain ⟨piece, pieces, cut⟩ := List.exists_cons_of_ne_nil (split_ne_nil (r.step c) s)
        rw [cut] at whole ⊢
        cases whole
        rfl
      rw [List.cons_append, split, if_neg notCut, ih behind, List.modifyHead_modifyHead]
      rfl

theorem split_cons_whole (notComma : c ≠ ',') (behind : (r.step c).split s = [s]) :
    r.split (c :: s) = [c :: s] := by
  rw [split_cons r notComma, behind]
  rfl

theorem split_append_whole {more : Text} (whole : r.split s = [s])
    (behind : (r.read s).split more = [more]) : r.split (s ++ more) = [s ++ more] := by
  rw [split_append whole, behind]
  rfl

end

/-! ## Inside brackets -/

/-- The reader inside further brackets. -/
def under (r : Reader) (below : List Bracket) : Reader :=
  { r with brackets := r.brackets ++ below }

theorem step_under {r : Reader} {c : Char} (sound : (r.step c).spot ≠ .stray)
    (below : List Bracket) : (r.under below).step c = (r.step c).under below := by
  rw [step, step, under] at *
  generalize r.spot.next c = moved at *
  cases moved with
  | goes spot => rfl
  | opens bracket spot => rfl
  | closes closing =>
    obtain ⟨old, brackets⟩ := r
    cases brackets with
    | nil => exact absurd rfl sound
    | cons innermost outer =>
      dsimp only [List.cons_append]
      cases innermost.behind? closing <;> rfl

theorem step_stray {r : Reader} (stray : r.spot = .stray) (c : Char) : r.step c = r := by
  obtain ⟨spot, brackets⟩ := r
  cases stray
  rfl

theorem read_stray {r : Reader} (stray : r.spot = .stray) (s : Text) : r.read s = r := by
  induction s with
  | nil => rfl
  | cons c s ih => rw [read_cons, step_stray stray, ih]

/-- The first step is sound if the whole text is read soundly. -/
theorem step_sound {r : Reader} {c : Char} {s : Text} (sound : (r.read (c :: s)).spot ≠ .stray) :
    (r.step c).spot ≠ .stray := by
  intro stray
  rw [read_cons, read_stray stray] at sound
  exact sound stray

/-- Brackets around a text make no difference to how it is read. -/
theorem read_under {r : Reader} {s : Text} (sound : (r.read s).spot ≠ .stray)
    (below : List Bracket) : (r.under below).read s = (r.read s).under below := by
  induction s generalizing r with
  | nil => rfl
  | cons c s ih =>
    rw [read_cons, step_under (step_sound sound), ih sound]
    rfl

/-- No comma inside brackets cuts a text. -/
theorem split_under {r : Reader} {s : Text} (sound : (r.read s).spot ≠ .stray) {bracket : Bracket}
    {below : List Bracket} : (r.under (bracket :: below)).split s = [s] := by
  induction s generalizing r with
  | nil => rfl
  | cons c s ih =>
    rw [split, if_neg (by simp [atComma, under]), step_under (step_sound sound), ih sound]
    rfl

/-! ## Hanging lines -/

theorem step_line_space (r : Reader) : (r.step '\n').step ' ' = r.step '\n' := by
  obtain ⟨spot, brackets⟩ := r
  cases spot with
  | code | lineComment | angle | closeTag | body | stray => rfl
  | slash before => cases before <;> rfl
  | blockComment before star => cases star <;> rfl
  | string double escaped => cases double <;> cases escaped <;> rfl
  | template escaped dollar => cases escaped <;> cases dollar <;> rfl
  | pattern inClass escaped => cases escaped <;> rfl
  | tag closes => cases closes <;> rfl
  | quoted double => cases double <;> rfl

theorem step_return_line (r : Reader) : (r.step '\r').step '\n' = r.step '\n' := by
  obtain ⟨spot, brackets⟩ := r
  cases spot with
  | code run before =>
    exact congrArg (fun expected => Reader.mk (.code [] expected) brackets)
      (Spot.behindGap_return_line (Spot.expects run before))
  | lineComment before =>
    exact congrArg (fun expected => Reader.mk (.code [] expected) brackets)
      (Spot.behindGap_return_line before)
  | blockComment before star =>
    have same := congrArg (fun expected => Reader.mk (.blockComment expected false) brackets)
      (Spot.behindGap_return_line before)
    cases star <;> exact same
  | angle | closeTag | body | stray => rfl
  | slash before => cases before <;> rfl
  | string double escaped => cases double <;> cases escaped <;> rfl
  | template escaped dollar => cases escaped <;> cases dollar <;> rfl
  | pattern inClass escaped => cases escaped <;> rfl
  | tag closes => cases closes <;> rfl
  | quoted double => cases double <;> rfl

/-- Lines that hang are read as they were. -/
theorem read_hang (r : Reader) (s : Text) : r.read (Factory.hang s) = r.read s := by
  fun_induction Factory.hang s generalizing r with
  | case1 => rfl
  | case2 rest ih => simp only [read_cons, step_line_space, step_return_line, ih]
  | case3 rest ih => simp only [read_cons, step_line_space, ih]
  | case4 c rest _ _ ih => exact ih (r.step c)

/-- The first piece begins as the text does. -/
theorem head?_of_split {r : Reader} {s piece : Text} {pieces : List Text} {c : Char}
    (cut : r.split s = piece :: pieces) (begins : piece.head? = some c) : s.head? = some c := by
  cases s with
  | nil =>
    cases cut
    cases begins
  | cons d s =>
    rw [split] at cut
    split at cut
    · cases cut
      cases begins
    · obtain ⟨first, others, same⟩ := List.exists_cons_of_ne_nil (split_ne_nil (r.step d) s)
      rw [same] at cut
      cases cut
      exact begins

/-- Lines that hang are cut where they were cut. -/
theorem split_hang (r : Reader) (s : Text) :
    r.split (Factory.hang s) = (r.split s).map Factory.hang := by
  have two (r : Reader) (s : Text) : r.split ('\n' :: ' ' :: ' ' :: s) =
      ((r.step '\n').split s).modifyHead ('\n' :: ' ' :: ' ' :: ·) := by
    rw [split_cons r (by decide), split_cons _ (by decide), split_cons _ (by decide),
      step_line_space, step_line_space, List.modifyHead_modifyHead, List.modifyHead_modifyHead]
    rfl
  fun_induction Factory.hang s generalizing r with
  | case1 => rfl
  | case2 rest ih =>
    rw [two, ih, split_cons r (by decide), split_cons _ (by decide), step_return_line]
    obtain ⟨piece, pieces, cut⟩ := List.exists_cons_of_ne_nil (split_ne_nil (r.step '\n') rest)
    rw [cut]
    rfl
  | case3 rest ih =>
    rw [two, ih, split_cons r (by decide)]
    obtain ⟨piece, pieces, cut⟩ := List.exists_cons_of_ne_nil (split_ne_nil (r.step '\n') rest)
    rw [cut, List.modifyHead_cons, List.map_cons, List.map_cons, Factory.hang_newline]
    rfl
  | case4 c rest notReturn notLine ih =>
    rw [split, split, ih]
    split
    · rfl
    · obtain ⟨piece, pieces, cut⟩ := List.exists_cons_of_ne_nil (split_ne_nil (r.step c) rest)
      -- the piece begins as the rest does, so no carriage return gets next to a line feed
      rw [cut, List.modifyHead_cons, List.map_cons, List.map_cons, Factory.hang_cons notLine]
      · rfl
      · intro isReturn begins
        obtain ⟨tail, rfl⟩ := List.head?_eq_some_iff.mp (head?_of_split cut begins)
        exact notReturn tail isReturn rfl

theorem read_hangBy (r : Reader) (level : Nat) (s : Text) :
    r.read (Factory.hangBy level s) = r.read s := by
  induction level with
  | zero => rfl
  | succ level ih => rw [Factory.hangBy, read_hang, ih]

/-! ## Lists -/

/-- What a text lists: its pieces between the commas outside of brackets, without blanks around
them. -/
def items (s : Text) : List Text :=
  (split {} s).map Text.trim

theorem read_blank {s : Text} (blank : ∀ c ∈ s, c = ' ' ∨ c = '\n') (brackets : List Bracket) :
    (before brackets).read s = before brackets := by
  induction s with
  | nil => rfl
  | cons c s ih =>
    obtain ⟨first, blank⟩ := List.forall_mem_cons.mp blank
    have stays : (before brackets).step c = before brackets := by
      rcases first with rfl | rfl <;> rfl
    rw [read_cons, stays, ih blank]

/-- What has no commas and comes behind a text goes to its last piece. -/
theorem split_behind {r : Reader} {behind : Text} (noComma : ',' ∉ behind) (s : Text) :
    ∃ front last, r.split s = front ++ [last] ∧
      r.split (s ++ behind) = front ++ [last ++ behind] := by
  induction s generalizing r with
  | nil =>
    exact ⟨[], [], rfl, split_of_not_mem noComma r⟩
  | cons c s ih =>
    obtain ⟨front, last, cut, cutMore⟩ := @ih (r.step c)
    rw [List.cons_append, split, split, cut, cutMore]
    split
    · exact ⟨[] :: front, last, rfl, rfl⟩
    · cases front with
      | nil => exact ⟨[], c :: last, rfl, rfl⟩
      | cons piece front => exact ⟨(c :: piece) :: front, last, rfl, rfl⟩

/-- Blanks around a text list nothing. -/
theorem items_between {front behind : Text} (blankFront : ∀ c ∈ front, c = ' ' ∨ c = '\n')
    (blankBehind : ∀ c ∈ behind, c = ' ' ∨ c = '\n') (s : Text) :
    items (front ++ s ++ behind) = items s := by
  have blanks {s : Text} (blank : ∀ c ∈ s, c = ' ' ∨ c = '\n') : ∀ c ∈ s, isBlank c := by
    intro c member
    rcases blank c member with rfl | rfl <;> decide
  have noComma {s : Text} (blank : ∀ c ∈ s, c = ' ' ∨ c = '\n') : ',' ∉ s :=
    fun member => absurd (blank _ member) (by decide)
  obtain ⟨others, last, cut, cutMore⟩ := @split_behind {} behind (noComma blankBehind) s
  have fromFront := split_append (split_of_not_mem (noComma blankFront) {}) (s ++ behind)
  have read : Reader.read {} front = {} := read_blank blankFront []
  rw [items, List.append_assoc, fromFront, read, cutMore, items, cut]
  cases others with
  | nil =>
    have single := Factory.trim_around (blanks blankFront) (blanks blankBehind) last
    rw [List.append_assoc] at single
    exact congrArg ([·]) single
  | cons piece others =>
    have first := Factory.trim_around (blanks blankFront) (List.forall_mem_nil _) piece
    have ends := Factory.trim_around (List.forall_mem_nil _) (blanks blankBehind) last
    rw [List.append_nil] at first
    rw [List.nil_append] at ends
    simp [first, ends]

theorem items_hang (s : Text) : items (Factory.hang s) = (items s).map Factory.hang := by
  rw [items, split_hang, items, List.map_map, List.map_map]
  exact List.map_congr_left fun piece _ => Factory.trim_hang piece

/-- Lines that hang list what they listed. -/
theorem items_hangBy (level : Nat) (s : Text) :
    items (Factory.hangBy level s) = (items s).map (Factory.hangBy level) := by
  induction level with
  | zero => exact (List.map_id _).symm
  | succ level ih =>
    rw [Factory.hangBy, items_hang, ih, List.map_map]
    rfl

end Reader

/-! ## Operands -/

/-- Where an operand is expected, the text is code at its end, with the same brackets open. -/
structure IsOperand (s : Text) : Prop where
  solid : Factory.Solid s
  closed : ∃ run before, Reader.read {} s = ⟨.code run before, []⟩

/-- Is the reader in code outside of brackets? -/
instance decidableIsClosed (r : Reader) : Decidable (∃ run before, r = ⟨.code run before, []⟩) :=
  match r with
  | ⟨.code run before, []⟩ => isTrue ⟨run, before, rfl⟩
  | ⟨.code .., _ :: _⟩ | ⟨.slash _, _⟩ | ⟨.lineComment _, _⟩ | ⟨.blockComment .., _⟩
  | ⟨.string .., _⟩ | ⟨.template .., _⟩ | ⟨.pattern .., _⟩ | ⟨.angle _, _⟩ | ⟨.tag _, _⟩
  | ⟨.quoted _, _⟩ | ⟨.closeTag, _⟩ | ⟨.body, _⟩ | ⟨.stray, _⟩ => isFalse nofun

instance (s : Text) : Decidable (IsOperand s) :=
  decidable_of_iff (Factory.Solid s ∧ ∃ run before, Reader.read {} s = ⟨.code run before, []⟩)
    ⟨fun both => ⟨both.1, both.2⟩, fun isOperand => ⟨isOperand.solid, isOperand.closed⟩⟩

theorem IsOperand.read {s : Text} (isOperand : IsOperand s) : ∃ run before, ∀ level brackets,
    (Reader.before brackets).read (Factory.hangBy level s) = ⟨.code run before, brackets⟩ := by
  obtain ⟨run, before, closed⟩ := isOperand.closed
  refine ⟨run, before, fun level brackets => ?_⟩
  have inside := Reader.read_under (by rw [closed]; exact nofun) brackets
  rw [closed] at inside
  rw [Reader.read_hangBy]
  exact inside

end ComponentMarkdown
