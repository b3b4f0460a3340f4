import ComponentMarkdown.Inline.Target
import ComponentMarkdown.Proofs.Text.Runs

/-!
# What a target reads

Destinations and titles are read by one scan, which passes the character behind a backslash. The
file has:

* `Target.readEscaped`, the scan, with a verdict for each character, and `angled_eq`, `bare_eq` and
  `titleUpTo_eq`, the three readers as such scans;
* `read_eq`, a target as what stands between its parentheses;
* the ends of the text that the readers leave, up to `read_behind` for the whole target.
-/

namespace ComponentMarkdown

open Text (Behind)

/-- What a scan does at a character: it ends there, it fails, or it goes on. -/
inductive Verdict (σ : Type) where
  | ends
  | fails
  | passes (state : σ)

namespace Target

variable {σ : Type}

/-- Puts characters in front of what was read. -/
def addRead (front : Text) : σ × Text × Text → σ × Text × Text :=
  fun (state, read, rest) => (state, front ++ read, rest)

/-- Reads as far as the verdicts allow. The character behind a backslash is passed without one. -/
def readEscaped (verdict : σ → Char → Verdict σ) (state : σ) : Text → Option (σ × Text × Text)
  | [] => some (state, [], [])
  | '\\' :: c :: rest => (readEscaped verdict state rest).map (addRead ['\\', c])
  | c :: rest =>
    match verdict state c with
    | .ends => some (state, [], c :: rest)
    | .fails => none
    | .passes state => (readEscaped verdict state rest).map (addRead [c])

/-- What was read up to a mark, and what is left behind the mark. -/
def upToMark? : σ × Text × Text → Option (Text × Text)
  | (_, read, _ :: rest) => some (read, rest)
  | (_, _, []) => none

/-- What was read, if no parenthesis is open at the end. -/
def balanced? : Nat × Text × Text → Option (Text × Text)
  | (depth, found) => if depth == 0 then some found else none

def angledVerdict (_ : Unit) (c : Char) : Verdict Unit :=
  if c == '>' then .ends else if c == '\n' || c == '<' then .fails else .passes ()

/-- The state is the number of parentheses that are open. -/
def bareVerdict (depth : Nat) (c : Char) : Verdict Nat :=
  if endsBare c then .ends
  else if c == '(' then if depth < 32 then .passes (depth + 1) else .fails
  else if c == ')' then if depth == 0 then .ends else .passes (depth - 1)
  else .passes depth

def titleVerdict (close : Char) (_ : Unit) (c : Char) : Verdict Unit :=
  if c == close then .ends else if c == '(' && close == ')' then .fails else .passes ()

theorem upToMark_addRead (front : Text) (found : Option (σ × Text × Text)) :
    (found.map (addRead front)).bind upToMark? = cons front (found.bind upToMark?) := by
  rcases found with - | ⟨state, read, - | ⟨c, rest⟩⟩ <;> rfl

theorem balanced_addRead (front : Text) (found : Option (Nat × Text × Text)) :
    (found.map (addRead front)).bind balanced? = cons front (found.bind balanced?) := by
  rcases found with - | ⟨- | depth, read, rest⟩ <;> rfl

/-- A character that is not behind a backslash goes by its verdict. -/
theorem readEscaped_cons (verdict : σ → Char → Verdict σ) (state : σ) {c : Char} {rest : Text}
    (unescaped : ∀ d more, c = '\\' → rest = d :: more → False) :
    readEscaped verdict state (c :: rest) =
      match verdict state c with
      | .ends => some (state, [], c :: rest)
      | .fails => none
      | .passes state => (readEscaped verdict state rest).map (addRead [c]) := by
  rw [readEscaped]
  exact unescaped

theorem angled_eq (s : Text) :
    angled? s = (readEscaped angledVerdict () s).bind upToMark? := by
  fun_induction angled? s with
  | case1 => rfl
  | case2 c rest ih => rw [ih, readEscaped, upToMark_addRead]
  | case3 c rest unescaped closes =>
    rw [readEscaped_cons _ _ unescaped, angledVerdict, if_pos closes]
    rfl
  | case4 c rest unescaped notClose fails =>
    rw [readEscaped_cons _ _ unescaped, angledVerdict, if_neg notClose, if_pos fails]
    rfl
  | case5 c rest unescaped notClose passes ih =>
    rw [readEscaped_cons _ _ unescaped, angledVerdict, if_neg notClose, if_neg passes, ih,
      upToMark_addRead]

theorem titleUpTo_eq (close : Char) (s : Text) :
    titleUpTo? close s = (readEscaped (titleVerdict close) () s).bind upToMark? := by
  fun_induction titleUpTo? close s with
  | case1 => rfl
  | case2 c rest ih => rw [ih, readEscaped, upToMark_addRead]
  | case3 c rest unescaped closes =>
    rw [readEscaped_cons _ _ unescaped, titleVerdict, if_pos closes]
    rfl
  | case4 c rest unescaped notClose fails =>
    rw [readEscaped_cons _ _ unescaped, titleVerdict, if_neg notClose, if_pos fails]
    rfl
  | case5 c rest unescaped notClose passes ih =>
    rw [readEscaped_cons _ _ unescaped, titleVerdict, if_neg notClose, if_neg passes, ih,
      upToMark_addRead]

theorem bare_eq (depth : Nat) (s : Text) :
    bare? depth s = (readEscaped bareVerdict depth s).bind balanced? := by
  fun_induction bare? depth s with
  | case1 depth isZero =>
    rw [beq_iff_eq.mp isZero]
    rfl
  | case2 depth notZero =>
    rw [readEscaped, Option.bind_some, balanced?, if_neg notZero]
  | case3 depth c rest ih => rw [ih, readEscaped, balanced_addRead]
  | case4 depth c rest unescaped ends isZero =>
    rw [readEscaped_cons _ _ unescaped, bareVerdict, if_pos ends, Option.bind_some, balanced?,
      if_pos isZero]
  | case5 depth c rest unescaped ends notZero =>
    rw [readEscaped_cons _ _ unescaped, bareVerdict, if_pos ends, Option.bind_some, balanced?,
      if_neg notZero]
  | case6 depth c rest unescaped others opens fits ih =>
    rw [readEscaped_cons _ _ unescaped, bareVerdict, if_neg others, if_pos opens, if_pos fits, ih,
      balanced_addRead]
  | case7 depth c rest unescaped others opens tooMany =>
    rw [readEscaped_cons _ _ unescaped, bareVerdict, if_neg others, if_pos opens, if_neg tooMany]
    rfl
  | case8 depth c rest unescaped others notOpen closes isZero =>
    rw [readEscaped_cons _ _ unescaped, bareVerdict, if_neg others, if_neg notOpen, if_pos closes,
      if_pos isZero, Option.bind_some, balanced?, if_pos isZero]
  | case9 depth c rest unescaped others notOpen closes notZero ih =>
    rw [readEscaped_cons _ _ unescaped, bareVerdict, if_neg others, if_neg notOpen, if_pos closes,
      if_neg notZero, ih, balanced_addRead]
  | case10 depth c rest unescaped others notOpen notClose ih =>
    rw [readEscaped_cons _ _ unescaped, bareVerdict, if_neg others, if_neg notOpen,
      if_neg notClose, ih, balanced_addRead]

theorem title_cons (c : Char) (s : Text) :
    title? (c :: s) =
      let upTo := fun close => (titleUpTo? close s).map fun found =>
        (unescape found.1, found.2)
      if c == '"' || c == '\'' then upTo c else if c == '(' then upTo ')' else none := by
  have isMap : ∀ close, ((titleUpTo? close s).bind fun found =>
      some (unescape found.1, found.2)) = (titleUpTo? close s).map fun found =>
        (unescape found.1, found.2) := fun close => Option.map_eq_bind.symm
  unfold title?
  dsimp only
  rw [← isMap, ← isMap]
  rfl

/-- What stands between the parentheses of a target, with what is left from the closing one on. -/
def inside? : Text → Option (Target × Text)
  | [] => none
  | c :: s =>
    if c == ')' then some ({ href := [] }, c :: s)
    else (destination? (c :: s)).map fun (href, rest) =>
      ({ href, title := (titleBehind rest).1 }, (titleBehind rest).2)

def closed? (found : Target × Text) : Option (Target × Text) :=
  match found.2 with
  | ')' :: rest => some (found.1, rest)
  | _ => none

theorem read_eq (s : Text) : read? ('(' :: s) = (inside? (skipBlanks s)).bind closed? := by
  rw [read?]
  cases skipBlanks s with
  | nil => rfl
  | cons c s =>
    rw [inside?]
    split
    · next same =>
      obtain ⟨rfl, -⟩ := List.cons.inj same
      cases same
      rfl
    · next different =>
      have notClosed : ¬ (c == ')') = true := fun closes =>
        different s (congrArg (· :: s) (beq_iff_eq.mp closes))
      rw [if_neg notClosed, Option.bind_map]
      cases destination? (c :: s) with
      | none => rfl
      | some found => rfl

/-! ## What was read -/

variable {verdict : σ → Char → Verdict σ} {state after : σ} {s read rest : Text}

theorem readEscaped_append (found : readEscaped verdict state s = some (after, read, rest)) :
    s = read ++ rest := by
  fun_induction readEscaped verdict state s generalizing read with
  | case1 =>
    cases found
    rfl
  | case2 state c others ih =>
    obtain ⟨⟨_, more, _⟩, isFound, same⟩ := Option.map_eq_some_iff.mp found
    cases same
    rw [ih isFound]
    rfl
  | case3 =>
    cases found
    rfl
  | case4 => cases found
  | case5 state c others unescaped next passes ih =>
    obtain ⟨⟨_, more, _⟩, isFound, same⟩ := Option.map_eq_some_iff.mp found
    cases same
    rw [ih isFound]
    rfl

theorem upToMark_behind {read : Text}
    (found : (readEscaped verdict state s).bind upToMark? = some (read, rest)) : Behind rest s := by
  obtain ⟨⟨_, front, ends⟩, isRead, isFound⟩ := Option.bind_eq_some_iff.mp found
  rw [readEscaped_append isRead]
  cases ends with
  | nil => cases isFound
  | cons mark behind =>
    cases isFound
    exact .of_cons_suffix (List.suffix_append read _)

theorem bare_suffix {depth : Nat} {read : Text} (found : bare? depth s = some (read, rest)) :
    rest <:+ s := by
  rw [bare_eq] at found
  obtain ⟨⟨level, front, behind⟩, isRead, isFound⟩ := Option.bind_eq_some_iff.mp found
  rw [readEscaped_append isRead]
  cases level with
  | zero =>
    cases isFound
    exact List.suffix_append read rest
  | succ => cases isFound

theorem destination_suffix {href : Text} (found : destination? s = some (href, rest)) :
    rest <:+ s := by
  unfold destination? at found
  split at found
  · next inside =>
    obtain ⟨⟨raw, behind⟩, isFound, same⟩ := Option.map_eq_some_iff.mp found
    cases same
    rw [angled_eq] at isFound
    exact (upToMark_behind isFound).suffix.trans (List.suffix_cons _ _)
  · obtain ⟨⟨raw, behind⟩, isFound, found⟩ := Option.bind_eq_some_iff.mp found
    obtain ⟨-, -, same⟩ := Option.bind_eq_some_iff.mp found
    cases same
    exact bare_suffix isFound

theorem title_suffix {title : Text} (found : title? s = some (title, rest)) : rest <:+ s := by
  cases s with
  | nil => cases found
  | cons c s =>
    have closes : ∀ {close : Char}, (titleUpTo? close s).map (fun found =>
        (unescape found.1, found.2)) = some (title, rest) → rest <:+ c :: s := by
      intro close found
      obtain ⟨⟨raw, behind⟩, isFound, same⟩ := Option.map_eq_some_iff.mp found
      cases same
      rw [titleUpTo_eq] at isFound
      exact (upToMark_behind isFound).suffix.trans (List.suffix_cons _ _)
    rw [title_cons] at found
    dsimp only at found
    split at found
    · exact closes found
    · split at found
      · exact closes found
      · cases found

theorem skipBlanks_suffix (s : Text) : skipBlanks s <:+ s :=
  List.dropWhile_suffix _

theorem titleBehind_suffix (s : Text) : (titleBehind s).2 <:+ s := by
  have blanks := skipBlanks_suffix s
  unfold titleBehind
  dsimp only
  split
  · split
    · next title rest found =>
      exact (skipBlanks_suffix rest).trans ((title_suffix found).trans blanks)
    · exact blanks
  · exact blanks

theorem inside_suffix {target : Target} (found : inside? s = some (target, rest)) :
    rest <:+ s := by
  cases s with
  | nil => cases found
  | cons c s =>
    rw [inside?] at found
    split at found
    · cases found
      exact List.suffix_refl _
    · obtain ⟨⟨href, behind⟩, isFound, same⟩ := Option.map_eq_some_iff.mp found
      cases same
      exact (titleBehind_suffix behind).trans (destination_suffix isFound)

/-- A target takes at least its parentheses, and it leaves the end of the text. -/
theorem read_behind {target : Target} (found : read? s = some (target, rest)) : Behind rest s := by
  unfold read? at found
  split at found
  · next others =>
    have found : read? ('(' :: others) = some (target, rest) := found
    rw [read_eq] at found
    obtain ⟨⟨read, ends⟩, isRead, isClosed⟩ := Option.bind_eq_some_iff.mp found
    have isSuffix := (inside_suffix isRead).trans (skipBlanks_suffix others)
    unfold closed? at isClosed
    split at isClosed
    · next behind closes =>
      cases isClosed
      rw [show ends = ')' :: rest from closes] at isSuffix
      exact .cons '(' ((List.suffix_cons _ rest).trans isSuffix)
    · cases isClosed
  · cases found

end Target

end ComponentMarkdown
