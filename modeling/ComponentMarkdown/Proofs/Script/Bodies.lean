import ComponentMarkdown.Proofs.Script.Grammar

/-!
# Bodies of elements

The body of an element is what stands between its open tag and its close tag. Text and nested parts
take turns in it, text first and last, and together they are the whole body. The file has:

* what scanners for tokens and for the source of a construct tell about the text;
* `openTag` and `closeTag`, between which `element` reads a body;
* `Nested`, an element or a container with the text that it is read from, and `Covers`, a body with
  its parts;
* the body that `element` reads (`element_covers`).
-/

namespace ComponentMarkdown

namespace Scan

section

variable {α : Type} {s rest : Text} {value : α}

theorem exists_of_map {β : Type} {scan : Scan β} {f : β → α}
    (found : (f <$> scan) s = some (value, rest)) :
    ∃ made, scan s = some (made, rest) ∧ value = f made := by
  have steps : (scan >>= fun made => (pure (f made) : Scan α)) s = some (value, rest) := found
  obtain ⟨made, behind, isMade, ends⟩ := exists_of_bind steps
  cases ends
  exact ⟨made, isMade, rfl⟩

theorem get_bind (next : Text → Scan α) (s : Text) : (get >>= next : Scan α) s = next s s := rfl

/-- A scanner that begins with a look at the text ahead goes on with it. -/
theorem of_get {next : Text → Scan α} (found : (get >>= next : Scan α) s = some (value, rest)) :
    next s s = some (value, rest) :=
  found

theorem ahead_bind (head : String) {next : Bool → Scan α} :
    (ahead head >>= next) s = next (Text.startsWith head.toList s) s :=
  rfl

theorem token_eq (head : String) (s : Text) :
    token head s = (Text.dropPrefix? head.toList s).map fun rest => ((), rest) := by
  unfold token
  rw [get_bind]
  cases Text.dropPrefix? head.toList s <;> rfl

theorem exists_of_token {head : String} {next : Unit → Scan α}
    (found : (token head >>= next) s = some (value, rest)) :
    ∃ behind, s = head.toList ++ behind ∧ next () behind = some (value, rest) := by
  obtain ⟨_, behind, isHead, found⟩ := exists_of_bind found
  rw [token_eq] at isHead
  obtain ⟨_, isFront, same⟩ := Option.map_eq_some_iff.mp isHead
  cases same
  exact ⟨behind, Text.dropPrefix?_eq_some.mp isFront, found⟩

/-- The source of a construct is all that is read for it. -/
theorem append_of_source {scan : Scan α} (within : ∀ t, scan.Within t) {source : Text}
    (found : scan.source s = some ((value, source), rest)) :
    s = source ++ rest ∧ scan s = some (value, rest) := by
  have steps : (scan >>= fun value => get >>= fun behind =>
      (pure (value, s.take (s.length - behind.length)) : Scan (α × Text))) s =
      some ((value, source), rest) := found
  obtain ⟨made, behind, isMade, ends⟩ := exists_of_bind steps
  have inside := suffix_of_within within isMade
  cases ends
  exact ⟨(List.suffix_iff_eq_append.mp inside).symm, isMade⟩

end

end Scan

namespace Script

open Scan

/-! ## Tags -/

/-- Reads an open tag: its name, its attributes, and whether it is self-closing. -/
def openTag (r : Rules) : Scan (Text × List Attribute × Bool) := do
  token "<"
  let comments := commentAttributes (← gap .operand)
  if ← ahead ">" then
    token ">"
    return ([], comments, false)
  let name ← writtenName
  let (attributes, selfClosing) ← tagRest r ((← get).length + 1)
  return (name, comments ++ attributes, selfClosing)

/-- Reads a close tag and gives its name. -/
def closeTag : Scan Text := do
  token "</"
  beforeOperand
  let name ← Scan.option writtenName
  beforeOperand
  token ">"
  return name.getD []

section

variable {r : Rules} {s rest : Text}

theorem within_openTag {t : Text} (nested : r.Within t) : (openTag r).Within t := by
  unfold openTag
  have writtenNameWithin := within_writtenName (t := t)
  have tagRestWithin := within_tagRest nested
  grind

theorem within_closeTag {t : Text} : closeTag.Within t := by
  unfold closeTag
  have writtenNameWithin := within_writtenName (t := t)
  grind

theorem element_eq (r : Rules) :
    element r = do
      let (name, attributes, selfClosing) ← openTag r
      if selfClosing then return .selfClosing name attributes
      let (children, closeName) ← bodyRest r ((← get).length + 1)
      return .pair name attributes children closeName := by
  simp only [element, openTag, bind_assoc]
  congr; funext _; congr; funext comments; congr; funext isFragment
  cases isFragment
  · simp
  · simp

/-- An element with a close tag is an open tag and what `bodyRest` reads behind it. -/
theorem exists_of_element {name closeName : Text} {attributes : List Attribute}
    {body : List Child}
    (found : element r s = some (.pair name attributes body closeName, rest)) :
    ∃ behind, openTag r s = some ((name, attributes, false), behind) ∧
      bodyRest r (behind.length + 1) behind = some ((body, closeName), rest) := by
  rw [element_eq] at found
  obtain ⟨⟨name, attributes, selfClosing⟩, behind, isOpen, found⟩ := exists_of_bind found
  cases selfClosing with
  | true => cases found
  | false =>
    refine ⟨behind, ?_⟩
    obtain ⟨⟨children, closeName⟩, after, isBody, found⟩ := exists_of_bind (of_get found)
    cases found
    exact ⟨isOpen, isBody⟩

/-! ## Containers -/

/-- Reads what the braces of a container hold behind the gap at their front. -/
def content (r : Rules) : Scan ContainerContent := do
  if ← ahead "\x7d" then return .blank
  if ← ahead "..." then
    token "..."
    discard <| r.value false
    return .spread
  discard <| r.sequence false
  return .code

/-- Reads a container, of which only the content matters. -/
def braces (r : Rules) : Scan ContainerContent := do
  token "\x7b"
  let comments ← gap .operand
  let found ← content r
  afterOperand
  token "\x7d"
  return if comments.contains .html then .code else found

theorem container_eq (r : Rules) :
    container r = do
      let (content, source) ← (braces r).source
      return ⟨source, content⟩ := by
  simp only [container, braces]
  congr; funext _; congr; funext comments s
  simp only [content, bind_assoc, ahead_bind]
  cases Text.startsWith "\x7d".toList s with
  | true => rfl
  | false =>
    simp only [Bool.false_eq_true, if_false, bind_assoc, ahead_bind]
    cases Text.startsWith "...".toList s with
    | true => simp
    | false => simp

theorem within_content {t : Text} (nested : r.Within t) : (content r).Within t := by
  unfold content
  have valueWithin := within_value nested
  have sequenceWithin := within_sequence nested
  grind

theorem within_braces {t : Text} (nested : r.Within t) : (braces r).Within t := by
  unfold braces
  have contentWithin := within_content nested
  grind

/-- Between an opening brace and the closing one in front of `behind` there is nothing but white
space and comments of the script. -/
def IsGap (inside behind : Text) : Prop :=
  ∃ comments, gap .operand (inside ++ '\x7d' :: behind) = some (comments, '\x7d' :: behind) ∧
    Comment.html ∉ comments

theorem skipGap_brace (fuel : Nat) (s : Text) :
    skipGap .operator fuel ('\x7d' :: s) = ([], '\x7d' :: s) := by
  have noBlank : ('\x7d' :: s).dropWhile isGapBlank = '\x7d' :: s :=
    List.dropWhile_cons_of_neg (by decide)
  cases fuel with
  | zero => rw [skipGap, noBlank]
  | succ fuel =>
    have noComment : nextComment? .operator ('\x7d' :: s) = none := by
      rw [nextComment?, noBlank]
      rfl
    rw [skipGap, noComment, noBlank]

theorem afterOperand_brace (s : Text) :
    afterOperand ('\x7d' :: s) = some ((), '\x7d' :: s) := by
  have read : afterOperand ('\x7d' :: s) =
      some ((), (skipGap .operator ('\x7d' :: s).length ('\x7d' :: s)).2) := rfl
  rw [read, skipGap_brace]

theorem content_brace (r : Rules) (s : Text) :
    content r ('\x7d' :: s) = some (.blank, '\x7d' :: s) :=
  rfl

theorem exists_of_content_blank (found : content r s = some (.blank, rest)) :
    rest = s ∧ ∃ behind, s = '\x7d' :: behind := by
  rw [content, ahead_bind] at found
  split at found
  · next begins =>
    cases found
    exact ⟨rfl, Text.startsWith_iff.mp begins⟩
  · rw [ahead_bind] at found
    split at found
    · obtain ⟨_, _, _, found⟩ := exists_of_bind found
      obtain ⟨_, _, _, found⟩ := exists_of_bind found
      cases found
    · obtain ⟨_, _, _, found⟩ := exists_of_bind found
      cases found

/-- A container is read from its source, which stands in braces; it is blank if there is a gap
between them. -/
theorem container_read (nested : ∀ t, r.Within t) {value : Container}
    (found : container r s = some (value, rest)) :
    ∃ inside, s = value.source ++ rest ∧ value.source = '\x7b' :: inside ++ ['\x7d'] ∧
      (value.content = .blank ↔ IsGap inside rest) := by
  rw [container_eq] at found
  obtain ⟨⟨content, source⟩, behind, isSource, ends⟩ := exists_of_bind found
  cases ends
  obtain ⟨whole, found⟩ := append_of_source (fun t => within_braces (nested t)) isSource
  obtain ⟨inner, begins, found⟩ := exists_of_token found
  obtain ⟨comments, next, isGap, found⟩ := exists_of_bind found
  obtain ⟨held, between, isContent, found⟩ := exists_of_bind found
  obtain ⟨_, last, isOperand, found⟩ := exists_of_bind found
  obtain ⟨behind, ends, found⟩ := exists_of_token found
  cases found
  have inGap := suffix_of_within (fun _ => within_gap _) isGap
  have inContent := suffix_of_within (fun t => within_content (nested t)) isContent
  have inOperand := suffix_of_within (fun _ => within_afterOperand) isOperand
  obtain ⟨inside, same⟩ := inOperand.trans (inContent.trans inGap)
  subst ends
  subst same
  refine ⟨inside, whole, ?_, ?_⟩
  · exact List.append_cancel_right (whole.symm.trans (by simpa using begins))
  constructor
  · intro isBlank
    dsimp only at isBlank
    split at isBlank
    · cases isBlank
    · next noHtml =>
      subst isBlank
      obtain ⟨rfl, next, rfl⟩ := exists_of_content_blank isContent
      cases (afterOperand_brace next).symm.trans isOperand
      exact ⟨comments, isGap, by simpa using noHtml⟩
  · rintro ⟨comments', isGap', noHtml⟩
    cases isGap.symm.trans isGap'
    cases (content_brace r rest).symm.trans isContent
    exact if_neg (by simpa using noHtml)

end

/-! ## Bodies -/

/-- `part` is read in front of `behind`, and `source` is the text that it is read from. -/
inductive Nested (r : Rules) (behind : Text) : Child → Text → Prop
  | element {value : Element} {source : Text}
      (isRead : r.element (source ++ behind) = some (value, behind)) :
      Nested r behind (.element value) source
  | container {value : Container} {inside : Text}
      (isRead : container r (value.source ++ behind) = some (value, behind))
      (inBraces : value.source = '\x7b' :: inside ++ ['\x7d'])
      (isBlank : value.content = .blank ↔ IsGap inside behind) :
      Nested r behind (.container value) value.source

/-- The children are text and nested parts by turns, text first and last. Together they are all of
the body, which stands in front of `behind`. -/
inductive Covers (r : Rules) (behind : Text) : List Child → Text → Prop
  | last {raw : Text} : Covers r behind [.text raw] raw
  | cons {raw source body : Text} {part : Child} {children : List Child}
      (isNested : Nested r (body ++ behind) part source) (others : Covers r behind children body) :
      Covers r behind (.text raw :: part :: children) (raw ++ source ++ body)

/-- Reads a nested part of a body. -/
def nestedPart (r : Rules) : Scan Child := do
  if ← ahead "<" then Child.element <$> r.element
  else Child.container <$> container r

section

variable {r : Rules} {s rest : Text} {body : List Child} {closeName : Text}

theorem bodyRest_succ (r : Rules) (fuel : Nat) :
    bodyRest r (fuel + 1) = do
      let (_, raw) ← source (bodyText ((← get).length + 1))
      if ← ahead "</" then
        let closeName ← closeTag
        return ([.text raw], closeName)
      let child ← nestedPart r
      let (children, closeName) ← bodyRest r fuel
      return (.text raw :: child :: children, closeName) := by
  rw [bodyRest]
  simp only [closeTag, nestedPart, bind_assoc]
  congr; funext _; congr; funext found; congr; funext isEnd
  cases isEnd with
  | true => simp
  | false =>
    simp only [Bool.false_eq_true, if_false]
    congr; funext isElement
    cases isElement <;> simp

theorem exists_of_nestedPart (nested : ∀ t, r.Within t) {part : Child}
    (found : nestedPart r s = some (part, rest)) :
    ∃ source, s = source ++ rest ∧ Nested r rest part source := by
  rw [nestedPart, ahead_bind] at found
  split at found
  · obtain ⟨value, isRead, rfl⟩ := exists_of_map found
    obtain ⟨source, rfl⟩ := suffix_of_within (fun t => (nested t).element) isRead
    exact ⟨source, rfl, .element isRead⟩
  · obtain ⟨value, isRead, rfl⟩ := exists_of_map found
    obtain ⟨inside, rfl, inBraces, isBlank⟩ := container_read nested isRead
    exact ⟨value.source, rfl, .container isRead inBraces isBlank⟩

theorem bodyRest_covers (nested : ∀ t, r.Within t) {fuel : Nat}
    (found : bodyRest r fuel s = some ((body, closeName), rest)) :
    ∃ inner closing, s = inner ++ closing ++ rest ∧
      closeTag (closing ++ rest) = some (closeName, rest) ∧
      Covers r (closing ++ rest) body inner := by
  induction fuel generalizing s body with
  | zero => cases found
  | succ fuel ih =>
    rw [bodyRest_succ] at found
    obtain ⟨⟨_, raw⟩, behind, isText, found⟩ := exists_of_bind (of_get found)
    obtain ⟨whole, -⟩ := append_of_source (fun _ => within_bodyText _) isText
    dsimp only at found
    rw [ahead_bind] at found
    split at found
    · obtain ⟨name, after, isClose, found⟩ := exists_of_bind found
      cases found
      obtain ⟨closing, rfl⟩ := suffix_of_within (fun _ => within_closeTag) isClose
      exact ⟨raw, closing, by rw [whole, List.append_assoc], isClose, .last⟩
    · obtain ⟨part, between, isPart, found⟩ := exists_of_bind found
      obtain ⟨⟨children, name⟩, after, areOthers, found⟩ := exists_of_bind found
      cases found
      obtain ⟨source, rfl, isNested⟩ := exists_of_nestedPart nested isPart
      obtain ⟨inner, closing, rfl, isClose, others⟩ := ih areOthers
      refine ⟨raw ++ source ++ inner, closing, by simp [whole], isClose, ?_⟩
      rw [List.append_assoc inner] at isNested
      exact .cons isNested others

/-- Between its open tag and its close tag an element has a body with its children as parts. -/
theorem element_covers (nested : ∀ t, r.Within t) {name : Text} {attributes : List Attribute}
    (found : element r s = some (.pair name attributes body closeName, rest)) :
    ∃ opening inner closing, s = opening ++ inner ++ closing ++ rest ∧
      openTag r s = some ((name, attributes, false), inner ++ closing ++ rest) ∧
      closeTag (closing ++ rest) = some (closeName, rest) ∧
      Covers r (closing ++ rest) body inner := by
  obtain ⟨behind, isOpen, isBody⟩ := exists_of_element found
  obtain ⟨opening, rfl⟩ := suffix_of_within (fun t => within_openTag (nested t)) isOpen
  obtain ⟨inner, closing, rfl, isClose, covers⟩ := bodyRest_covers nested isBody
  exact ⟨opening, inner, closing, by simp, isOpen, isClose, covers⟩

end

end Script

end ComponentMarkdown
