import ComponentMarkdown.Proofs.Inline.Pairs
import ComponentMarkdown.Proofs.Inline.PlainText
import ComponentMarkdown.Proofs.TagGrammar.Syntax

/-!
# Empty pairs of tags

An open tag and its close tag with nothing but white space between them are the same as the tag that
closes itself, whatever its attributes are. The file has:

* `blankLength`, what skipping takes of blank text, and `yields_closeAhead_blank`, the search that
  passes it by;
* open tags in front of other text: none of the other rules takes them;
* `parseInline_emptyPair`, the result.
-/

namespace ComponentMarkdown

open Markup (closingTag IsTagName isNameChar)
open Jsx (IsOpenTag IsItems IsBlank IsMarkupName tagMark)
open Memoized (Yields)

/-! ## Blank text -/

/-- How much a rule takes where blank text begins: a line end with the spaces that begin the next
line, or all that stands in front of the next line end. -/
def blankLength : Text → Nat
  | '\n' :: rest => lineEndLength rest
  | s => (s.takeWhile fun c => !isSpecial c).length

theorem not_isSpecial_of_isBlank {c : Char} (blank : isBlank c = true) (notFeed : c ≠ '\n') :
    isSpecial c = false := by
  unfold isSpecial
  split
  case h_1 => exact absurd rfl notFeed
  case h_24 => rfl
  all_goals exact absurd blank (by decide)

theorem blankLength_of_ne {c : Char} (notFeed : c ≠ '\n') (s : Text) :
    blankLength (c :: s) = ((c :: s).takeWhile fun c => !isSpecial c).length := by
  rw [blankLength]
  exact fun _ same => notFeed (List.cons.inj same).1

theorem blankLength_pos {c : Char} (blank : isBlank c = true) (s : Text) :
    0 < blankLength (c :: s) := by
  by_cases notFeed : c = '\n'
  · rw [notFeed, blankLength, lineEndLength]
    omega
  · rw [blankLength_of_ne notFeed, List.takeWhile_cons_of_pos
      (by rw [not_isSpecial_of_isBlank blank notFeed]; rfl)]
    exact Nat.succ_pos _

theorem blankLength_le (s : Text) : blankLength s ≤ s.length := by
  unfold blankLength
  split
  · next rest =>
    have := Text.runLength_le ' ' rest
    rw [lineEndLength, List.length_cons]
    omega
  · exact (List.takeWhile_prefix _).length_le

/-- What is taken from the front ends by a character that is not taken. -/
theorem takeWhile_append_cons {p : Char → Bool} {stop : Char} (stops : p stop = false)
    (l s : Text) : (l ++ stop :: s).takeWhile p = l.takeWhile p := by
  induction l with
  | nil => simp [stops]
  | cons c l ih =>
    rw [List.cons_append, List.takeWhile_cons, List.takeWhile_cons, ih]

section

variable {md : Markdown} {marks : Marks} {c : Cursor} {w behind : Text}

/-- Skipping takes blank text in front of a tag up to the next line end, or a line end. -/
theorem yields_skip_blank (unique : marks.Unique) (chain : md.inlineChain = InlineRule.all)
    {budget : Nat} (notEmpty : w ≠ []) (blank : ∀ c ∈ w, isBlank c = true)
    (here : c.rest = w ++ '<' :: behind)
    (member : (c.pos, ⟨c.pos + blankLength w, true⟩) ∈ marks) :
    Yields marks (skip md (budget + 1) c) ⟨c.pos + blankLength w, true⟩ := by
  have inWindow : c.pos + blankLength w ≤ c.stop := by
    have := blankLength_le w
    rw [Cursor.stop_eq here]
    omega
  refine @yields_skip md marks c budget (some (blankLength w)) unique member inWindow ?_
  rw [chain]
  obtain ⟨first, rest, rfl⟩ := List.exists_cons_of_ne_nil notEmpty
  have isBlank := blank first List.mem_cons_self
  have positive := blankLength_pos isBlank rest
  by_cases feed : first = '\n'
  · subst feed
    have taken : lineEndLength (rest ++ '<' :: behind) = blankLength ('\n' :: rest) := by
      rw [lineEndLength, Text.runLength, takeWhile_append_cons (by decide)]
      rfl
    refine @yields_firstLength marks c _ [.text] _ .newline
      (.leaf (blankLength ('\n' :: rest)) .lineBreak)
      (List.forall_mem_singleton.mpr (scan_text_special here rfl)) ?_ positive
    rw [scan, here, List.cons_append, newline?, taken]
    exact .pure _
  · refine @yields_firstLength marks c _ [] _ .text
      (.leaf (blankLength (first :: rest))
        (.literal ((first :: rest).takeWhile fun c => !isSpecial c)))
      (List.forall_mem_nil _) ?_ positive
    rw [blankLength_of_ne feed] at positive ⊢
    have shown : ((first :: rest).takeWhile fun c => !isSpecial c).isEmpty = false := by
      rw [List.isEmpty_eq_false_iff, ← List.length_pos_iff]
      exact positive
    rw [scan, here, plainRun?, takeWhile_append_cons (by decide), shown]
    exact .pure _

/-- What skipping finds at a place of blank text that stands at `pos`, or at the close tag behind
it. -/
def blankMark (pos : Nat) (w : Text) (i : Nat) : Nat × Skipped :=
  (pos + i,
    if i < w.length then ⟨pos + i + blankLength (w.drop i), true⟩ else ⟨pos + i + 1, false⟩)

def blankMarks (pos : Nat) (w : Text) : Marks :=
  (List.range (w.length + 1)).map (blankMark pos w)

theorem blankMarks_unique (pos : Nat) (w : Text) : (blankMarks pos w).Unique := by
  intro place mark other member alsoMember
  obtain ⟨i, -, same⟩ := List.mem_map.mp member
  obtain ⟨j, -, alsoSame⟩ := List.mem_map.mp alsoMember
  cases same
  have equal : j = i := Nat.add_left_cancel (congrArg Prod.fst alsoSame)
  subst equal
  exact congrArg Prod.snd alsoSame

theorem mem_blankMarks {pos i : Nat} (inside : i ≤ w.length) :
    blankMark pos w i ∈ blankMarks pos w :=
  List.mem_map.mpr ⟨i, List.mem_range.mpr (Nat.lt_succ_of_le inside), rfl⟩

/-- The search for a close tag passes blank text by. -/
theorem yields_closeAhead_blank (jsx : md.grammar = TagGrammar.jsx)
    (chain : md.inlineChain = InlineRule.all) {name : Text} (named : IsTagName name)
    (blank : ∀ c ∈ w, isBlank c = true) {budget pos i fuel : Nat} (inside : i ≤ w.length)
    (place : c.pos = pos + i) (here : c.rest = w.drop i ++ (closingTag name ++ behind))
    (enough : w.length - i < fuel) :
    Yields (blankMarks pos w) (closeAhead md.grammar (skip md (budget + 1)) name fuel c)
      (some (pos + w.length, pos + w.length + (closingTag name).length)) := by
  induction fuel generalizing c i with
  | zero => exact absurd enough (Nat.not_lt_zero _)
  | succ fuel ih =>
    have unique := blankMarks_unique pos w
    have mark := @mem_blankMarks w pos i inside
    rw [blankMark, ← place] at mark
    cases rest : w.drop i with
    | nil =>
      have atEnd : i = w.length := Nat.le_antisymm inside (List.drop_eq_nil_iff.mp rest)
      rw [rest, List.nil_append] at here
      rw [if_neg (by omega)] at mark
      rw [← atEnd, ← place]
      have tag : md.grammar.closeTag .inline c.rest = some ⟨name, (closingTag name).length⟩ := by
        rw [jsx, here]
        exact TagGrammar.jsx_closeTag named behind
      have notEmpty : c.rest ≠ [] := by rw [here]; exact List.cons_ne_nil _ _
      have skips := @yields_skip_closeTag md _ unique jsx budget c _ _ named here mark
      exact yields_closeAhead_here notEmpty skips rfl tag
    | cons first more =>
      have inText : i < w.length := by
        refine Nat.lt_of_not_le fun ended => ?_
        rw [List.drop_eq_nil_of_le ended] at rest
        cases rest
      have stillBlank : ∀ c ∈ w.drop i, isBlank c = true :=
        fun c member => blank c (List.mem_of_mem_drop member)
      have firstBlank := stillBlank first (rest ▸ List.mem_cons_self)
      rw [if_pos inText] at mark
      have skips := @yields_skip_blank md _ c (w.drop i) (closingTag name ++ behind).tail unique
        chain budget (by simp [rest]) stillBlank here mark
      have noTag : md.grammar.closeTag .inline c.rest = none := by
        have other : first ≠ '<' := fun same => absurd (same ▸ firstBlank) (by decide)
        rw [jsx, here, rest]
        exact TagGrammar.jsx_closeTag_of_ne other _
      have notEmpty : c.rest ≠ [] := by rw [here, rest]; exact List.cons_ne_nil _ _
      refine yields_closeAhead_behind notEmpty skips noTag ?_
      rw [Cursor.moveTo_add]
      have bounded := blankLength_le (w.drop i)
      have positive : 0 < blankLength (w.drop i) := rest ▸ blankLength_pos firstBlank more
      rw [List.length_drop] at bounded
      refine ih (i := i + blankLength (w.drop i)) (by omega) ?_ ?_ (by omega)
      · rw [Cursor.advance_pos, place, Nat.add_assoc]
      · rw [Cursor.advance, here, List.drop_append_of_le_length
          (by rw [List.length_drop]; exact bounded), List.drop_drop]

end

/-! ## Open tags -/

section

variable {name items blanks : Text}

/-- A name that begins with a letter and has no colon is one that a close tag can have. -/
theorem isTagName_of_isMarkupName (isName : IsMarkupName name)
    (letter : name.head?.any Char.isAlpha = true) (noColon : ':' ∉ name) : IsTagName name := by
  refine ⟨letter, fun c member => ?_⟩
  cases isName with
  | @intro first more _ others =>
    have isChar := others c member
    have notColon : c ≠ ':' := fun same => noColon (same ▸ List.mem_cons_of_mem first member)
    simp only [Jsx.continuesName, isNameChar, Bool.or_eq_true, beq_iff_eq] at isChar ⊢
    tauto

/-- Behind the name of a tag stands white space, or else the end of the tag. -/
theorem exists_behind_name (isItems : IsItems items) (isBlanks : IsBlank blanks)
    (selfClosing : Bool) (rest : Text) :
    ∃ front stop behind, items ++ (blanks ++ (tagMark selfClosing ++ rest)) =
        front ++ stop :: behind ∧
      (front = [] ∨ front = ['/']) ∧ (isAsciiBlank stop = true ∨ stop = '>') := by
  cases isItems with
  | @cons before item others notEmpty isBefore _ _ =>
    obtain ⟨stop, before, rfl⟩ := List.exists_cons_of_ne_nil notEmpty
    exact ⟨[], stop, _, rfl, .inl rfl, .inl (isBefore stop List.mem_cons_self)⟩
  | nil =>
    cases blanks with
    | cons stop blanks =>
      exact ⟨[], stop, _, rfl, .inl rfl, .inl (isBlanks stop List.mem_cons_self)⟩
    | nil =>
      cases selfClosing with
      | false => exact ⟨[], '>', rest, rfl, .inl rfl, .inr rfl⟩
      | true => exact ⟨['/'], '>', rest, rfl, .inr rfl, .inr rfl⟩

/-- An open tag with these parts. -/
def tagText (name items blanks : Text) (selfClosing : Bool) : Text :=
  '<' :: (name ++ (items ++ (blanks ++ tagMark selfClosing)))

theorem selfClosed_tagText (name items blanks : Text) :
    selfClosed (tagText name items blanks false) = tagText name items blanks true := by
  simp [selfClosed, tagText, tagMark]

theorem dropLast_tagText (name items blanks : Text) :
    (tagText name items blanks false).dropLast ++ ['/', '>'] = tagText name items blanks true := by
  have ends : tagText name items blanks false = '<' :: (name ++ (items ++ blanks)) ++ ['>'] := by
    simp [tagText, tagMark]
  rw [ends, List.dropLast_concat]
  simp [tagText, tagMark]

/-- An open tag is no autolink, and embedded markup may begin with it. -/
theorem tagText_begins (named : IsTagName name) (isItems : IsItems items)
    (isBlanks : IsBlank blanks) (selfClosing : Bool) (rest : Text) :
    autolink? (tagText name items blanks selfClosing ++ rest) = none ∧
      mayEmbed (tagText name items blanks selfClosing ++ rest) = true := by
  obtain ⟨front, stop, behind, same, isFront, isStop⟩ :=
    exists_behind_name isItems isBlanks selfClosing rest
  have spelled : tagText name items blanks selfClosing ++ rest =
      '<' :: ((name ++ front) ++ stop :: behind) := by
    simp only [tagText, List.cons_append, List.append_assoc, same]
  have ends : (isSchemeChar stop = false ∧ isMailboxChar stop = false) ∧
      stop ≠ ':' ∧ stop ≠ '@' := by
    rcases isStop with blank | rfl
    · simp only [isAsciiBlank, Bool.or_eq_true, beq_iff_eq] at blank
      rcases blank with (((rfl | rfl) | rfl) | rfl) | rfl <;> decide
    · decide
  have plain : ∀ c ∈ (name ++ front) ++ [stop], c ≠ ':' ∧ c ≠ '@' := by
    refine List.forall_mem_append.mpr ⟨List.forall_mem_append.mpr ⟨isTagName_plain named, ?_⟩,
      List.forall_mem_singleton.mpr ends.2⟩
    rcases isFront with rfl | rfl
    · exact List.forall_mem_nil _
    · exact List.forall_mem_singleton.mpr (by decide)
  rw [spelled]
  refine ⟨autolink_none plain ends.1 behind, ?_⟩
  obtain ⟨letter, more, rfl, isLetter, -⟩ := named.cases
  cases more <;> cases front <;> simp [mayEmbed, isLetter]

/-- What the grammar finds at an open tag, whatever stands behind it. -/
theorem tagText_opens (isName : IsMarkupName name) (isItems : IsItems items)
    (isBlanks : IsBlank blanks) (selfClosing : Bool) (rest : Text) :
    let tag := tagText name items blanks selfClosing
    TagGrammar.jsx.openTag .inline (tag ++ rest) = some ⟨name, tag.length⟩ ∧
      TagGrammar.jsx.selfClosing .inline (tag ++ rest) =
        if selfClosing then some tag.length else none := by
  intro tag
  have derives : Jsx.Derives (tag ++ rest) ⟨name, tag.length⟩ :=
    Jsx.derives_append (.intro selfClosing isName isItems isBlanks) rest
  refine ⟨(Jsx.openTag_iff_derives .inline _ _).mpr derives, ?_⟩
  have closes := Jsx.closes_iff isName isItems isBlanks selfClosing
  refine (derives.selfClosing .inline).trans ?_
  change (if ['/', '>'] <:+ (tag ++ rest).take tag.length then some tag.length else none) = _
  simp only [List.take_left, tag, tagText, closes]

end

/-- What has a name does not begin with a brace. -/
theorem head?_of_named {s : Text} {opened : Jsx.OpenTag}
    (found : Jsx.openTag? .inline s = some opened) (named : opened.name ≠ []) :
    ∃ rest, s = '<' :: rest := by
  unfold Jsx.openTag? at found
  split at found
  · exact ⟨_, rfl⟩
  · obtain ⟨-, -, found⟩ := Option.bind_eq_some_iff.mp found
    obtain ⟨_, -, made⟩ := Option.bind_eq_some_iff.mp found
    cases made
    exact absurd rfl named
  · cases found

/-- The parts of a text that is an open tag as a whole and does not close itself. -/
theorem exists_parts {tag name : Text}
    (opens : TagGrammar.jsx.openTag .inline tag = some ⟨name, tag.length⟩)
    (notClosed : TagGrammar.jsx.selfClosing .inline tag = none) (named : name ≠ []) :
    ∃ items blanks, tag = tagText name items blanks false ∧
      IsMarkupName name ∧ IsItems items ∧ IsBlank blanks := by
  obtain ⟨opened, found, made⟩ := Option.map_eq_some_iff.mp opens
  have isName : opened.name = name := congrArg FoundTag.name made
  obtain ⟨rest, rfl⟩ := head?_of_named found (isName ▸ named)
  have derives := (Jsx.openTag_iff_derives .inline rest _).mp opens
  rw [derives.selfClosing .inline, List.take_length] at notClosed
  obtain ⟨-, isTag⟩ := derives
  rw [List.take_length] at isTag
  change IsOpenTag name ('<' :: rest) at isTag
  have noMark : ¬['/', '>'] <:+ '<' :: rest := fun ends => by
    rw [if_pos ends] at notClosed
    cases notClosed
  generalize '<' :: rest = tag at isTag noMark ⊢
  cases isTag with
  | @intro items blanks selfClosing isName isItems isBlanks =>
    rw [Jsx.closes_iff isName isItems isBlanks] at noMark
    cases selfClosing with
    | true => exact absurd rfl noMark
    | false => exact ⟨items, blanks, rfl, isName, isItems, isBlanks⟩

/-! ## Embedded markup as a whole text -/

/-- A tag that closes itself is embedded markup. -/
theorem embedded_closed {md : Markdown} {skip : Skip} {c : Cursor} {found : FoundTag} {code : Text}
    (may : mayEmbed c.rest = true) (opens : md.grammar.openTag .inline c.rest = some found)
    (closes : md.grammar.selfClosing .inline c.rest = some c.rest.length)
    (accepted : md.transform.embed? c.rest = some code) :
    embedded? md skip c = pure (some (.leaf c.rest.length (.embedded code))) := by
  rw [embedded?, may, opens, closes]
  dsimp only
  rw [List.take_length, accepted]
  rfl

/-- A text that is embedded markup as a whole is a single piece. -/
theorem parse_of_embedded {md : Markdown} {marks : Marks} {budget : Nat} {source code : Text}
    (levels : md.maxNesting = budget + 1) (chain : md.inlineChain = InlineRule.all)
    (notEmpty : source ≠ [])
    (others : ∀ rule ∈ earlierRules,
      scan md (skip md (budget + 1)) rule (Cursor.start source) = pure none)
    (found : Yields marks (embedded? md (skip md (budget + 1)) (Cursor.start source))
      (some (.leaf source.length (.embedded code)))) :
    Inline.parse md source = [.embedded code] := by
  have here : (Cursor.start source).rest = source ++ [] := (List.append_nil source).symm
  have behind : ((Cursor.start source).advance source.length).rest = [] := Cursor.rest_advance here
  obtain ⟨fuel, isFuel⟩ := Nat.exists_eq_add_one.mpr (List.length_pos_iff.mpr notEmpty)
  have pieces : Yields marks (parsePieces (fun c =>
      firstPieces (scan md (skip md (budget + 1)))
        (resolve (parseNested md source.length)
          (parseWindow md (parseNested md source.length) budget)) c md.inlineChain)
      (fuel + 1) (Cursor.start source)) [.embedded code] := by
    refine yields_parsePieces_behind here notEmpty ?_ ?_
    · rw [chain]
      exact @yields_firstPieces marks _ _ _ earlierRules [.entity] .embedded _ _ others found
        (List.length_pos_iff.mpr notEmpty) (.pure _)
    · cases fuel with
      | zero => exact .pure _
      | succ fuel =>
        rw [parsePieces, behind]
        exact .pure _
  rw [Inline.parse, parseNested, levels, parseWindow]
  rw [← isFuel] at pieces
  exact (pieces ∅ (Memo.keeps_empty marks)).1

/-- A tag that closes itself, as a whole text. -/
theorem parse_closedTag {md : Markdown} (jsx : md.grammar = TagGrammar.jsx) {budget : Nat}
    (levels : md.maxNesting = budget + 1) (chain : md.inlineChain = InlineRule.all)
    {name items blanks code : Text} (named : IsTagName name) (isName : IsMarkupName name)
    (isItems : IsItems items) (isBlanks : IsBlank blanks)
    (accepted : md.transform.embed? (tagText name items blanks true) = some code) :
    Inline.parse md (tagText name items blanks true) = [.embedded code] := by
  have opens := tagText_opens isName isItems isBlanks true []
  have begins := tagText_begins named isItems isBlanks true []
  have others : ∀ rule ∈ earlierRules, rule ≠ .embedded := by decide
  simp only [List.append_nil] at opens begins
  refine @parse_of_embedded md [] budget _ _ levels chain (List.cons_ne_nil _ _)
    (fun rule member => scan_tag md _ rfl begins.1 (others rule member)) ?_
  rw [embedded_closed begins.2 (by rw [jsx]; exact opens.1) (by rw [jsx]; exact opens.2) accepted]
  exact .pure _

/-- An open tag with its close tag behind it and white space between them, as a whole text. -/
theorem parse_blankPair {md : Markdown} (jsx : md.grammar = TagGrammar.jsx) {budget : Nat}
    (levels : md.maxNesting = budget + 1) (chain : md.inlineChain = InlineRule.all)
    {name items blanks body code : Text} (named : IsTagName name) (isName : IsMarkupName name)
    (isItems : IsItems items) (isBlanks : IsBlank blanks)
    (blank : ∀ c ∈ body, isBlank c = true)
    (accepted : md.transform.embed? (tagText name items blanks true) = some code) :
    Inline.parse md (tagText name items blanks false ++ (body ++ closingTag name)) =
      [.embedded code] := by
  have opens := tagText_opens isName isItems isBlanks false (body ++ closingTag name)
  have begins := tagText_begins named isItems isBlanks false (body ++ closingTag name)
  have others : ∀ rule ∈ earlierRules, rule ≠ .embedded := by decide
  rw [← selfClosed_tagText] at accepted
  generalize isTag : tagText name items blanks false = tag at opens begins accepted ⊢
  have here : (Cursor.start (tag ++ (body ++ closingTag name))).rest =
      tag ++ (body ++ (closingTag name ++ [])) := by
    rw [List.append_nil]
    rfl
  have notEmpty : tag ++ (body ++ closingTag name) ≠ [] := by
    rw [← isTag]
    exact List.cons_ne_nil _ _
  refine @parse_of_embedded md (blankMarks tag.length body) budget _ _ levels chain notEmpty
    (fun rule member => scan_tag md _ (by rw [← isTag]; rfl) begins.1 (others rule member)) ?_
  have found := @yields_embedded_tag md (blankMarks tag.length body)
    (Cursor.start (tag ++ (body ++ closingTag name))) (skip md (budget + 1)) name tag body
    (closingTag name) [] code here begins.2 (by rw [jsx]; exact opens.1)
    (by rw [jsx]; exact opens.2) accepted fun fuel enough => by
      have closes := @yields_closeAhead_blank md
        ((Cursor.start (tag ++ (body ++ closingTag name))).advance tag.length) body [] jsx chain
        name named blank budget tag.length 0 fuel (Nat.zero_le _) (Nat.zero_add _)
        (Cursor.rest_advance here) enough
      rw [show (Cursor.start (tag ++ (body ++ closingTag name))).pos + tag.length = tag.length from
        Nat.zero_add _]
      exact closes
  rw [if_pos (List.all_eq_true.mpr blank)] at found
  simpa [Construct.leaf, Nat.add_assoc] using found

/-- An open tag with its close tag behind it, and nothing but white space between them, gives what
the tag gives when it closes itself: a single token with the code for that tag. -/
theorem parseInline_emptyPair (md : Markdown) (jsx : md.grammar = TagGrammar.jsx)
    (chain : md.inlineChain = InlineRule.all) (levels : 1 ≤ md.maxNesting)
    {tag name body raw : Text} (normal : ∀ c ∈ tag, c ≠ '\r' ∧ c ≠ '\x00')
    (opens : TagGrammar.jsx.openTag .inline tag = some ⟨name, tag.length⟩)
    (notClosed : TagGrammar.jsx.selfClosing .inline tag = none)
    (letter : name.head?.any Char.isAlpha = true) (noColon : ':' ∉ name)
    (blank : ∀ c ∈ body, isBlank c = true)
    (accepted : md.transform (tag.dropLast ++ ['/', '>']) = .ok raw) :
    let token : Token :=
      { kind := .embeddedInline, tag := [], nesting := .selfClosing, content := tidyCode raw }
    md.parseInline (tag ++ body ++ closingTag name) = [token] ∧
      md.parseInline (tag.dropLast ++ ['/', '>']) = [token] := by
  intro token
  have named : name ≠ [] := by
    rintro rfl
    cases letter
  obtain ⟨items, blanks, rfl, isName, isItems, isBlanks⟩ := exists_parts opens notClosed named
  have isTagName := isTagName_of_isMarkupName isName letter noColon
  obtain ⟨budget, isBudget⟩ := Nat.exists_eq_add_one.mpr levels
  have lawful : md.grammar.Lawful := jsx ▸ TagGrammar.jsx_lawful
  have embeds : md.transform.embed? (tagText name items blanks true) = some (tidyCode raw) := by
    rw [dropLast_tagText] at accepted
    rw [Transformer.embed?, accepted]
    rfl
  have given {source : Text}
      (parsed : Inline.parse md (normalize source) = [.embedded (tidyCode raw)]) :
      md.parseInline source = [token] := by
    rw [Markdown.parseInline, Markdown.inlineTokens, InlineRun.parse_eq lawful, parsed]
    rfl
  refine ⟨given ?pair, given ?closed⟩
  case pair =>
    have noReturn : '\r' ∉ tagText name items blanks false := fun member => (normal _ member).1 rfl
    have closing : normalize (body ++ closingTag name) = normalize body ++ closingTag name := by
      have apart : normalize (body ++ closingTag name) =
          normalize body ++ normalize (closingTag name) :=
        normalize_append_cons (by decide) body ('/' :: (name ++ ['>']))
      rw [apart, normalize_of_normal (Markup.tags_normal isTagName).2]
    rw [List.append_assoc, normalize_append noReturn, normalize_of_normal normal, closing]
    exact parse_blankPair jsx isBudget chain isTagName isName isItems isBlanks
      (isBlank_normalize blank) embeds
  case closed =>
    have stillNormal : ∀ c ∈ (tagText name items blanks false).dropLast ++ ['/', '>'],
        c ≠ '\r' ∧ c ≠ '\x00' :=
      List.forall_mem_append.mpr
        ⟨fun c member => normal c (List.dropLast_subset _ member), by simp⟩
    rw [normalize_of_normal stillNormal, dropLast_tagText]
    exact parse_closedTag jsx isBudget chain isTagName isName isItems isBlanks embeds

/-- A tag on two lines, with a bracket in a string, around a line end and a wide space. -/
theorem parseInline_emptyPair_lines :
    let md : Markdown := { transform := .ok, maxNesting := 1 }
    let tag := "<Box a=\"1 > 0\"\n b=\x7bx\x7d>".toList
    let token : Token :=
      { kind := .embeddedInline, tag := [], nesting := .selfClosing,
        content := "<Box a=\"1 > 0\"\n b=\x7bx\x7d/>".toList }
    md.parseInline (tag ++ ['\r', '\n', '\u2003'] ++ closingTag "Box".toList) = [token] ∧
      md.parseInline (tag.dropLast ++ ['/', '>']) = [token] := by
  intro md tag token
  have opens : TagGrammar.jsx.openTag .inline tag = some ⟨"Box".toList, tag.length⟩ := by decide
  have notClosed : TagGrammar.jsx.selfClosing .inline tag = none := by decide
  have code : tidyCode (tag.dropLast ++ ['/', '>']) = token.content := by decide +kernel
  have blank : ∀ c ∈ ['\r', '\n', '\u2003'], isBlank c = true :=
    List.all_eq_true.mp (by decide)
  have normal : '\r' ∉ tag ∧ '\x00' ∉ tag := by decide
  have both := @parseInline_emptyPair md rfl rfl (by decide) tag "Box".toList _ _
    (fun c member => ⟨fun same => normal.1 (same ▸ member), fun same => normal.2 (same ▸ member)⟩)
    opens notClosed (by decide) (by decide) blank rfl
  rw [code] at both
  exact both

end ComponentMarkdown
