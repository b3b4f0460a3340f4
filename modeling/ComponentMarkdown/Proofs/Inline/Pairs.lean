import ComponentMarkdown.Compiler
import ComponentMarkdown.Proofs.Inline.InPlace
import ComponentMarkdown.Proofs.Inline.Markup

/-!
# Pairs of tags

A close tag is looked for past whole constructs, with a memo of what was skipped, and what lies
between the tags is parsed once more. Printed markup is read as it was printed. The file has:

* the scanners at a text and at a tag;
* `Yields`, a computation that keeps a memo of marks, and `yields_closeAhead` for the search;
* `yields_parsePieces` for parsing, and `parseInline_print`, the result.
-/

namespace ComponentMarkdown

open Markup (openingTag closingTag emptyTag IsTagName IsPlain isNameChar)

/-! ## Scanners -/

theorem continuesName_of_isNameChar {c : Char} (isChar : isNameChar c = true) :
    Jsx.continuesName c = true := by
  simp only [isNameChar, Jsx.continuesName, Bool.or_eq_true] at isChar ⊢
  tauto

theorem Jsx.name_tag {name : Text} (named : IsTagName name) (s : Text) :
    Jsx.name? (name ++ '>' :: s) = some (name, '>' :: s) := by
  obtain ⟨letter, rest, rfl, isLetter, others⟩ := named.cases
  have begins : Jsx.beginsName letter = true := by simp [Jsx.beginsName, isLetter]
  have goesOn : ∀ c ∈ rest, Jsx.continuesName c = true :=
    fun c member => continuesName_of_isNameChar (others c member)
  have ends : Jsx.continuesName '>' = false := by decide
  simp only [List.cons_append, Jsx.name?, begins, if_true]
  rw [List.takeWhile_append_of_pos goesOn, List.dropWhile_append_of_pos goesOn]
  simp [ends]

theorem Jsx.openTag_print {name : Text} (named : IsTagName name) (s : Text) :
    Jsx.openTag? .inline (openingTag name ++ s) = some ⟨name, false, s⟩ := by
  have spelled : openingTag name ++ s = '<' :: (name ++ '>' :: s) := by simp [openingTag]
  rw [spelled, Jsx.openTag?, Jsx.name_tag named]
  rfl

theorem Jsx.closeTag_print {name : Text} (named : IsTagName name) (s : Text) :
    Jsx.closeTag? (closingTag name ++ s) = some (name, s) := by
  have spelled : closingTag name ++ s = '<' :: '/' :: (name ++ '>' :: s) := by simp [closingTag]
  have begins : Jsx.skipBlanks (name ++ '>' :: s) = name ++ '>' :: s := by
    obtain ⟨letter, rest, rfl, isLetter, -⟩ := named.cases
    have notBlank : isAsciiBlank letter = false :=
      not_isAsciiBlank (by simp [Char.isAlphanum, isLetter])
    exact List.dropWhile_cons_of_neg (by simp [notBlank])
  rw [spelled, Jsx.closeTag?, begins, Jsx.name_tag named]
  rfl

namespace TagGrammar

variable {name : Text}

theorem jsx_openTag (named : IsTagName name) (s : Text) :
    jsx.openTag .inline (openingTag name ++ s) = some ⟨name, (openingTag name).length⟩ := by
  have found := Jsx.openTag_print named s
  have length : (openingTag name ++ s).length - s.length = (openingTag name).length := by
    rw [List.length_append, Nat.add_sub_cancel]
  rw [jsx]
  dsimp only
  rw [found, Option.map_some, length]

theorem jsx_selfClosing (named : IsTagName name) (s : Text) :
    jsx.selfClosing .inline (openingTag name ++ s) = none := by
  simp [jsx, Jsx.openTag_print named s]

theorem jsx_openTag_closeTag (name s : Text) : jsx.openTag .inline (closingTag name ++ s) = none :=
  rfl

theorem jsx_closeTag (named : IsTagName name) (s : Text) :
    jsx.closeTag .inline (closingTag name ++ s) = some ⟨name, (closingTag name).length⟩ := by
  have found := Jsx.closeTag_print named s
  have length : (closingTag name ++ s).length - s.length = (closingTag name).length := by
    rw [List.length_append, Nat.add_sub_cancel]
  rw [jsx]
  dsimp only
  rw [found, Option.map_some, length]

theorem jsx_closeTag_openTag (named : IsTagName name) (s : Text) :
    jsx.closeTag .inline (openingTag name ++ s) = none := by
  obtain ⟨letter, rest, rfl, isLetter, -⟩ := named.cases
  have notClose : Jsx.closeTag? ('<' :: letter :: (rest ++ ['>'] ++ s)) = none := by
    rw [Jsx.closeTag?]
    rintro behind same
    cases same
    cases isLetter
  simpa [jsx, openingTag] using notClose

theorem jsx_closeTag_of_ne {c : Char} (other : c ≠ '<') (s : Text) :
    jsx.closeTag .inline (c :: s) = none := by
  have notClose : Jsx.closeTag? (c :: s) = none := by
    rw [Jsx.closeTag?]
    exact fun _ same => other (List.cons.inj same).1
  simpa [jsx] using notClose

theorem jsx_closeTag_text {content : Text} (plain : IsPlain content) (s : Text) :
    jsx.closeTag .inline (content ++ s) = none := by
  obtain ⟨c, content, rfl⟩ := List.exists_cons_of_ne_nil plain.ne_nil
  refine jsx_closeTag_of_ne ?_ (content ++ s)
  rintro rfl
  cases plain.plain '<' List.mem_cons_self

end TagGrammar

/-- The character at which `p` stops lies before the end or at it. -/
theorem head_dropWhile_append {p : Char → Bool} {l : Text} {stop : Char} (stops : p stop = false)
    (s : Text) : ∃ c ∈ l ++ [stop], ((l ++ stop :: s).dropWhile p).head? = some c := by
  induction l with
  | nil => exact ⟨stop, List.mem_singleton.mpr rfl, by simp [stops]⟩
  | cons c l ih =>
    rw [List.cons_append, List.cons_append, List.dropWhile_cons]
    split
    · obtain ⟨found, member, isHead⟩ := ih
      exact ⟨found, List.mem_cons_of_mem c member, isHead⟩
    · exact ⟨c, List.mem_cons_self, rfl⟩

/-- An address has a colon or an at sign. -/
theorem autolink_none {l : Text} {stop : Char} (plain : ∀ c ∈ l ++ [stop], c ≠ ':' ∧ c ≠ '@')
    (ends : isSchemeChar stop = false ∧ isMailboxChar stop = false) (s : Text) :
    autolink? ('<' :: (l ++ stop :: s)) = none := by
  have noAddress : address? (l ++ stop :: s) = none := by
    cases l with
    | nil =>
      have noLetter : stop.isAlpha = false := by
        have notAlphanum := ends.1
        simp only [isSchemeChar, Char.isAlphanum, Bool.or_eq_false_iff] at notAlphanum
        exact notAlphanum.1.1.1.1
      simp [address?, noLetter]
    | cons c l =>
      obtain ⟨found, member, isHead⟩ := @head_dropWhile_append _ l _ ends.1 s
      have notColon := (plain found (List.mem_cons_of_mem c member)).1
      simp [address?, isHead, notColon]
  have noMail : mailAddress? (l ++ stop :: s) = none := by
    obtain ⟨found, member, isHead⟩ := @head_dropWhile_append _ l _ ends.2 s
    have notAt := (plain found member).2
    rw [mailAddress?]
    split
    · next same =>
      rw [same] at isHead
      cases isHead
      exact absurd rfl notAt
    · rfl
  simp [autolink?, noAddress, noMail]

/-- A name of a tag has neither a colon nor an at sign. -/
theorem isTagName_plain {name : Text} (named : IsTagName name) : ∀ c ∈ name, c ≠ ':' ∧ c ≠ '@' := by
  obtain ⟨letter, rest, rfl, isLetter, others⟩ := named.cases
  refine List.forall_mem_cons.mpr ⟨?_, fun c member => ?_⟩
  · constructor <;> rintro rfl <;> cases isLetter
  · have isChar := others c member
    constructor <;> rintro rfl <;> cases isChar

/-- The tags of an element are no autolinks. -/
theorem autolink_tag {name : Text} (named : IsTagName name) (s : Text) :
    autolink? (openingTag name ++ s) = none ∧ autolink? (closingTag name ++ s) = none := by
  have plain : ∀ c ∈ name ++ ['>'], c ≠ ':' ∧ c ≠ '@' :=
    List.forall_mem_append.mpr
      ⟨isTagName_plain named, List.forall_mem_singleton.mpr (by decide)⟩
  have closes : ∀ c ∈ ('/' :: name) ++ ['>'], c ≠ ':' ∧ c ≠ '@' :=
    List.forall_mem_cons.mpr ⟨by decide, plain⟩
  have opened := autolink_none plain (by decide) s
  have closed := autolink_none closes (by decide) s
  exact ⟨by simpa [openingTag] using opened, by simpa [closingTag] using closed⟩

/-- Plain text ends where something else may begin. -/
theorem plainRun_print {content behind : Text} (plain : IsPlain content)
    (ends : ∀ c ∈ behind.head?, isSpecial c = true) :
    plainRun? (content ++ behind) = some (.leaf content.length (.literal content)) := by
  have whole : (content ++ behind).takeWhile (fun c => !isSpecial c) = content := by
    rw [List.takeWhile_append_of_pos fun c member => by simp [plain.plain c member]]
    cases behind with
    | nil => simp
    | cons c behind => simp [ends c rfl]
  simp [plainRun?, whole, plain.ne_nil]

/-- Behind text, something else begins. -/
theorem isSpecial_head {markup : Markup} (notText : markup.isText = false) {behind : Text}
    (ends : ∀ c ∈ behind.head?, isSpecial c = true) :
    ∀ c ∈ (markup.print ++ behind).head?, isSpecial c = true := by
  cases markup with
  | nil => exact ends
  | text => cases notText
  | element name children rest =>
    rintro c ⟨⟩
    rfl

/-- What every rule but one finds where a tag begins. -/
theorem scan_tag (md : Markdown) (skip : Skip) {c : Cursor} {s : Text} (begins : c.rest = '<' :: s)
    (noLink : autolink? c.rest = none) {rule : InlineRule} (other : rule ≠ .embedded) :
    scan md skip rule c = pure none := by
  cases rule with
  | embedded => exact absurd rfl other
  | autolink => rw [scan, noLink]
  | emphasis => simp [scan, emphasis?, begins]
  | link => simp [scan, link?, begins]
  | image => simp [scan, image?, begins]
  | _ => rw [scan, begins]; rfl

/-! ## Memos of marks -/

/-- What skipping finds at places of a text. -/
abbrev Marks := List (Nat × Skipped)

/-- There is one mark at a place at most. -/
def Marks.Unique (marks : Marks) : Prop :=
  ∀ place mark other, (place, mark) ∈ marks → (place, other) ∈ marks → mark = other

/-- The memo holds nothing but marks. -/
def Memo.Keeps (memo : Memo) (marks : Marks) : Prop :=
  ∀ (place : Nat) (known : Skipped), memo[place]? = some known → (place, known) ∈ marks

theorem Memo.keeps_empty (marks : Marks) : Memo.Keeps ∅ marks := by
  intro place known found
  simp at found

theorem Memo.Keeps.insert {memo : Memo} {marks : Marks} (keeps : memo.Keeps marks) {place : Nat}
    {mark : Skipped} (member : (place, mark) ∈ marks) :
    Memo.Keeps (memo.insert place mark) marks := by
  intro other known found
  rw [Std.TreeMap.getElem?_insert] at found
  split at found
  · next same =>
    cases found
    rwa [← Nat.compare_eq_eq.mp same]
  · exact keeps other known found

namespace Memoized

variable {α β : Type}

/-- With a memo of marks, `x` gives the value and another memo of marks. -/
def Yields (marks : Marks) (x : Memoized α) (value : α) : Prop :=
  ∀ memo : Memo, memo.Keeps marks → (x.run memo).1 = value ∧ Memo.Keeps (x.run memo).2 marks

variable {marks : Marks}

theorem Yields.pure (value : α) : Yields marks (Pure.pure value) value :=
  fun _ keeps => ⟨rfl, keeps⟩

theorem Yields.bind {x : Memoized α} {f : α → Memoized β} {value : α} {result : β}
    (first : Yields marks x value) (next : Yields marks (f value) result) :
    Yields marks (x >>= f) result := by
  intro memo keeps
  obtain ⟨same, kept⟩ := first memo keeps
  rw [run_bind, same]
  exact next _ kept

end Memoized

open Memoized (Yields)

section

variable {md : Markdown} {marks : Marks} {c : Cursor}

/-- A mark is looked up or found anew, and remembered. -/
theorem yields_lookUp {find : Skip} {mark : Skipped} (unique : marks.Unique)
    (member : (c.pos, mark) ∈ marks) (inWindow : mark.stop ≤ c.stop)
    (found : Yields marks (find c) mark) : Yields marks (lookUp find c) mark := by
  intro memo keeps
  have anew : ((remember find c).run memo).1 = mark ∧
      Memo.Keeps ((remember find c).run memo).2 marks := by
    obtain ⟨same, kept⟩ := found memo keeps
    have placed : (c.pos, ((find c).run memo).1) ∈ marks := by rwa [same]
    exact ⟨same, Memo.Keeps.insert kept placed⟩
  rw [run_lookUp]
  split
  · next known recalled =>
    have same := unique _ _ _ (keeps _ _ recalled) member
    subst same
    rw [if_pos inWindow]
    exact ⟨rfl, keeps⟩
  · exact anew

/-- The mark for what the rules find at a place. -/
def Skipped.behind (place : Nat) : Option Nat → Skipped
  | some length => ⟨place + length, true⟩
  | none => ⟨place + 1, false⟩

/-- Skipping takes what the rules find, or one character. -/
theorem yields_skip {budget : Nat} {found : Option Nat} (unique : marks.Unique)
    (member : (c.pos, .behind c.pos found) ∈ marks)
    (inWindow : (Skipped.behind c.pos found).stop ≤ c.stop)
    (first : Yields marks (firstLength (scan md (skip md budget)) c md.inlineChain) found) :
    Yields marks (skip md (budget + 1) c) (.behind c.pos found) := by
  refine yields_lookUp unique member inWindow (first.bind ?_)
  cases found <;> exact .pure _

end

/-! ## The first match -/

section

variable {marks : Marks} {c : Cursor}
  {scanRule : InlineRule → Cursor → Memoized (Option Construct)}

theorem firstLength_none {rules : List InlineRule} (none : ∀ rule, scanRule rule c = pure none) :
    firstLength scanRule c rules = pure Option.none := by
  induction rules with
  | nil => rfl
  | cons rule rules ih =>
    rw [firstLength, none]
    exact ih

theorem yields_firstLength {before after : List InlineRule} {rule : InlineRule}
    {construct : Construct} (others : ∀ other ∈ before, scanRule other c = pure none)
    (found : Yields marks (scanRule rule c) (some construct)) (positive : 0 < construct.length) :
    Yields marks (firstLength scanRule c (before ++ rule :: after)) (some construct.length) := by
  induction before with
  | nil =>
    rw [List.nil_append, firstLength]
    refine found.bind ?_
    dsimp only
    rw [if_pos positive]
    exact .pure _
  | cons other before ih =>
    obtain ⟨first, behind⟩ := List.forall_mem_cons.mp others
    rw [List.cons_append, firstLength, first]
    exact ih behind

theorem yields_firstPieces {resolve : Cursor → Construct → Memoized Inline}
    {before after : List InlineRule} {rule : InlineRule} {construct : Construct} {piece : Inline}
    (others : ∀ other ∈ before, scanRule other c = pure none)
    (found : Yields marks (scanRule rule c) (some construct)) (positive : 0 < construct.length)
    (resolved : Yields marks (resolve c construct) piece) :
    Yields marks (firstPieces scanRule resolve c (before ++ rule :: after))
      ([piece], construct.length) := by
  induction before with
  | nil =>
    rw [List.nil_append, firstPieces]
    refine found.bind (resolved.bind ?_)
    rw [if_pos positive]
    exact .pure _
  | cons other before ih =>
    obtain ⟨first, behind⟩ := List.forall_mem_cons.mp others
    rw [List.cons_append, firstPieces, first]
    exact ih behind

end

/-! ## Cursors -/

namespace Cursor

variable {c : Cursor} {front behind : Text}

theorem rest_advance (here : c.rest = front ++ behind) :
    (c.advance front.length).rest = behind := by
  simp [advance, here]

theorem moveTo_add (c : Cursor) (n : Nat) : c.moveTo (c.pos + n) = c.advance n := by
  rw [moveTo, Nat.add_sub_cancel_left]

theorem stop_eq (here : c.rest = front ++ behind) :
    c.stop = c.pos + front.length + behind.length := by
  rw [stop, here, List.length_append]
  omega

end Cursor

/-! ## The search for a close tag -/

/-- The construct that an element is. -/
def Markup.construct (code name : Text) (children : Markup) : Construct where
  length := (Markup.whole name children).length
  form :=
    if children = .nil then .leaf (.embedded code)
    else .enclosing (.element code) (openingTag name).length children.print.length

section

variable {md : Markdown} {marks : Marks} {c : Cursor} {skip : Skip} {name : Text}

theorem selfClosed_openTag (name : Text) : selfClosed (openingTag name) = emptyTag name := by
  simp [selfClosed, openingTag, emptyTag]

theorem mayEmbed_openTag (named : IsTagName name) (behind : Text) :
    mayEmbed (openingTag name ++ behind) = true := by
  obtain ⟨letter, rest, rfl, isLetter, -⟩ := named.cases
  cases rest <;> simp [openingTag, mayEmbed, isLetter]

/-- A tag around a body is an element, if the close tag is found behind the body. -/
theorem yields_embedded_tag {tag body close behind : Text} {code : Text}
    (here : c.rest = tag ++ (body ++ (close ++ behind))) (may : mayEmbed c.rest = true)
    (opens : md.grammar.openTag .inline c.rest = some ⟨name, tag.length⟩)
    (notClosed : md.grammar.selfClosing .inline c.rest = none)
    (accepted : md.transform.embed? (selfClosed tag) = some code)
    (search : ∀ fuel, body.length < fuel → Yields marks
      (closeAhead md.grammar skip name fuel (c.advance tag.length))
      (some (c.pos + tag.length + body.length,
        c.pos + tag.length + body.length + close.length))) :
    Yields marks (embedded? md skip c)
      (some ⟨tag.length + body.length + close.length,
        if body.all isBlank then .leaf (.embedded code)
        else .enclosing (.element code) tag.length body.length⟩) := by
  have fits : body.length < (body ++ (close ++ behind)).length + 1 := by
    rw [List.length_append]
    omega
  have bodyLength :
      c.pos + tag.length + body.length - (c.advance tag.length).pos = body.length := by
    rw [Cursor.advance_pos, Nat.add_sub_cancel_left]
  have length : c.pos + tag.length + body.length + close.length - c.pos =
      tag.length + body.length + close.length := by
    omega
  rw [embedded?, may, opens, notClosed]
  dsimp only
  rw [Cursor.rest_advance here]
  refine (search _ fits).bind ?_
  dsimp only
  rw [bodyLength, length, List.take_left, here, List.take_left, accepted]
  exact Yields.pure _

theorem yields_embedded (jsx : md.grammar = TagGrammar.jsx) (named : IsTagName name)
    {code : Text} (accepted : md.transform.embed? (emptyTag name) = some code)
    {children : Markup} (inside : children.Printable) {behind : Text}
    (here : c.rest = Markup.whole name children ++ behind)
    (search : ∀ fuel, children.print.length < fuel → Yields marks
      (closeAhead md.grammar skip name fuel (c.advance (openingTag name).length))
      (some (c.pos + (openingTag name).length + children.print.length,
        c.pos + (openingTag name).length + children.print.length + (closingTag name).length))) :
    Yields marks (embedded? md skip c) (some (Markup.construct code name children)) := by
  rw [Markup.whole_append] at here
  have found := yields_embedded_tag here (here ▸ mayEmbed_openTag named _)
    (by rw [jsx, here, TagGrammar.jsx_openTag named])
    (by rw [jsx, here, TagGrammar.jsx_selfClosing named])
    (by rw [selfClosed_openTag, accepted]) search
  rw [← Markup.whole_length, inside.all_isBlank_print] at found
  simpa [Markup.construct] using found

/-- Where a close tag begins, no rule matches. -/
theorem scan_closeTag (jsx : md.grammar = TagGrammar.jsx) (named : IsTagName name) {behind : Text}
    (here : c.rest = closingTag name ++ behind) (rule : InlineRule) :
    scan md skip rule c = pure none := by
  by_cases embedded : rule = .embedded
  · have notOpen : md.grammar.openTag .inline c.rest = none := by
      rw [jsx, here, TagGrammar.jsx_openTag_closeTag]
    subst embedded
    rw [scan, embedded?, notOpen]
    split <;> rfl
  · have noLink : autolink? c.rest = none := here ▸ (autolink_tag named behind).2
    exact scan_tag md skip here noLink embedded

/-- The search goes on behind what is no close tag. -/
theorem yields_closeAhead_behind {next : Nat} {consumed : Bool} {found : Option (Nat × Nat)}
    {fuel : Nat} (notEmpty : c.rest ≠ []) (skips : Yields marks (skip c) ⟨next, consumed⟩)
    (noTag : md.grammar.closeTag .inline c.rest = none)
    (behind : Yields marks (closeAhead md.grammar skip name fuel (c.moveTo next)) found) :
    Yields marks (closeAhead md.grammar skip name (fuel + 1) c) found := by
  rw [closeAhead, if_neg (by simpa using notEmpty)]
  refine skips.bind ?_
  rw [noTag]
  exact behind

theorem yields_closeAhead_here {skipped : Skipped} {length fuel : Nat} (notEmpty : c.rest ≠ [])
    (skips : Yields marks (skip c) skipped) (single : skipped.consumed = false)
    (tag : md.grammar.closeTag .inline c.rest = some ⟨name, length⟩) :
    Yields marks (closeAhead md.grammar skip name (fuel + 1) c) (some (c.pos, c.pos + length)) := by
  rw [closeAhead, if_neg (by simpa using notEmpty)]
  refine skips.bind ?_
  rw [tag]
  dsimp only
  rw [if_pos ⟨rfl, single⟩]
  exact .pure _

end

/-- A dialect with the usual tags and rules, the transformer of which accepts the elements of the
markup and gives `code` for them. -/
structure Markdown.Reads (md : Markdown) (code : Text → Text) (markup : Markup) : Prop where
  jsx : md.grammar = TagGrammar.jsx
  chain : md.inlineChain = InlineRule.all
  accepted : ∀ name ∈ markup.names, md.transform.embed? (emptyTag name) = some (code name)

/-- Parts of markup are read like the whole. -/
theorem Markdown.Reads.part {md : Markdown} {code : Text → Text} {markup part : Markup}
    (reads : md.Reads code markup) (subset : part.names ⊆ markup.names) : md.Reads code part :=
  ⟨reads.jsx, reads.chain, fun name member => reads.accepted name (subset member)⟩

section

variable {md : Markdown} {marks : Marks} {code : Text → Text}

theorem yields_scan_text {skip : Skip} {c : Cursor} {content behind : Text}
    (plain : IsPlain content) (here : c.rest = content ++ behind)
    (ends : ∀ c ∈ behind.head?, isSpecial c = true) :
    Yields marks (scan md skip .text c) (some (.leaf content.length (.literal content))) := by
  rw [scan, here, plainRun_print plain ends]
  exact .pure _

/-- Skipping takes the whole of a text. -/
theorem yields_skip_text (unique : marks.Unique) (chain : md.inlineChain = InlineRule.all)
    {budget : Nat} {c : Cursor} {content behind : Text} (plain : IsPlain content)
    (here : c.rest = content ++ behind) (ends : ∀ c ∈ behind.head?, isSpecial c = true)
    (member : (c.pos, ⟨c.pos + content.length, true⟩) ∈ marks) :
    Yields marks (skip md (budget + 1) c) ⟨c.pos + content.length, true⟩ := by
  have inWindow : c.pos + content.length ≤ c.stop := by
    rw [Cursor.stop_eq here]
    omega
  refine @yields_skip md marks c budget (some content.length) unique member inWindow ?_
  rw [chain]
  exact @yields_firstLength marks c _ [] _ .text _ (List.forall_mem_nil _)
    (yields_scan_text plain here ends) plain.length_pos

/-- Skipping takes one character of a close tag. -/
theorem yields_skip_closeTag (unique : marks.Unique) (jsx : md.grammar = TagGrammar.jsx)
    {budget : Nat} {c : Cursor} {name behind : Text} (named : IsTagName name)
    (here : c.rest = closingTag name ++ behind) (member : (c.pos, ⟨c.pos + 1, false⟩) ∈ marks) :
    Yields marks (skip md (budget + 1) c) ⟨c.pos + 1, false⟩ := by
  have inWindow : c.pos + 1 ≤ c.stop := by
    have : 0 < (closingTag name).length := Nat.succ_pos _
    rw [Cursor.stop_eq here]
    omega
  refine @yields_skip md marks c budget none unique member inWindow ?_
  rw [firstLength_none (scan_closeTag jsx named here)]
  exact .pure none

/-- The rules in front of the one for embedded markup. -/
def earlierRules : List InlineRule :=
  [.text, .newline, .escape, .backticks, .emphasis, .link, .image, .autolink]

theorem scan_earlier {skip : Skip} {c : Cursor} {name behind : Text} {children : Markup}
    (named : IsTagName name) (here : c.rest = Markup.whole name children ++ behind) :
    ∀ rule ∈ earlierRules, scan md skip rule c = pure none := by
  rw [Markup.whole_append] at here
  have noLink : autolink? c.rest = none := here ▸ (autolink_tag named _).1
  have others : ∀ rule ∈ earlierRules, rule ≠ .embedded := by decide
  exact fun rule member => scan_tag md skip here noLink (others rule member)

theorem Markup.construct_positive (code name : Text) (children : Markup) :
    0 < (Markup.construct code name children).length := by
  obtain ⟨opening, closing⟩ := Markup.tags_length_pos name
  have length := Markup.whole_length name children
  rw [Markup.construct]
  dsimp only
  omega

/-- Skipping takes the whole of an element. -/
theorem yields_skip_element (unique : marks.Unique) (chain : md.inlineChain = InlineRule.all)
    {budget : Nat} {c : Cursor} {call name behind : Text} {children : Markup}
    (named : IsTagName name) (here : c.rest = Markup.whole name children ++ behind)
    (found : Yields marks (embedded? md (skip md budget) c)
      (some (Markup.construct call name children)))
    (member : (c.pos, ⟨c.pos + (Markup.whole name children).length, true⟩) ∈ marks) :
    Yields marks (skip md (budget + 1) c)
      ⟨c.pos + (Markup.whole name children).length, true⟩ := by
  have inWindow : c.pos + (Markup.whole name children).length ≤ c.stop := by
    rw [Cursor.stop_eq here]
    omega
  refine @yields_skip md marks c budget (some _) unique member inWindow ?_
  rw [chain]
  exact @yields_firstLength marks c _ earlierRules [.entity] .embedded _ (scan_earlier named here)
    found (Markup.construct_positive call name children)

/-- The close tag behind markup is found. The induction is on the markup that is skipped; the search
inside an element has one level less. -/
theorem yields_closeAhead (unique : marks.Unique) {markup : Markup} (printable : markup.Printable)
    (reads : md.Reads code markup) {budget : Nat} (room : markup.depth ≤ budget) {c : Cursor}
    {name behind : Text} (named : IsTagName name)
    (here : c.rest = markup.print ++ (closingTag name ++ behind))
    (marked : markup.marks c.pos ⊆ marks)
    (closes : (c.pos + markup.print.length, ⟨c.pos + markup.print.length + 1, false⟩) ∈ marks)
    {fuel : Nat} (enough : markup.print.length < fuel) :
    Yields marks (closeAhead md.grammar (skip md (budget + 1)) name fuel c)
      (some (c.pos + markup.print.length,
        c.pos + markup.print.length + (closingTag name).length)) := by
  induction markup generalizing budget c name behind fuel with
  | nil =>
    obtain ⟨fuel, rfl⟩ := Nat.exists_eq_add_one.mpr (Nat.zero_lt_of_lt enough)
    have tag : md.grammar.closeTag .inline c.rest = some ⟨name, (closingTag name).length⟩ := by
      rw [reads.jsx, here]
      exact TagGrammar.jsx_closeTag named behind
    have notEmpty : c.rest ≠ [] := by rw [here]; exact List.cons_ne_nil _ _
    have skips := @yields_skip_closeTag md marks unique reads.jsx budget c _ _ named here closes
    exact yields_closeAhead_here notEmpty skips rfl tag
  | text content rest ih =>
    obtain ⟨plain, notText, others⟩ := printable
    obtain ⟨fuel, rfl⟩ := Nat.exists_eq_add_one.mpr (Nat.zero_lt_of_lt enough)
    obtain ⟨ownMark, restMarks⟩ := List.cons_subset.mp marked
    have positive := plain.length_pos
    rw [Markup.print, List.append_assoc] at here
    rw [Markup.print, List.length_append] at closes enough ⊢
    have ends : ∀ c ∈ (rest.print ++ (closingTag name ++ behind)).head?, isSpecial c = true :=
      isSpecial_head notText (by rintro c ⟨⟩; rfl)
    have skips := @yields_skip_text md marks unique reads.chain budget c _ _ plain here ends ownMark
    have noTag : md.grammar.closeTag .inline c.rest = none := by
      rw [reads.jsx, here]
      exact TagGrammar.jsx_closeTag_text plain _
    have notEmpty : c.rest ≠ [] := by simp [here, plain.ne_nil]
    refine yields_closeAhead_behind notEmpty skips noTag ?_
    rw [Cursor.moveTo_add]
    rw [← Nat.add_assoc] at closes ⊢
    exact ih others (reads.part (List.Subset.refl _)) room named (Cursor.rest_advance here)
      restMarks closes (by omega)
  | element inner children rest ihChildren ih =>
    obtain ⟨innerNamed, inside, others⟩ := printable
    obtain ⟨roomInside, roomBehind⟩ := Nat.max_le.mp room
    obtain ⟨budget, rfl⟩ := Nat.exists_eq_add_one.mpr (Nat.zero_lt_of_lt roomInside)
    obtain ⟨fuel, rfl⟩ := Nat.exists_eq_add_one.mpr (Nat.zero_lt_of_lt enough)
    have names : (Markup.element inner children rest).names =
        inner :: (children.names ++ rest.names) := rfl
    obtain ⟨ownMark, childMarks, closeMark, restMarks⟩ := Markup.marks_element_subset marked
    obtain ⟨opening, closing⟩ := Markup.tags_length_pos inner
    have length := Markup.whole_length inner children
    rw [Markup.print_element, List.append_assoc] at here
    rw [Markup.print_element, List.length_append] at closes enough ⊢
    have spelled := here.trans (Markup.whole_append inner children _)
    -- The children are skipped with one level less, by the induction hypothesis for them.
    have found := yields_embedded reads.jsx innerNamed (reads.accepted inner (by simp [names]))
      inside here fun fuel fits =>
        ihChildren inside (reads.part (by simp [names])) (Nat.le_of_succ_le_succ roomInside)
          innerNamed (Cursor.rest_advance spelled) childMarks closeMark fits
    have skips := yields_skip_element unique reads.chain innerNamed here found ownMark
    have noTag : md.grammar.closeTag .inline c.rest = none := by
      rw [reads.jsx, spelled]
      exact TagGrammar.jsx_closeTag_openTag innerNamed _
    have notEmpty : c.rest ≠ [] := by rw [spelled]; exact List.cons_ne_nil _ _
    refine yields_closeAhead_behind notEmpty skips noTag ?_
    rw [Cursor.moveTo_add]
    rw [← Nat.add_assoc] at closes ⊢
    exact ih others (reads.part (by simp [names])) roomBehind named (Cursor.rest_advance here)
      restMarks closes (by omega)

end

/-! ## Parsing -/

section

variable {md : Markdown} {marks : Marks} {code : Text → Text}

theorem yields_parsePieces_behind {next : Cursor → Memoized (List Inline × Nat)} {c : Cursor}
    {front behind : Text} {piece : Inline} {more : List Inline} {fuel : Nat}
    (here : c.rest = front ++ behind) (notEmpty : front ≠ [])
    (found : Yields marks (next c) ([piece], front.length))
    (others : Yields marks (parsePieces next fuel (c.advance front.length)) more) :
    Yields marks (parsePieces next (fuel + 1) c) (piece :: more) := by
  rw [parsePieces]
  split
  · next ended =>
    rw [here] at ended
    exact absurd (List.append_eq_nil_iff.mp ended).1 notEmpty
  · refine found.bind ?_
    dsimp only
    rw [if_pos (List.length_pos_iff.mpr notEmpty)]
    exact others.bind (.pure _)

/-- Without elements there is one text at most. -/
theorem pieces_of_depth_zero {markup : Markup} (printable : markup.Printable)
    (flat : markup.depth = 0) (notNil : markup ≠ .nil) :
    markup.pieces code = [.literal markup.print] := by
  cases markup with
  | nil => exact absurd rfl notNil
  | text content rest =>
    obtain ⟨-, notText, -⟩ := printable
    cases rest with
    | nil => simp [Markup.pieces, Markup.print]
    | text => cases notText
    | element => simp [Markup.depth] at flat
  | element => simp [Markup.depth] at flat

/-- The construct of an element becomes one piece. -/
theorem yields_resolve {parseLabel : Text → List Inline}
    {parseBody : Cursor → Memoized (List Inline)} {c : Cursor} {name : Text} {children : Markup}
    (bodies : children ≠ .nil →
      Yields marks (parseBody (c.window (openingTag name).length children.print.length))
        (children.pieces code)) :
    Yields marks (resolve parseLabel parseBody c (Markup.construct (code name) name children))
      (if children = .nil then .embedded (code name)
        else .element (code name) (children.pieces code)) := by
  rw [resolve, Markup.construct]
  dsimp only
  by_cases childless : children = .nil
  · rw [if_pos childless, if_pos childless]
    exact .pure _
  · rw [if_neg childless, if_neg childless]
    exact (bodies childless).bind (.pure _)

/-- Children of an element are parsed if they are parsed piece by piece with one level less. -/
theorem yields_children {parseLabel : Text → List Inline} {children : Markup}
    (inside : children.Printable) (notNil : children ≠ .nil) {budget : Nat}
    (room : children.depth ≤ budget) {c : Cursor} (here : c.rest = children.print)
    (parsed : ∀ deeper, budget = deeper + 1 →
      Yields marks (parseWindow md parseLabel (deeper + 1) c) (children.pieces code)) :
    Yields marks (parseWindow md parseLabel budget c) (children.pieces code) := by
  cases budget with
  | zero =>
    -- Without a level left the window is literal, and the children are nothing but a text.
    rw [parseWindow, here, pieces_of_depth_zero inside (Nat.le_zero.mp room) notNil]
    exact .pure _
  | succ deeper => exact parsed deeper rfl

/-- A text is one piece. -/
theorem yields_piece_text {skip : Skip} {parseLabel : Text → List Inline}
    {parseBody : Cursor → Memoized (List Inline)} (chain : md.inlineChain = InlineRule.all)
    {c : Cursor} {content : Text} {rest : Markup} (plain : IsPlain content)
    (notText : rest.isText = false) (here : c.rest = content ++ rest.print) :
    Yields marks (firstPieces (scan md skip) (resolve parseLabel parseBody) c md.inlineChain)
      ([.literal content], content.length) := by
  have ends : ∀ c ∈ rest.print.head?, isSpecial c = true := by
    simpa using @isSpecial_head rest notText [] (by simp)
  rw [chain]
  exact @yields_firstPieces marks c _ _ [] _ .text _ _ (List.forall_mem_nil _)
    (yields_scan_text plain here ends) plain.length_pos (.pure _)

/-- An element is one piece, with what its children are parsed to. -/
theorem yields_piece_element {skip : Skip} {parseLabel : Text → List Inline}
    {parseBody : Cursor → Memoized (List Inline)} (chain : md.inlineChain = InlineRule.all)
    {c : Cursor} {name : Text} {children rest : Markup} (named : IsTagName name)
    (here : c.rest = Markup.whole name children ++ rest.print)
    (construct : Yields marks (embedded? md skip c)
      (some (Markup.construct (code name) name children)))
    (bodies : ∀ body : Cursor, body = c.window (openingTag name).length children.print.length →
      body.rest = children.print → children ≠ .nil →
        Yields marks (parseBody body) (children.pieces code)) :
    Yields marks (firstPieces (scan md skip) (resolve parseLabel parseBody) c md.inlineChain)
      ([if children = .nil then .embedded (code name)
        else .element (code name) (children.pieces code)],
        (Markup.whole name children).length) := by
  have inside : (c.window (openingTag name).length children.print.length).rest =
      children.print := by
    rw [Cursor.window]
    dsimp only
    rw [Cursor.rest_advance (here.trans (Markup.whole_append name children _)), List.take_left]
  rw [chain]
  exact @yields_firstPieces marks c _ _ earlierRules [.entity] .embedded _ _
    (scan_earlier named here) construct (Markup.construct_positive _ name children)
    (yields_resolve (bodies _ rfl inside))

/-- The pieces of markup are parsed. The induction is on the markup; the children of an element are
parsed with one level less, and without a level left they are a text. -/
theorem yields_parsePieces (unique : marks.Unique) (parseLabel : Text → List Inline)
    {markup : Markup} (printable : markup.Printable) (reads : md.Reads code markup) {budget : Nat}
    (room : markup.depth ≤ budget + 1) {c : Cursor} (here : c.rest = markup.print)
    (marked : markup.marks c.pos ⊆ marks) {fuel : Nat} (enough : markup.print.length ≤ fuel) :
    let next := fun c =>
      firstPieces (scan md (skip md (budget + 1)))
        (resolve parseLabel (parseWindow md parseLabel budget)) c md.inlineChain
    Yields marks (parsePieces next fuel c) (markup.pieces code) := by
  intro next
  induction markup generalizing budget c fuel with
  | nil =>
    cases fuel with
    | zero => exact .pure _
    | succ fuel =>
      have ended : c.rest = [] := here
      rw [parsePieces, ended]
      exact .pure _
  | text content rest ih =>
    obtain ⟨plain, notText, others⟩ := printable
    have positive := plain.length_pos
    rw [Markup.print, List.length_append] at enough
    obtain ⟨fuel, rfl⟩ := Nat.exists_eq_add_one.mpr (show 0 < fuel by omega)
    obtain ⟨-, restMarks⟩ := List.cons_subset.mp marked
    have found : Yields marks (next c) ([.literal content], content.length) :=
      yields_piece_text reads.chain plain notText here
    refine yields_parsePieces_behind here plain.ne_nil found ?_
    exact ih others (reads.part (List.Subset.refl _)) room (Cursor.rest_advance here) restMarks
      (by omega)
  | element name children rest ihChildren ih =>
    obtain ⟨named, inside, others⟩ := printable
    have names : (Markup.element name children rest).names =
        name :: (children.names ++ rest.names) := rfl
    obtain ⟨-, childMarks, closeMark, restMarks⟩ := Markup.marks_element_subset marked
    obtain ⟨opening, closing⟩ := Markup.tags_length_pos name
    have length := Markup.whole_length name children
    obtain ⟨roomInside, roomBehind⟩ := Nat.max_le.mp room
    rw [Markup.print_element] at here
    rw [Markup.print_element, List.length_append] at enough
    obtain ⟨fuel, rfl⟩ := Nat.exists_eq_add_one.mpr (show 0 < fuel by omega)
    have spelled := here.trans (Markup.whole_append name children _)
    have readsChildren : md.Reads code children := reads.part (by simp [names])
    have roomChildren := Nat.le_of_succ_le_succ roomInside
    have construct := yields_embedded reads.jsx named (reads.accepted name (by simp [names]))
      inside here fun fuel fits =>
        yields_closeAhead unique inside readsChildren roomChildren named
          (Cursor.rest_advance spelled) childMarks closeMark fits
    have found : Yields marks (next c) _ :=
      yields_piece_element reads.chain named here construct fun body isBody isInside notNil => by
        refine yields_children inside notNil roomChildren isInside ?_
        rintro deeper rfl
        exact ihChildren inside readsChildren roomChildren isInside (isBody ▸ childMarks)
          (Nat.le_of_eq (by rw [isInside]))
    refine yields_parsePieces_behind here (List.cons_ne_nil _ _) found ?_
    exact ih others (reads.part (by simp [names])) roomBehind (Cursor.rest_advance here) restMarks
      (by omega)

end

/-- The tokens of what is parsed. Without a level of nesting all text is literal. -/
theorem emitAll_parse {md : Markdown} {code : Text → Text} {markup : Markup}
    (printable : markup.Printable) (reads : md.Reads code markup)
    (room : markup.depth ≤ md.maxNesting) :
    Inline.emitAll 0 [] (Inline.parse md markup.print) = markup.tokens code 0 := by
  have unique : Marks.Unique (markup.marks 0) := fun _ _ _ => printable.mark_unique
  have tokens := printable.emitAll_pieces code 0 fun _ => rfl
  rw [Inline.parse, parseNested]
  cases levels : md.maxNesting with
  | zero =>
    by_cases notNil : markup = .nil
    · subst notNil
      rfl
    · have flat : markup.depth = 0 := Nat.le_zero.mp (levels ▸ room)
      rw [pieces_of_depth_zero printable flat notNil] at tokens
      exact tokens
  | succ budget =>
    have here : (Cursor.start markup.print).rest = markup.print := rfl
    have parsed := yields_parsePieces unique (parseNested md markup.print.length) printable reads
      (levels ▸ room) here (List.Subset.refl _) (Nat.le_refl _) ∅ (Memo.keeps_empty _)
    exact (congrArg (Inline.emitAll 0 []) parsed.1).trans tokens

/-- Printed markup is parsed as it was printed: every element is closed by its own tag, whatever the
names are. -/
theorem parseInline_print (md : Markdown) {code : Text → Text} {markup : Markup}
    (printable : markup.Printable) (reads : md.Reads code markup)
    (room : markup.depth ≤ md.maxNesting) :
    md.parseInline markup.print = markup.tokens code 0 := by
  have lawful : md.grammar.Lawful := reads.jsx ▸ TagGrammar.jsx_lawful
  rw [Markdown.parseInline, printable.normalize_print, Markdown.inlineTokens,
    InlineRun.parse_eq lawful, Inline.tokens]
  exact emitAll_parse printable reads room

/-- An element inside one of the same name. -/
theorem parseInline_print_nested :
    let md : Markdown := { maxNesting := 2, transform := .ok }
    let inner := Markup.element ['B'] (.text ['y'] .nil) (.text ['z'] .nil)
    let markup := Markup.element ['B'] (.text ['x'] inner) (.text ['.'] .nil)
    markup.print = "<B>x<B>y</B>z</B>.".toList ∧
      md.parseInline markup.print = markup.tokens emptyTag 0 :=
  ⟨by decide, parseInline_print _ (by decide) ⟨rfl, by decide, by decide⟩ (by decide)⟩

end ComponentMarkdown
