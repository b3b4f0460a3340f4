import ComponentMarkdown.Inline.Parse
import ComponentMarkdown.Inline.Tokens
import ComponentMarkdown.Proofs.Text.LineEnding
import Mathlib.Data.List.Nodup

/-!
# Printed markup

Markup is text and elements around further markup, and it is printed with tags of JSX. The file has:

* `Markup`, how it is printed, and the tokens that it stands for;
* `Markup.marks`, what skipping finds at the places of its texts and tags, which all differ;
* `Markup.pieces`, the inline content that parsing makes of it, and `emitAll_pieces`.
-/

namespace ComponentMarkdown

/-- Texts and elements, one behind the other. -/
inductive Markup where
  | nil
  | text (content : Text) (rest : Markup)
  | element (name : Text) (children rest : Markup)
deriving DecidableEq, Repr

namespace Markup

/-! ## Print -/

def openingTag (name : Text) : Text :=
  '<' :: (name ++ ['>'])

def closingTag (name : Text) : Text :=
  '<' :: '/' :: (name ++ ['>'])

/-- The tag of an element without children, which is given to the transformer. -/
def emptyTag (name : Text) : Text :=
  '<' :: (name ++ ['/', '>'])

def print : Markup → Text
  | nil => []
  | text content rest => content ++ rest.print
  | element name children rest =>
    openingTag name ++ (children.print ++ (closingTag name ++ rest.print))

/-- An element with its tags. -/
def whole (name : Text) (children : Markup) : Text :=
  openingTag name ++ (children.print ++ closingTag name)

/-- The greatest number of elements around each other. -/
def depth : Markup → Nat
  | nil => 0
  | text _ rest => rest.depth
  | element _ children rest => max (children.depth + 1) rest.depth

/-- The names of all elements. -/
def names : Markup → List Text
  | nil => []
  | text _ rest => rest.names
  | element name children rest => name :: (children.names ++ rest.names)

def isText : Markup → Bool
  | text .. => true
  | _ => false

/-- The characters of a name behind the first one, which is a letter. -/
def isNameChar (c : Char) : Bool :=
  c.isAlphanum || c == '_' || c == '$' || c == '.' || c == '-'

/-- A letter with letters, digits and some punctuation behind it. -/
structure IsTagName (name : Text) : Prop where
  first : name.head?.any Char.isAlpha
  others : ∀ c ∈ name.tail, isNameChar c

/-- Text that is not blank, with no character at which a construct may begin, and none that is
changed before parsing. -/
structure IsPlain (content : Text) : Prop where
  shown : ∃ c ∈ content, isBlank c = false
  plain : ∀ c ∈ content, isSpecial c = false
  normal : ∀ c ∈ content, c ≠ '\r' ∧ c ≠ '\x00'

/-- Texts are plain, there is none directly behind another, and elements have names. -/
def Printable : Markup → Prop
  | nil => True
  | text content rest => IsPlain content ∧ rest.isText = false ∧ rest.Printable
  | element name children rest => IsTagName name ∧ children.Printable ∧ rest.Printable

instance (name : Text) : Decidable (IsTagName name) :=
  decidable_of_iff (name.head?.any Char.isAlpha && name.tail.all isNameChar) (by
    rw [Bool.and_eq_true, List.all_eq_true]
    exact ⟨fun ⟨first, others⟩ => ⟨first, others⟩, fun named => ⟨named.first, named.others⟩⟩)

instance (content : Text) : Decidable (IsPlain content) :=
  decidable_of_iff ((content.any fun c => !isBlank c) && content.all fun c =>
      !isSpecial c && (c != '\r' && c != '\x00')) (by
    simp only [Bool.and_eq_true, List.any_eq_true, List.all_eq_true, Bool.not_eq_true', bne_iff_ne]
    exact ⟨fun ⟨shown, each⟩ => ⟨shown, fun c member => (each c member).1,
        fun c member => (each c member).2⟩,
      fun isPlain => ⟨isPlain.shown, fun c member =>
        ⟨isPlain.plain c member, isPlain.normal c member⟩⟩⟩)

instance decidablePrintable : (markup : Markup) → Decidable markup.Printable
  | nil => .isTrue trivial
  | text _ rest =>
    have := decidablePrintable rest
    inferInstanceAs (Decidable (_ ∧ _ ∧ _))
  | element _ children rest =>
    have := decidablePrintable children
    have := decidablePrintable rest
    inferInstanceAs (Decidable (_ ∧ _ ∧ _))

/-- The tokens of markup on a level, with `code` for the call of an element without children. The
last character of the code goes behind the children. -/
def tokens (code : Text → Text) (level : Nat) : Markup → List Token
  | nil => []
  | text content rest =>
    { kind := .text, tag := [], nesting := .selfClosing, level, content } ::
      rest.tokens code level
  | element name children rest =>
    (if children = nil then
      [{ kind := .embeddedInline, tag := [], nesting := .selfClosing, level, content := code name }]
    else
      { kind := .embeddedInline, tag := [], nesting := .opening, level,
        content := (code name).dropLast } ::
        children.tokens code (level + 1) ++
        [{ kind := .embeddedInline, tag := [], nesting := .closing, level,
           content := (code name).getLast?.toList }]) ++
      rest.tokens code level

/-! ## Names and text -/

theorem IsTagName.cases {name : Text} (named : IsTagName name) :
    ∃ c rest, name = c :: rest ∧ c.isAlpha ∧ ∀ c ∈ rest, isNameChar c := by
  obtain ⟨first, others⟩ := named
  cases name with
  | nil => cases first
  | cons c rest => exact ⟨c, rest, rfl, first, others⟩

theorem IsPlain.ne_nil {content : Text} (plain : IsPlain content) : content ≠ [] := by
  obtain ⟨c, member, -⟩ := plain.shown
  exact List.ne_nil_of_mem member

theorem IsPlain.length_pos {content : Text} (plain : IsPlain content) : 0 < content.length :=
  List.length_pos_iff.mpr plain.ne_nil

theorem isTagName_normal {name : Text} (named : IsTagName name) :
    ∀ c ∈ name, c ≠ '\r' ∧ c ≠ '\x00' := by
  obtain ⟨letter, rest, rfl, isLetter, others⟩ := named.cases
  refine List.forall_mem_cons.mpr ⟨?_, fun c member => ?_⟩
  · constructor <;> rintro rfl <;> cases isLetter
  · have isChar := others c member
    constructor <;> rintro rfl <;> cases isChar

theorem tags_normal {name : Text} (named : IsTagName name) :
    (∀ c ∈ openingTag name, c ≠ '\r' ∧ c ≠ '\x00') ∧
      ∀ c ∈ closingTag name, c ≠ '\r' ∧ c ≠ '\x00' := by
  have letters := isTagName_normal named
  have mark : ('<' ≠ '\r' ∧ '<' ≠ '\x00') ∧ '/' ≠ '\r' ∧ '/' ≠ '\x00' := by decide
  have behind : ('>' ≠ '\r' ∧ '>' ≠ '\x00') ∧ ∀ c ∈ ([] : Text), c ≠ '\r' ∧ c ≠ '\x00' :=
    ⟨by decide, List.forall_mem_nil _⟩
  simp only [openingTag, closingTag, List.forall_mem_append, List.forall_mem_cons]
  exact ⟨⟨mark.1, letters, behind⟩, mark.1, mark.2, letters, behind⟩

/-- Printed markup is in the form in which it is parsed. -/
theorem Printable.normalize_print {markup : Markup} (printable : markup.Printable) :
    normalize markup.print = markup.print := by
  refine normalize_of_normal ?_
  induction markup with
  | nil => exact List.forall_mem_nil _
  | text content rest ih =>
    obtain ⟨plain, -, others⟩ := printable
    exact List.forall_mem_append.mpr ⟨plain.normal, ih others⟩
  | element name children rest ihChildren ih =>
    obtain ⟨named, inside, others⟩ := printable
    obtain ⟨opening, closing⟩ := tags_normal named
    simp only [print, List.forall_mem_append]
    exact ⟨opening, ihChildren inside, closing, ih others⟩

/-- Only nothing is printed blank. -/
theorem Printable.all_isBlank_print {markup : Markup} (printable : markup.Printable) :
    markup.print.all isBlank = decide (markup = nil) := by
  cases markup with
  | nil => rfl
  | text content rest =>
    obtain ⟨c, member, notBlank⟩ := printable.1.shown
    have shown : content.all isBlank = false :=
      List.all_eq_false.mpr ⟨c, member, by simp [notBlank]⟩
    simp [print, shown]
  | element name children rest =>
    have mark : isBlank '<' = false := by decide
    simp [print, openingTag, mark]

/-! ## Marks -/

/-- What skipping finds at the beginnings of texts, elements and close tags of markup that is
printed at `pos`. -/
def marks (pos : Nat) : Markup → List (Nat × Skipped)
  | nil => []
  | text content rest =>
    (pos, ⟨pos + content.length, true⟩) :: rest.marks (pos + content.length)
  | element name children rest =>
    let inner := pos + (openingTag name).length
    let bodyEnd := inner + children.print.length
    let stop := pos + (whole name children).length
    (pos, ⟨stop, true⟩) ::
      (children.marks inner ++ (bodyEnd, ⟨bodyEnd + 1, false⟩) :: rest.marks stop)

theorem print_element (name : Text) (children rest : Markup) :
    (element name children rest).print = whole name children ++ rest.print := by
  simp [print, whole]

theorem whole_append (name : Text) (children : Markup) (behind : Text) :
    whole name children ++ behind =
      openingTag name ++ (children.print ++ (closingTag name ++ behind)) := by
  simp [whole]

theorem whole_length (name : Text) (children : Markup) :
    (whole name children).length =
      (openingTag name).length + children.print.length + (closingTag name).length := by
  simp [whole, Nat.add_assoc]

theorem tags_length_pos (name : Text) :
    0 < (openingTag name).length ∧ 0 < (closingTag name).length :=
  ⟨Nat.succ_pos _, Nat.succ_pos _⟩

/-- The marks of an element: its own, those of its children, that of its close tag, and those
behind it. -/
theorem marks_element_subset {name : Text} {children rest : Markup} {pos : Nat}
    {all : List (Nat × Skipped)} (marked : (element name children rest).marks pos ⊆ all) :
    let inner := pos + (openingTag name).length
    let bodyEnd := inner + children.print.length
    let stop := pos + (whole name children).length
    (pos, ⟨stop, true⟩) ∈ all ∧ children.marks inner ⊆ all ∧
      (bodyEnd, ⟨bodyEnd + 1, false⟩) ∈ all ∧ rest.marks stop ⊆ all := by
  obtain ⟨here, behind⟩ := List.cons_subset.mp marked
  obtain ⟨inside, behind⟩ := List.append_subset.mp behind
  exact ⟨here, inside, List.cons_subset.mp behind⟩

/-- Marks lie inside what is printed. -/
theorem Printable.mark_bounds {markup : Markup} (printable : markup.Printable) {pos : Nat} :
    ∀ mark ∈ markup.marks pos, pos ≤ mark.1 ∧ mark.1 < pos + markup.print.length := by
  induction markup generalizing pos with
  | nil => exact List.forall_mem_nil _
  | text content rest ih =>
    obtain ⟨plain, -, others⟩ := printable
    have := plain.length_pos
    simp only [marks, print, List.length_append]
    refine List.forall_mem_cons.mpr ⟨by omega, fun mark member => ?_⟩
    have := ih others mark member
    omega
  | element name children rest ihChildren ih =>
    obtain ⟨-, inside, others⟩ := printable
    obtain ⟨opening, closing⟩ := tags_length_pos name
    have length := whole_length name children
    rw [print_element, List.length_append]
    simp only [marks]
    refine List.forall_mem_cons.mpr ⟨by omega, List.forall_mem_append.mpr ⟨fun mark member => ?_,
      List.forall_mem_cons.mpr ⟨by omega, fun mark member => ?_⟩⟩⟩
    · have := ihChildren inside mark member
      omega
    · have := ih others mark member
      omega

theorem Printable.pairwise_marks {markup : Markup} (printable : markup.Printable) (pos : Nat) :
    (markup.marks pos).Pairwise fun first second => first.1 < second.1 := by
  induction markup generalizing pos with
  | nil => exact .nil
  | text content rest ih =>
    obtain ⟨plain, -, others⟩ := printable
    have := plain.length_pos
    refine List.pairwise_cons.mpr ⟨fun mark member => ?_, ih others _⟩
    have := others.mark_bounds mark member
    dsimp only
    omega
  | element name children rest ihChildren ih =>
    obtain ⟨-, inside, others⟩ := printable
    obtain ⟨opening, closing⟩ := tags_length_pos name
    have length := whole_length name children
    have inChildren := fun mark => @Printable.mark_bounds _ inside
      (pos + (openingTag name).length) mark
    have inRest := fun mark => @Printable.mark_bounds _ others
      (pos + (whole name children).length) mark
    refine List.pairwise_cons.mpr ⟨List.forall_mem_append.mpr ⟨fun mark member => ?_,
      List.forall_mem_cons.mpr ⟨by dsimp only; omega, fun mark member => ?_⟩⟩, ?_⟩
    · have := inChildren mark member
      dsimp only
      omega
    · have := inRest mark member
      dsimp only
      omega
    · refine List.pairwise_append.mpr ⟨ihChildren inside _,
        List.pairwise_cons.mpr ⟨fun mark member => ?_, ih others _⟩, fun mark member => ?_⟩
      · have := inRest mark member
        dsimp only
        omega
      · have := inChildren mark member
        refine List.forall_mem_cons.mpr ⟨by dsimp only; omega, fun other behind => ?_⟩
        have := inRest other behind
        omega

/-- There is one mark at a place at most. -/
theorem Printable.mark_unique {markup : Markup} (printable : markup.Printable) {pos place : Nat}
    {mark other : Skipped} (member : (place, mark) ∈ markup.marks pos)
    (alsoMember : (place, other) ∈ markup.marks pos) : mark = other := by
  have distinct : ((markup.marks pos).map (·.1)).Nodup :=
    (List.pairwise_map.mpr (printable.pairwise_marks pos)).imp Nat.ne_of_lt
  exact congrArg Prod.snd (List.inj_on_of_nodup_map distinct member alsoMember rfl)

/-! ## Pieces -/

/-- What parsing makes of markup. -/
def pieces (code : Text → Text) : Markup → List Inline
  | nil => []
  | text content rest => .literal content :: rest.pieces code
  | element name children rest =>
    (if children = nil then .embedded (code name)
      else .element (code name) (children.pieces code)) :: rest.pieces code

/-- The pieces of markup give its tokens. Text in front of it stays apart. -/
theorem Printable.emitAll_pieces {markup : Markup} (printable : markup.Printable)
    (code : Text → Text) (level : Nat) {pending : Text}
    (apart : markup.isText = true → pending = []) :
    Inline.emitAll level pending (markup.pieces code) =
      textTokens level pending ++ markup.tokens code level := by
  induction markup generalizing level pending with
  | nil => exact (List.append_nil _).symm
  | text content rest ih =>
    obtain ⟨plain, notText, others⟩ := printable
    have waits : textTokens level content =
        [{ kind := .text, tag := [], nesting := .selfClosing, level, content }] := by
      simp [textTokens, plain.ne_nil]
    rw [apart rfl, pieces, Inline.emitAll, Inline.emit, tokens]
    dsimp only
    rw [List.nil_append, List.nil_append, ih others level (by simp [notText]), waits]
    rfl
  | element name children rest ihChildren ih =>
    obtain ⟨-, inside, others⟩ := printable
    rw [pieces, tokens]
    by_cases childless : children = nil
    · rw [if_pos childless, if_pos childless, Inline.emitAll, Inline.emit]
      dsimp only
      rw [ih others level fun _ => rfl]
      simp
    · rw [if_neg childless, if_neg childless, Inline.emitAll, Inline.emit]
      dsimp only
      rw [ih others level fun _ => rfl, ihChildren inside (level + 1) fun _ => rfl]
      simp [enclose]

end Markup

end ComponentMarkdown
