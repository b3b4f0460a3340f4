import ComponentMarkdown.Proofs.Block.Balance
import ComponentMarkdown.Proofs.Render.Indent

/-!
# The column of rendered code

Rendering moves right behind an opening token and left before the closing one, so it ends at the
column where it began. The file has:

* `Token.shift`, by how much a token moves, and `Balanced.movesBack` for all tokens of a document;
* `run_inline_right`: rendering further right gives the same code further right;
* `indentation_compile`, the result.
-/

namespace ComponentMarkdown

/-! ## Moves -/

/-- Are tokens of this kind written at the present column, whatever their nesting is? -/
def TokenKind.isFixed : TokenKind → Bool
  | codeInline | codeBlock | fence | hardbreak | softbreak | text | embeddedBlock => true
  | _ => false

/-- By how many columns a token moves what is written behind it. A hidden token does not move, but
embedded markup is never hidden. -/
def Token.shift (token : Token) : Int :=
  if token.kind.isFixed || (token.hidden && token.kind ≠ .embeddedInline) then 0
  else 2 * token.nesting.delta

/-- By how much tokens move in the end. -/
def shifts : List Token → Int
  | [] => 0
  | token :: tokens => token.shift + shifts tokens

/-- Tokens that never move left of where they begin, and move back there in the end. -/
structure MovesBack (tokens : List Token) : Prop where
  right : ∀ before, before <+: tokens → 0 ≤ shifts before
  back : shifts tokens = 0

theorem shifts_append (tokens more : List Token) :
    shifts (tokens ++ more) = shifts tokens + shifts more := by
  induction tokens with
  | nil => exact (Int.zero_add _).symm
  | cons token tokens ih =>
    rw [List.cons_append, shifts, shifts, ih, Int.add_assoc]

theorem Token.shift_selfClosing {token : Token} (alone : token.nesting = .selfClosing) :
    token.shift = 0 := by
  unfold shift
  rw [alone]
  split <;> rfl

theorem Token.shift_fixed {token : Token} (fixed : token.kind.isFixed = true) :
    token.shift = 0 := by
  unfold shift
  rw [fixed]
  rfl

theorem Token.shift_hidden {token : Token} (hidden : token.hidden = true)
    (notEmbedded : token.kind ≠ .embeddedInline) : token.shift = 0 := by
  simp [shift, hidden, notEmbedded]

theorem Token.shift_shown {token : Token} (moves : token.kind.isFixed = false)
    (shown : token.hidden = false ∨ token.kind = .embeddedInline) :
    token.shift = 2 * token.nesting.delta := by
  unfold shift
  rw [moves]
  rcases shown with shown | embedded
  · rw [shown]
    rfl
  · simp [embedded]

theorem TokenKind.isFixed_closing {kind closing : TokenKind}
    (answered : kind.closing? = some closing) :
    closing.isFixed = kind.isFixed ∧
      decide (closing ≠ embeddedInline) = decide (kind ≠ embeddedInline) := by
  cases kind <;> cases answered <;> decide

/-- What the opening token moves right, the closing one moves back. -/
theorem Token.Encloses.shift {allowed : Token → Prop} {opening closing : Token}
    (encloses : Token.Encloses allowed opening closing) :
    0 ≤ opening.shift ∧ closing.shift = -opening.shift := by
  have ⟨fixed, embedded⟩ := TokenKind.isFixed_closing encloses.answered
  unfold Token.shift
  rw [encloses.opens, encloses.closes, fixed, encloses.alike, embedded]
  split <;> decide

theorem prefix_append_cases {before tokens more : List Token}
    (isPrefix : before <+: tokens ++ more) :
    before <+: tokens ∨ ∃ between, before = tokens ++ between ∧ between <+: more := by
  obtain ⟨behind, same⟩ := isPrefix
  rcases List.append_eq_append_iff.mp same with ⟨rest, rfl, -⟩ | ⟨between, rfl, found⟩
  · exact .inl (List.prefix_append _ _)
  · exact .inr ⟨between, rfl, behind, found.symm⟩

theorem MovesBack.append {tokens more : List Token} (first : MovesBack tokens)
    (second : MovesBack more) : MovesBack (tokens ++ more) := by
  refine ⟨fun before isPrefix => ?_, by rw [shifts_append, first.back, second.back]; rfl⟩
  rcases prefix_append_cases isPrefix with inside | ⟨between, rfl, behind⟩
  · exact first.right before inside
  · rw [shifts_append, first.back, Int.zero_add]
    exact second.right between behind

theorem MovesBack.enclosed {opening closing : Token} {body : List Token} (inside : MovesBack body)
    (moves : 0 ≤ opening.shift ∧ closing.shift = -opening.shift) :
    MovesBack (opening :: body ++ [closing]) := by
  have whole : shifts (opening :: body ++ [closing]) = 0 := by
    rw [shifts_append, shifts, inside.back, shifts, moves.2]
    show opening.shift + 0 + (-opening.shift + 0) = 0
    omega
  refine ⟨fun before isPrefix => ?_, whole⟩
  -- A prefix is all of it, nothing, or the opening token with a prefix of the body.
  rcases List.prefix_concat_iff.mp isPrefix with rfl | isPrefix
  · exact Int.le_of_eq whole.symm
  · rcases List.prefix_cons_iff.mp isPrefix with rfl | ⟨between, rfl, within⟩
    · exact Int.le_refl 0
    · have := inside.right between within
      rw [shifts]
      omega

theorem Balanced.movesBack {allowed : Token → Prop} {tokens : List Token}
    (balanced : Balanced allowed tokens) : MovesBack tokens := by
  have nil : MovesBack [] := by
    refine ⟨fun before isPrefix => ?_, rfl⟩
    rw [List.prefix_nil.mp isPrefix]
    exact Int.le_refl 0
  induction balanced with
  | nil => exact nil
  | append _ _ first second => exact first.append second
  | @complete token _ alone =>
    have still : shifts [token] = 0 := by
      rw [shifts, Token.shift_selfClosing alone]
      rfl
    refine ⟨fun before isPrefix => ?_, still⟩
    rcases List.prefix_concat_iff.mp (List.nil_append [token] ▸ isPrefix) with rfl | isPrefix
    · exact Int.le_of_eq still.symm
    · exact nil.right before isPrefix
  | enclosed encloses _ inside => exact inside.enclosed encloses.shift

/-! ## Rendering further right -/

namespace Render

/-- The writer a number of columns further right. -/
def right (count : Nat) (writer : CodeWriter) : CodeWriter :=
  { writer with indent := count + writer.indent }

/-- A step of rendering writes the same further right, and moves by `move` columns. -/
def Shifts (count : Nat) (writer : CodeWriter) (move : Int) (step : Render (Option Text)) : Prop :=
  let written := step.run writer
  step.run (right count writer) =
      (written.1.map (indentBy count), right count written.2) ∧
    (written.2.indent : Int) = writer.indent + move

section

variable {count : Nat} {writer : CodeWriter}

theorem shifts_indented (code : Text) :
    Shifts count writer 0 (do return ← indented code) := by
  refine ⟨?_, (Int.add_zero _).symm⟩
  show (some (indentBy _ _), _) = (some (indentBy _ (indentBy _ _)), _)
  rw [indentBy_indentBy]
  rfl

theorem shifts_element (tag : Text) (attrs : Attributes) (children : List Text) :
    Shifts count writer 0 (do return ← element tag attrs children) := by
  refine ⟨?_, (Int.add_zero _).symm⟩
  show (some (indentBy _ _), _) = (some (indentBy _ (indentBy _ _)), _)
  rw [indentBy_indentBy]
  rfl

theorem shifts_fence (options : Options) (t : Token) :
    Shifts count writer 0 (do return ← fence options t) := by
  unfold fence
  dsimp only
  split
  · exact shifts_element ..
  · split
    · exact shifts_element ..
    · exact shifts_element ..

/-- Where a closing token fits, moving left is not cut off. -/
theorem room_of_closing {nesting : Nesting} (closes : nesting = .closing)
    (fits : 0 ≤ writer.indent + 2 * nesting.delta) : 2 ≤ writer.indent := by
  subst closes
  have : (0 : Int) ≤ writer.indent + 2 * -1 := fits
  omega

theorem indent_sub (room : 2 ≤ writer.indent) :
    ((writer.indent - 2 : Nat) : Int) = writer.indent + 2 * Nesting.closing.delta := by
  show ((writer.indent - 2 : Nat) : Int) = writer.indent + 2 * -1
  omega

theorem shifts_none : Shifts count writer 0 (return none) :=
  ⟨rfl, (Int.add_zero _).symm⟩

theorem run_opening {t : Token} (shown : t.hidden = false) (opens : t.nesting = .opening)
    (writer : CodeWriter) :
    (token t).run writer =
      (some (indentBy writer.indent (camelCase t.tag ++ ['(']) ++ t.attrs.objectLiteral),
        ⟨writer.indent + 2, TextSet.insert (camelCase t.tag) writer.tags⟩) := by
  unfold token
  rw [shown, opens]
  rfl

theorem run_selfClosing {t : Token} (shown : t.hidden = false) (alone : t.nesting = .selfClosing)
    (writer : CodeWriter) :
    (token t).run writer =
      (some (indentBy writer.indent (camelCase t.tag ++ ['(']) ++ t.attrs.objectLiteral ++ [')']),
        ⟨writer.indent, TextSet.insert (camelCase t.tag) writer.tags⟩) := by
  unfold token
  rw [shown, alone]
  rfl

theorem run_closing {t : Token} (shown : t.hidden = false) (closes : t.nesting = .closing)
    (writer : CodeWriter) :
    (token t).run writer =
      (some (indentBy (writer.indent - 2) [')']), ⟨writer.indent - 2, writer.tags⟩) := by
  unfold token
  rw [shown, closes]
  rfl

theorem run_hidden {t : Token} (hidden : t.hidden = true) (writer : CodeWriter) :
    (token t).run writer = (none, writer) := by
  unfold token
  rw [hidden]
  rfl

/-- A token that is not hidden; a closing one needs room to move left. -/
theorem shifts_shown {t : Token} (shown : t.hidden = false)
    (textual : ∀ attr ∈ t.attrs, ∃ value, attr.2 = .text value)
    (fits : 0 ≤ writer.indent + 2 * t.nesting.delta) :
    Shifts count writer (2 * t.nesting.delta) (token t) := by
  have attributes := Attributes.not_mem_objectLiteral textual
  unfold Shifts right
  cases nesting : t.nesting with
  | opening =>
    rw [run_opening shown nesting, run_opening shown nesting]
    refine ⟨?_, rfl⟩
    dsimp only [Option.map_some]
    rw [indentBy_append_line _ _ attributes, indentBy_indentBy, Nat.add_assoc]
  | selfClosing =>
    rw [run_selfClosing shown nesting, run_selfClosing shown nesting]
    refine ⟨?_, (Int.add_zero _).symm⟩
    dsimp only [Option.map_some]
    have oneLine : '\n' ∉ t.attrs.objectLiteral ++ [')'] := by simp [attributes]
    rw [List.append_assoc, List.append_assoc, indentBy_append_line _ _ oneLine, indentBy_indentBy]
  | closing =>
    have room := room_of_closing nesting fits
    rw [run_closing shown nesting, run_closing shown nesting]
    dsimp only [Option.map_some]
    rw [indentBy_indentBy, Nat.add_sub_assoc room]
    exact ⟨rfl, indent_sub room⟩

/-- Embedded markup inside a run of text. -/
theorem shifts_embedded {t : Token} (fits : 0 ≤ writer.indent + 2 * t.nesting.delta) :
    Shifts count writer (2 * t.nesting.delta) (do
      if t.nesting = .closing then moveOut
      let code ← indented t.content.trim
      if t.nesting = .opening then moveIn
      return code) := by
  cases nesting : t.nesting with
  | opening =>
    refine ⟨?_, rfl⟩
    show (some (indentBy _ _), _) = (some (indentBy _ (indentBy _ _)), _)
    rw [indentBy_indentBy]
    show (_, CodeWriter.mk (count + writer.indent + 2) _) = (_, ⟨count + (writer.indent + 2), _⟩)
    rw [Nat.add_assoc]
    rfl
  | selfClosing => exact shifts_indented t.content.trim
  | closing =>
    have room := room_of_closing nesting fits
    refine ⟨?_, indent_sub room⟩
    show (some (indentBy (count + writer.indent - 2) t.content.trim),
        CodeWriter.mk (count + writer.indent - 2) _) =
      (some (indentBy count (indentBy (writer.indent - 2) t.content.trim)),
        ⟨count + (writer.indent - 2), _⟩)
    rw [indentBy_indentBy, Nat.add_sub_assoc room]
    rfl

theorem shifts_token {t : Token} (textual : ∀ attr ∈ t.attrs, ∃ value, attr.2 = .text value)
    (notFixed : t.kind.isFixed = false) (notEmbedded : t.kind ≠ .embeddedInline)
    (fits : 0 ≤ writer.indent + t.shift) : Shifts count writer t.shift (token t) := by
  cases hidden : t.hidden with
  | true =>
    rw [Token.shift_hidden hidden notEmbedded, Shifts, run_hidden hidden, run_hidden hidden]
    exact ⟨rfl, (Int.add_zero _).symm⟩
  | false =>
    rw [Token.shift_shown notFixed (.inl hidden)] at fits ⊢
    exact shifts_shown hidden textual fits

theorem textual_set {name : Text} {value : Text} {attrs : Attributes}
    (textual : ∀ attr ∈ attrs, ∃ value, attr.2 = .text value) :
    ∀ attr ∈ Attributes.set name (.text value) attrs, ∃ value, attr.2 = .text value := by
  induction attrs with
  | nil => exact List.forall_mem_singleton.mpr ⟨value, rfl⟩
  | cons attr attrs ih =>
    obtain ⟨first, others⟩ := List.forall_mem_cons.mp textual
    rw [Attributes.set]
    split
    · exact List.forall_mem_cons.mpr ⟨⟨value, rfl⟩, others⟩
    · exact List.forall_mem_cons.mpr ⟨first, ih others⟩

theorem shifts_rule (options : Options) {t : Token} {embeds : Prop} (writable : t.Writable embeds)
    (fits : 0 ≤ writer.indent + t.shift) : Shifts count writer t.shift (rule options t) := by
  have textual := writable.textual
  have still : ∀ {kind : TokenKind}, t.kind = kind → kind.isFixed = true → t.shift = 0 := by
    rintro kind rfl fixed
    exact Token.shift_fixed fixed
  unfold rule
  cases kind : t.kind with
  | codeInline | codeBlock | hardbreak => exact still kind rfl ▸ shifts_element ..
  | fence => exact still kind rfl ▸ shifts_fence options t
  | softbreak =>
    rw [still kind rfl]
    dsimp only
    split
    · exact shifts_element ..
    · exact shifts_none
  | text | embeddedBlock => exact still kind rfl ▸ shifts_indented _
  | embeddedInline =>
    rw [Token.shift_shown (by rw [kind]; rfl) (.inr kind)] at fits ⊢
    exact shifts_embedded fits
  | image =>
    exact @shifts_token count writer { t with attrs := _ } (textual_set textual) (by rw [kind]; rfl)
      (by rw [kind]; decide) fits
  | _ => exact shifts_token textual (by rw [kind]; rfl) (by rw [kind]; decide) fits

end

/-! ## Lists of tokens -/

theorem run_inline_cons (options : Options) (t : Token) (tokens : List Token)
    (writer : CodeWriter) :
    (inline options (t :: tokens)).run writer =
      let first := (rule options t).run writer
      let others := (inline options tokens).run first.2
      (keep first.1 ++ others.1, others.2) :=
  rfl

theorem run_inline_append (options : Options) (first more : List Token) (writer : CodeWriter) :
    (inline options (first ++ more)).run writer =
      let written := (inline options first).run writer
      let others := (inline options more).run written.2
      (written.1 ++ others.1, others.2) := by
  induction first generalizing writer with
  | nil => rfl
  | cons t first ih =>
    rw [List.cons_append, run_inline_cons, run_inline_cons]
    dsimp only
    rw [ih, List.append_assoc]

/-- Rendering a document is rendering its tokens with the children of inline tokens among them. -/
theorem tokens_eq (options : Options) (written : List Token) :
    tokens options written = inline options (flatten written) := by
  induction written with
  | nil => rfl
  | cons t written ih =>
    have flat : flatten (t :: written) =
        (if t.kind = .inline then t.children else [t]) ++ flatten written := rfl
    funext writer
    have appended := run_inline_append options (if t.kind = .inline then t.children else [t])
      (flatten written) writer
    rw [flat]
    refine Eq.trans ?_ appended.symm
    rw [tokens, ih]
    split
    · rfl
    · show _ = (((keep _ ++ []) ++ _, _) : List Text × CodeWriter)
      rw [List.append_nil]
      rfl

theorem keep_indentBy (count : Nat) (result : Option Text) :
    keep (result.map (indentBy count)) = (keep result).map (indentBy count) := by
  cases result with
  | none => rfl
  | some code =>
    simp only [keep, Option.map_some, Option.filter_some, isAllBlank_indentBy]
    split <;> rfl

/-- Tokens that never move left of the first column write the same further right. -/
theorem run_inline_right (options : Options) {embeds : Prop} (count : Nat) {tokens : List Token}
    (writable : ∀ t ∈ tokens, t.Writable embeds) (writer : CodeWriter)
    (fits : ∀ before, before <+: tokens → 0 ≤ writer.indent + shifts before) :
    let written := (inline options tokens).run writer
    (inline options tokens).run (right count writer) =
        (written.1.map (indentBy count), right count written.2) ∧
      (written.2.indent : Int) = writer.indent + shifts tokens := by
  induction tokens generalizing writer with
  | nil => exact ⟨rfl, (Int.add_zero _).symm⟩
  | cons t tokens ih =>
    obtain ⟨first, others⟩ := List.forall_mem_cons.mp writable
    have here : 0 ≤ writer.indent + t.shift := by
      have := fits [t] (List.prefix_append [t] tokens)
      rwa [shifts, show shifts [] = 0 from rfl, Int.add_zero] at this
    obtain ⟨moved, column⟩ := @shifts_rule count writer options t embeds first here
    -- Behind the first token, the room is that of the prefixes which begin with it.
    have behind := ih others ((rule options t).run writer).2 (fun before isPrefix => by
      have := fits (t :: before) (List.prefix_cons_inj t |>.mpr isPrefix)
      rw [shifts] at this
      rw [column]
      omega)
    obtain ⟨sameBehind, columnBehind⟩ := behind
    refine ⟨?_, ?_⟩
    · rw [run_inline_cons, run_inline_cons, moved]
      dsimp only
      rw [sameBehind, keep_indentBy, List.map_append]
    · rw [shifts, ← Int.add_assoc, ← column]
      exact columnBehind

/-- Nothing that is written is blank. -/
theorem not_blank_inline (options : Options) (tokens : List Token) (writer : CodeWriter) :
    ∀ code ∈ ((inline options tokens).run writer).1, Text.isAllBlank code = false := by
  induction tokens generalizing writer with
  | nil => exact List.forall_mem_nil _
  | cons t tokens ih =>
    rw [run_inline_cons]
    refine List.forall_mem_append.mpr ⟨fun code member => ?_, ih _⟩
    have kept := Option.mem_toList.mp member
    simpa using (Option.filter_eq_some_iff.mp kept).2

/-- Where rendering starts is no concern of the tokens. -/
theorem inline_initialIndent (options : Options) (count : Nat) (tokens : List Token) :
    inline { options with initialIndent := count } tokens = inline options tokens := by
  induction tokens with
  | nil => rfl
  | cons t tokens ih =>
    have same : rule { options with initialIndent := count } t = rule options t := rfl
    rw [inline, inline, ih, same]

/-- Tokens whose rendering from any column never comes left of it and ends there. The column is the
exact sum of all moves, so moving left is never cut off at the first column. -/
structure Returns (options : Options) (written : List Token) : Prop where
  /-- Rendering passes these tokens one after the other. -/
  passes : tokens options written = inline options (flatten written)
  column : ∀ writer before, before <+: flatten written →
    0 ≤ shifts before ∧
      (((inline options before).run writer).2.indent : Int) = writer.indent + shifts before
  back : ∀ writer, ((tokens options written).run writer).2.indent = writer.indent

theorem returns_of_balanced (options : Options) {embeds : Prop} {written : List Token}
    (balanced : Balanced (Token.Writable embeds) (flatten written)) : Returns options written := by
  have moves := balanced.movesBack
  have column : ∀ writer before, before <+: flatten written →
      0 ≤ shifts before ∧
        (((inline options before).run writer).2.indent : Int) = writer.indent + shifts before := by
    intro writer before isPrefix
    have writable : ∀ t ∈ before, t.Writable embeds :=
      fun t member => balanced.forall_mem t (isPrefix.subset member)
    refine ⟨moves.right before isPrefix, ?_⟩
    refine (run_inline_right options 0 writable writer fun earlier isEarlier => ?_).2
    have := moves.right earlier (isEarlier.trans isPrefix)
    omega
  refine ⟨tokens_eq options written, column, fun writer => ?_⟩
  have whole := (column writer _ (List.prefix_refl _)).2
  rw [moves.back] at whole
  rw [tokens_eq]
  omega

end Render

/-! ## Documents -/

theorem Text.join_eq_nil {separator : Text} {pieces : List Text}
    (notEmpty : ∀ piece ∈ pieces, piece ≠ []) (empty : Text.join separator pieces = []) :
    pieces = [] := by
  cases pieces with
  | nil => rfl
  | cons piece pieces =>
    have first := notEmpty piece List.mem_cons_self
    cases pieces with
    | nil => exact absurd empty first
    | cons other pieces =>
      rw [Text.join_cons _ _ (List.cons_ne_nil _ _), List.append_eq_nil_iff,
        List.append_eq_nil_iff] at empty
      exact absurd empty.1.1 first

theorem join_indentBy_of_notBlank (count : Nat) {results : List Text}
    (notBlank : ∀ code ∈ results, Text.isAllBlank code = false) :
    Text.join [',', '\n'] (results.map (Render.indentBy count)) =
      if Text.join [',', '\n'] results = [] then []
      else Render.indentBy count (Text.join [',', '\n'] results) := by
  cases results with
  | nil => rfl
  | cons result results =>
    have notEmpty : ∀ code ∈ result :: results, code ≠ [] := by
      rintro code member rfl
      cases notBlank [] member
    rw [if_neg fun empty => List.cons_ne_nil _ _ (Text.join_eq_nil notEmpty empty)]
    exact Render.join_indentBy count (List.cons_ne_nil _ _)

/-- A document is rendered token after token. -/
theorem render_eq (options : Options) (written : List Token) :
    render options written =
      let rendered :=
        (Render.inline options (flatten written)).run { indent := options.initialIndent }
      { code := Text.join [',', '\n'] rendered.1, tags := rendered.2.tags } := by
  rw [render, Render.tokens_eq]
  rfl

/-- Code that starts further right is the same code with spaces before each line. -/
theorem render_right (options : Options) (count : Nat) {embeds : Prop} {written : List Token}
    (balanced : Balanced (Token.Writable embeds) (flatten written)) :
    let flush := render { options with initialIndent := 0 } written
    let moved := render { options with initialIndent := count } written
    moved.tags = flush.tags ∧
      moved.code = (if flush.code = [] then [] else Render.indentBy count flush.code) := by
  have unchanged : ∀ column, render { options with initialIndent := column } written =
      let rendered := (Render.inline options (flatten written)).run { indent := column }
      { code := Text.join [',', '\n'] rendered.1, tags := rendered.2.tags } := by
    intro column
    rw [render_eq, Render.inline_initialIndent]
  have moves := balanced.movesBack
  obtain ⟨same, -⟩ := Render.run_inline_right options count balanced.forall_mem { indent := 0 }
    fun before isPrefix => by
      have := moves.right before isPrefix
      show 0 ≤ (0 : Int) + _
      omega
  have notBlank := Render.not_blank_inline options (flatten written) { indent := 0 }
  dsimp only
  rw [unchanged 0, unchanged count]
  have start : Render.right count { indent := 0 } = { indent := count } := rfl
  rw [start] at same
  rw [same]
  exact ⟨rfl, join_indentBy_of_notBlank count notBlank⟩

/-- Rendering a document comes back to the column where it started, from any column, and starting
further right only puts spaces before each line of the code. -/
theorem indentation_compile (md : Markdown) (rules : List BlockRule) (options : Options)
    (count : Nat) (source : Text) :
    let markdown := { md with blockRules := ⟨rules.map BlockRule.entry⟩ }
    let flush := Compiler.compile ⟨markdown, { options with initialIndent := 0 }⟩ source
    let moved := Compiler.compile ⟨markdown, { options with initialIndent := count }⟩ source
    Render.Returns options (markdown.parse source) ∧
      moved.tags = flush.tags ∧
      moved.code = (if flush.code = [] then [] else Render.indentBy count flush.code) ∧
      (moved.code ≠ [] → ∀ line ∈ moved.code.splitLines, Text.spaces count <+: line) := by
  have balanced := md.balanced_parse rules source
  have ⟨tags, code⟩ := render_right options count balanced
  refine ⟨Render.returns_of_balanced options balanced, tags, code, fun notEmpty => ?_⟩
  rw [Compiler.compile, Compiler.render, Compiler.parse] at notEmpty ⊢
  rw [code] at notEmpty ⊢
  split at notEmpty
  · exact absurd rfl notEmpty
  · next shown =>
    rw [if_neg shown]
    exact Render.prefix_of_mem_splitLines count _

end ComponentMarkdown
