import ComponentMarkdown.Proofs.Inline.Excerpt

/-!
# The label of a link as a text of its own

The label of a link is parsed in the text around it, that of an image as a text of its own. Where
skipping is local in the label both give the same tokens, but for their level. Elsewhere they need
not: what a search for the end of the label has found in the whole text is recalled in the label,
where something else would be found. The file has:

* `Inline.alike_parseNested`: images make no difference;
* `Token.deeper` and `Inline.emitAll_deeper`, the tokens of pieces some levels deeper;
* `InlineRun.labelEnd?` and what the rule for links finds;
* `InlineRun.link_tokens`, the result.
-/

namespace ComponentMarkdown

open Memoized (Ensures Relates)
open Inline (AllAlike)

variable {md : Markdown}

/-! ## Images -/

/-- Two memos that are the same. -/
def SameMemo (memo other : Memo) : Prop :=
  memo = other ∧ memo.Forward

theorem Memoized.Ensures.relates {α : Type} {x : Memoized α} {post : α → Prop}
    (ensured : Ensures x post) :
    Relates SameMemo x x fun a b memo other => post a ∧ a = b ∧ SameMemo memo other := by
  rintro memo _ ⟨rfl, forward⟩
  obtain ⟨holds, kept⟩ := ensured memo forward
  exact ⟨holds, rfl, rfl, kept⟩

/-- A window has alike pieces whichever way the labels of images are parsed, as long as those are
alike. -/
theorem Inline.alike_parseWindow (lawful : md.grammar.Lawful) (delimited : md.grammar.Delimited)
    {text : Text} {parseLabel parseLabel' : Text → List Inline}
    (labels : ∀ label : Text, label.length < text.length →
      AllAlike (parseLabel label) (parseLabel' label))
    (budget : Nat) {pos stop : Nat} (ordered : pos ≤ stop) (inText : stop ≤ text.length) :
    Relates SameMemo (parseWindow md parseLabel budget (Cursor.inside text pos stop))
      (parseWindow md parseLabel' budget (Cursor.inside text pos stop))
      fun pieces others memo other => AllAlike pieces others ∧ SameMemo memo other := by
  induction budget generalizing pos stop with
  | zero => exact .pure fun _ _ same => ⟨.refl _, same⟩
  | succ budget ih =>
    refine @relates_parseWindow_succ text text stop 0 md (fun _ => SameMemo) (fun _ => True) _ _ _ _
      inText (fun _ _ _ => rfl) (fun _ same => same) (fun pos rule _ _ => ?_)
      (fun label shorter => labels label (Nat.lt_of_lt_of_le shorter inText))
      (fun _ _ ordered inWindow _ _ => ih ordered (Nat.le_trans (Nat.le_of_lt inWindow) inText)) pos
      (Nat.zero_le _) ordered
    intro memo other same
    let c := Cursor.inside text pos stop
    have forward := forward_skip lawful (budget + 1)
    have fits := (ensures_scan lawful forward rule c).relates memo other same
    obtain ⟨framed, kept⟩ := (ensures_framed delimited forward rule c).relates memo other same
    exact ⟨fits.1, fun construct found => ⟨framed construct found, fun _ _ => trivial⟩, kept⟩

/-- How deep images may be nested makes no difference, if they may be nested deep enough. -/
theorem Inline.alike_parseNested (lawful : md.grammar.Lawful) (delimited : md.grammar.Delimited)
    {depth depth' : Nat} {text : Text} (enough : text.length < depth)
    (enough' : text.length < depth') :
    AllAlike (parseNested md depth text) (parseNested md depth' text) := by
  induction depth generalizing depth' text with
  | zero => exact absurd enough (Nat.not_lt_zero _)
  | succ depth ih =>
    obtain ⟨depth', rfl⟩ := Nat.exists_eq_succ_of_ne_zero (Nat.ne_zero_of_lt enough')
    have labels (label : Text) (shorter : label.length < text.length) :
        AllAlike (parseNested md depth label) (parseNested md depth' label) :=
      ih (by omega) (by omega)
    rw [parseNested, parseNested, ← Cursor.inside_whole]
    exact (alike_parseWindow lawful delimited labels md.maxNesting (Nat.zero_le _)
      (Nat.le_refl _) ∅ ∅ ⟨rfl, Memo.forward_empty⟩).1

/-- A part of a text in which skipping is local has the pieces that its characters have as a text
of their own. -/
theorem Excerpt.alike_parse {source text : Text} {first last budget : Nat} {memo : Memo}
    (excerpt : Excerpt source text first last) (lawful : md.grammar.Lawful)
    (delimited : md.grammar.Delimited)
    (isLocal : ∀ stop, WindowEnd md source first last stop →
      ∀ pos, first ≤ pos → pos < stop → LocalAt md source pos stop)
    (room : text.length < budget) (room' : text.length < md.maxNesting) (forward : memo.Forward)
    (settled : memo.SettledIn md source last first) :
    AllAlike
      ((parseWindow md (Inline.parse md) budget (Cursor.inside source first last)).run memo).1
      (Inline.parse md text) := by
  have length := excerpt.length_eq
  have labels (label : Text) (shorter : label.length < text.length) :
      AllAlike (Inline.parse md label) (parseNested md text.length label) :=
    Inline.alike_parseNested lawful delimited (Nat.lt_succ_self _) shorter
  have windows := excerpt.relates_parseWindow lawful delimited isLocal labels (Nat.le_refl first)
    excerpt.ordered .last (Nat.le_refl last) (length ▸ room) (length ▸ room')
  have whole : Cursor.inside text (first - first) (last - first) = Cursor.start text := by
    rw [Nat.sub_self, ← length, Cursor.inside_whole]
  rw [whole] at windows
  refine (windows memo ∅ ⟨forward, settled, ?_⟩).1
  exact fun _ _ _ _ found => by simp at found

/-! ## Levels -/

/-- The token `levels` levels deeper. -/
def Token.deeper (levels : Nat) (token : Token) : Token :=
  { token with level := token.level + levels }

namespace Inline

variable {levels : Nat}

theorem map_deeper_textTokens (level : Nat) (pending : Text) :
    textTokens (level + levels) pending = (textTokens level pending).map (Token.deeper levels) := by
  unfold textTokens
  split <;> rfl

theorem map_deeper_enclose (level : Nat) (opening closing : Token) (body : List Token) :
    enclose (level + levels) opening closing (body.map (Token.deeper levels)) =
      (enclose level opening closing body).map (Token.deeper levels) := by
  simp [enclose, Token.deeper]

theorem map_kind_enclose (level : Nat) (opening closing : Token) (body : List Token) :
    (enclose level opening closing (body.map (Token.deeper levels))).map Token.kind =
      opening.kind :: (body.map Token.kind ++ [closing.kind]) := by
  simp [enclose, Token.deeper]

mutual

theorem emit_deeper (level : Nat) (pending : Text) (piece : Inline) :
    piece.emit (level + levels) pending =
      ((piece.emit level pending).1.map (Token.deeper levels), (piece.emit level pending).2) := by
  have succ : level + levels + 1 = level + 1 + levels := by omega
  cases piece with
  | literal text => rfl
  | lineBreak =>
    simp only [emit, breakTokens, map_deeper_textTokens, List.map_append]
    rfl
  | hardBreak | code | embedded | image =>
    simp only [emit, map_deeper_textTokens, List.map_append]
    rfl
  | autolink address href =>
    simp only [emit, map_deeper_textTokens, List.map_append, succ, map_deeper_enclose]
  | emphasis marker strong body | link target body | element code body =>
    simp only [emit, map_deeper_textTokens, List.map_append, succ, emitAll_deeper,
      map_deeper_enclose]

theorem emitAll_deeper (level : Nat) (pending : Text) (pieces : List Inline) :
    emitAll (level + levels) pending pieces =
      (emitAll level pending pieces).map (Token.deeper levels) := by
  cases pieces with
  | nil => exact map_deeper_textTokens level pending
  | cons piece pieces =>
    rw [emitAll, emitAll, emit_deeper level pending piece, List.map_append]
    dsimp only
    rw [emitAll_deeper level _ pieces]

end

end Inline

/-! ## Links -/

/-- What the rule for links finds: the label up to the bracket that closes it, and a target. -/
theorem run_link? {skip : Skip} {c : Cursor} {memo : Memo} {labelEnd : Nat}
    (label : ((findLabelEnd skip ((c.advance 1).rest.length + 1) 1 (c.advance 1)).run memo).1 =
      some labelEnd)
    (matched : ((link? skip c).run memo).1.isSome = true) :
    ∃ rest target behind, c.rest = '[' :: rest ∧
      Target.read? (c.rest.drop (1 + (labelEnd - (c.pos + 1) + 1))) = some (target, behind) ∧
      ((link? skip c).run memo).1 = some ⟨c.rest.length - behind.length,
        .enclosing (.link target) 1 (labelEnd - (c.pos + 1))⟩ := by
  rw [link?] at matched ⊢
  split at matched
  · next rest begins =>
    rw [labelled?, Memoized.run_bind, label] at matched ⊢
    dsimp only at matched ⊢
    rw [Cursor.advance_pos, Cursor.advance, List.drop_drop] at matched ⊢
    cases reads : Target.read? (c.rest.drop (1 + (labelEnd - (c.pos + 1) + 1))) with
    | none =>
      rw [reads] at matched
      cases matched
    | some read =>
      obtain ⟨target, behind⟩ := read
      exact ⟨rest, target, behind, begins, rfl, rfl⟩
  · cases matched

namespace InlineRun

/-- The position of the bracket that closes the label which begins behind the position. -/
def labelEnd? (md : Markdown) (run : InlineRun) : Option Nat :=
  (seekLabelEnd (skipNext md) (run.posMax - (run.pos + 1) + 1) 1
    { run with pos := run.pos + 1 }).1

variable {run : InlineRun} {labelEnd : Nat}

/-- A link that matches has a label and a target. -/
theorem scan_link (lawful : md.grammar.Lawful) (ready : run.Ready)
    (label : run.labelEnd? md = some labelEnd) (matched : (tryRule md .link false run).1 = true) :
    ∃ total target behind, run.pos < labelEnd ∧ labelEnd < run.posMax ∧
      run.source[run.pos]? = some '[' ∧
      Target.read? ((run.source.take run.posMax).drop (labelEnd + 1)) = some (target, behind) ∧
      ((scan md (skip md (md.maxNesting - run.level)) .link run.cursor).run run.memo).1 =
        some ⟨total, .enclosing (.link target) 1 (labelEnd - (run.pos + 1))⟩ := by
  have forward := forward_skip lawful (md.maxNesting - run.level)
  rw [tryRule_eq lawful .link false ready] at matched
  have found : ((link? (skip md (md.maxNesting - run.level)) run.cursor).run run.memo).1.isSome =
      true := by
    rw [← matched, scan]
    generalize (link? (skip md (md.maxNesting - run.level)) run.cursor).run run.memo = found
    obtain ⟨_ | construct, memo⟩ := found <;> rfl
  have inWindow : run.pos + 1 ≤ run.posMax := by
    refine Nat.lt_of_not_le fun ended => ?_
    rw [link?, cursor_rest_eq_nil ended] at found
    cases found
  have isEnd : ((findLabelEnd (skip md (md.maxNesting - run.level))
      ((run.cursor.advance 1).rest.length + 1) 1 (run.cursor.advance 1)).run run.memo).1 =
        some labelEnd := by
    obtain ⟨pos, finds⟩ := seekLabelEnd_finds (skipNext_skips lawful) forward
      (run.posMax - (run.pos + 1) + 1) 1 (ready.advance inWindow) rfl
    rw [labelEnd?, finds] at label
    rw [cursor_advance_length ready inWindow, ← cursor_advance inWindow]
    exact label
  obtain ⟨rest, target, behind, begins, reads, isLink⟩ := run_link? isEnd found
  have bounds := (ensures_findLabelEnd forward _ _ (run.cursor.advance 1) run.memo
    ready.forward).1 labelEnd isEnd
  rw [Cursor.advance_pos, cursor_pos, Cursor.stop_advance (by simp [begins]),
    cursor_stop ready] at bounds
  refine ⟨_, target, behind, bounds.1, bounds.2, ?opens, ?reads, isLink⟩
  case opens =>
    have first : run.cursor.rest[0]? = some '[' := by rw [begins]; rfl
    rw [cursor, Cursor.inside, List.getElem?_drop, Nat.add_zero,
      List.getElem?_take_of_lt inWindow] at first
    exact first
  case reads =>
    rw [cursor, Cursor.inside, List.drop_drop] at reads
    rwa [show run.pos + (1 + (labelEnd - (run.pos + 1) + 1)) = labelEnd + 1 by omega] at reads

/-- A link adds the tokens of its label, one level deeper, between its own. -/
theorem tokens_link (lawful : md.grammar.Lawful) (ready : run.Ready) {total length : Nat}
    {target : Target} {found : Option Construct × Memo}
    (isFound :
      (scan md (skip md (md.maxNesting - run.level)) .link run.cursor).run run.memo = found)
    (isLink : found.1 = some ⟨total, .enclosing (.link target) 1 length⟩) :
    (tryRule md .link false run).2.tokens =
      run.tokens ++ (textTokens run.level run.pending ++ enclose run.level
        { kind := .linkOpen, tag := ['a'], nesting := .opening,
          attrs := target.attrs "href" ++ target.titleAttributes }
        { kind := .linkClose, tag := ['a'], nesting := .closing }
        (Inline.emitAll (run.level + 1) []
          ((parseWindow md (Inline.parse md) (md.maxNesting - (run.level + 1))
            (run.cursor.window 1 length)).run found.2).1)) := by
  have forward := forward_skip lawful (md.maxNesting - run.level)
  obtain ⟨fit, kept⟩ := ensures_scan lawful forward .link run.cursor run.memo ready.forward
  rw [tryRule_eq lawful .link false ready, isFound]
  rw [isFound] at fit kept
  obtain ⟨found, memo⟩ := found
  subst isLink
  have ready : Ready { run with memo } := ⟨ready.ordered, ready.inText, kept⟩
  obtain ⟨pos, performed⟩ := perform_eq (parseRest_parses lawful) (parse_eq lawful) ready rfl
    (fit _ rfl)
  simp only [outcome, performed, Bool.false_eq_true, if_false]
  rfl

/-- The tokens that a link adds between its own are those that its label has as a text of its own,
one level deeper than the link, whatever the text around it is. That holds if skipping is local at
the ends of the windows in which the label is parsed, and of those that end with the window of the
link or behind it; of the latter there is only the whole text if the link is not part of a body. -/
theorem link_tokens (jsx : md.grammar = TagGrammar.jsx) (parses : Parses md run)
    (room : run.source.length < md.maxNesting) (label : run.labelEnd? md = some labelEnd)
    (matched : (tryRule md .link false run).1 = true)
    (inside : ∀ stop, WindowEnd md run.source (run.pos + 1) labelEnd stop →
      ∀ pos < stop, run.pos < pos → LocalAt md run.source pos stop)
    (around : ∀ stop ≤ run.source.length, run.posMax ≤ stop →
      ∀ pos < stop, LocalAt md run.source pos stop) :
    ∃ target behind,
      Target.read? ((run.source.take run.posMax).drop (labelEnd + 1)) = some (target, behind) ∧
      (tryRule md .link false run).2.tokens =
        run.tokens ++ (textTokens run.level run.pending ++ enclose run.level
          { kind := .linkOpen, tag := ['a'], nesting := .opening,
            attrs := target.attrs "href" ++ target.titleAttributes }
          { kind := .linkClose, tag := ['a'], nesting := .closing }
          ((parse md ((run.source.take labelEnd).drop (run.pos + 1))).map
            (Token.deeper (run.level + 1)))) := by
  have lawful : md.grammar.Lawful := jsx ▸ TagGrammar.jsx_lawful
  have delimited : md.grammar.Delimited := jsx ▸ TagGrammar.jsx_delimited
  have ready := parses.ready lawful
  have inText := ready.inText
  obtain ⟨total, target, behind, after, inWindow, opens, reads, isLink⟩ :=
    scan_link lawful ready label matched
  refine ⟨target, behind, reads, ?_⟩
  have excerpt : Excerpt run.source ((run.source.take labelEnd).drop (run.pos + 1)) (run.pos + 1)
      labelEnd := by
    refine ⟨after, by omega, rfl, ?_⟩
    rw [List.take_add_one, opens, Option.toList_some, List.getLast?_concat]
    decide
  have length := excerpt.length_eq
  obtain ⟨shallow, settled⟩ :=
    parses.settledIn lawful room around rfl (Nat.le_refl run.posMax)
  -- What the search for the end of the label leaves is right in the whole window, and so it is in
  -- the label.
  have scanned : Memo.SettledIn md run.source run.posMax run.pos
      ((scan md (skip md (md.maxNesting - run.level)) .link run.cursor).run run.memo).2 :=
    settled_scan ready rfl (ahead_le_room lawful ready shallow room) .link settled
  have forward := (ensures_scan lawful (forward_skip lawful (md.maxNesting - run.level)) .link
    run.cursor run.memo ready.forward).2
  generalize isFound : (scan md _ .link run.cursor).run run.memo = found at *
  have inLabel : found.2.SettledIn md run.source labelEnd (run.pos + 1) :=
    scanned.narrow inText (Nat.le_succ _) (Nat.le_of_lt inWindow) fun pos from_first inLabel =>
      inside labelEnd .last pos inLabel from_first
  have alike := excerpt.alike_parse lawful delimited
    (fun stop isEnd pos from_first inWindow => inside stop isEnd pos inWindow from_first)
    (show _ < md.maxNesting - (run.level + 1) by omega) (by omega) forward inLabel
  have window : run.cursor.window 1 (labelEnd - (run.pos + 1)) =
      Cursor.inside run.source (run.pos + 1) labelEnd := by
    rw [cursor, Cursor.window_inside (by omega), Nat.add_sub_cancel' after]
  rw [tokens_link lawful ready isFound isLink, window, alike.emitAll, parse_eq lawful,
    Inline.tokens, ← Inline.emitAll_deeper, Nat.zero_add]

theorem link_tokens_emphasis :
    let md : Markdown := { transform := .ok }
    let run := ofSource ['[', '*', 'a', '*', ' ', '*', 'b', ' ', '\x60', '*', 'c', '\x60', ']', '(',
      'd', ')']
    ∃ target behind,
      Target.read? ((run.source.take run.posMax).drop 13) = some (target, behind) ∧
      (tryRule md .link false run).2.tokens =
        run.tokens ++ (textTokens run.level run.pending ++ enclose run.level
          { kind := .linkOpen, tag := ['a'], nesting := .opening,
            attrs := target.attrs "href" ++ target.titleAttributes }
          { kind := .linkClose, tag := ['a'], nesting := .closing }
          ((parse md ['*', 'a', '*', ' ', '*', 'b', ' ', '\x60', '*', 'c', '\x60']).map
            (Token.deeper 1))) := by
  intro md run
  have label : run.labelEnd? md = some 12 := by decide +kernel
  refine link_tokens rfl (.start _) (by decide) label (by decide +kernel) ?inside ?around
  case inside =>
    -- Windows end with the label and with its emphasis, but not at the asterisk of its code.
    have isLocal : ∀ stop ∈ [12, 3], ∀ pos < stop, run.pos < pos →
        LocalAt md run.source pos stop := by decide +kernel
    exact fun stop isEnd => isLocal stop (isEnd.mem (by decide) (by decide +kernel))
  case around =>
    intro stop inText toEnd pos _
    rw [Nat.le_antisymm inText toEnd]
    exact localAt_length md run.source pos

/-- The first condition cannot be left out. In the whole text the asterisk at 3 has its partner
behind the link, so that the underscore at 2 is found to open nothing. As a text of its own the
label ends before that, and the underscores enclose the asterisk. -/
theorem link_tokens_differ :
    ∃ (md : Markdown) (run : InlineRun) (labelEnd : Nat), md.grammar = TagGrammar.jsx ∧
      Parses md run ∧ run.source.length < md.maxNesting ∧ run.labelEnd? md = some labelEnd ∧
      (tryRule md .link false run).1 = true ∧ ∀ target : Target,
        (tryRule md .link false run).2.tokens ≠
          run.tokens ++ (textTokens run.level run.pending ++ enclose run.level
            { kind := .linkOpen, tag := ['a'], nesting := .opening,
              attrs := target.attrs "href" ++ target.titleAttributes }
            { kind := .linkClose, tag := ['a'], nesting := .closing }
            ((parse md ((run.source.take labelEnd).drop (run.pos + 1))).map
              (Token.deeper (run.level + 1)))) := by
  let md : Markdown := { transform := .ok }
  let run := ofSource ['[', '*', '_', '*', '_', ']', '(', 'x', ')', '*']
  have inLink : (tryRule md .link false run).2.tokens.map Token.kind =
      [.linkOpen, .emOpen, .text, .emClose, .text, .linkClose] := by decide +kernel
  have alone : (parse md ['*', '_', '*', '_']).map Token.kind =
      [.text, .emOpen, .text, .emClose] := by decide +kernel
  refine ⟨md, run, 5, rfl, .start _, by decide, by decide +kernel, by decide +kernel, ?_⟩
  intro target same
  have kinds := congrArg (List.map Token.kind) same
  have label : (run.source.take 5).drop (run.pos + 1) = ['*', '_', '*', '_'] := rfl
  rw [inLink, label, List.map_append, List.map_append, Inline.map_kind_enclose, alone] at kinds
  simp [run, ofSource] at kinds

end InlineRun

end ComponentMarkdown
