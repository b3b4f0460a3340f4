import ComponentMarkdown.Proofs.Inline.Progress

/-!
# How deep inline content is nested

Pieces that are parsed with `budget` levels left are nested at most so deep; the label of an image
begins anew with all levels. What is parsed on the way keeps the memo as skipping needs it.
-/

namespace ComponentMarkdown

open Memoized (Ensures)

/-- A piece that is nested at most `depth` deep, and the labels of the images in it at most `limit`
deep. -/
inductive Inline.Within (limit : Nat) : Nat → Inline → Prop
  | literal {depth : Nat} (text : Text) : Within limit depth (.literal text)
  | lineBreak {depth : Nat} : Within limit depth .lineBreak
  | hardBreak {depth : Nat} : Within limit depth .hardBreak
  | code {depth : Nat} (ticks content : Text) : Within limit depth (.code ticks content)
  | embedded {depth : Nat} (code : Text) : Within limit depth (.embedded code)
  | autolink {depth : Nat} {address : Text} (href : Text) (shown : address ≠ []) :
      Within limit (depth + 1) (.autolink address href)
  | emphasis {depth : Nat} (marker : Char) (strong : Bool) {body : List Inline}
      (inside : ∀ piece ∈ body, Within limit depth piece) :
      Within limit (depth + 1) (.emphasis marker strong body)
  | link {depth : Nat} (target : Target) {body : List Inline}
      (inside : ∀ piece ∈ body, Within limit depth piece) :
      Within limit (depth + 1) (.link target body)
  | image {depth : Nat} (target : Target) (label : Text) {body : List Inline}
      (inside : ∀ piece ∈ body, Within limit limit piece) :
      Within limit depth (.image target label body)
  | element {depth : Nat} (code : Text) {body : List Inline}
      (inside : ∀ piece ∈ body, Within limit depth piece) :
      Within limit (depth + 1) (.element code body)

/-- All pieces are nested at most `depth` deep. -/
def Inline.AllWithin (limit depth : Nat) (pieces : List Inline) : Prop :=
  ∀ piece ∈ pieces, piece.Within limit depth

namespace Inline

theorem IsComplete.within {piece : Inline} (complete : piece.IsComplete) (limit depth : Nat) :
    piece.Within limit (depth + 1) := by
  cases piece with
  | literal text => exact .literal text
  | lineBreak => exact .lineBreak
  | hardBreak => exact .hardBreak
  | code ticks content => exact .code ticks content
  | autolink address href => exact .autolink href complete
  | embedded code => exact .embedded code
  | emphasis | link | image | element => exact complete.elim

theorem allWithin_nil (limit depth : Nat) : AllWithin limit depth [] := by
  intro piece member
  cases member

theorem AllWithin.cons {limit depth : Nat} {piece : Inline} {pieces : List Inline}
    (first : piece.Within limit depth) (others : AllWithin limit depth pieces) :
    AllWithin limit depth (piece :: pieces) := by
  intro other member
  cases member with
  | head => exact first
  | tail _ member => exact others other member

theorem AllWithin.append {limit depth : Nat} {pieces more : List Inline}
    (first : AllWithin limit depth pieces) (second : AllWithin limit depth more) :
    AllWithin limit depth (pieces ++ more) := by
  intro piece member
  exact (List.mem_append.mp member).elim (first piece) (second piece)

end Inline

open Inline (AllWithin)

section

variable {limit depth : Nat} {parseLabel : Text → List Inline}
  {parseBody : Cursor → Memoized (List Inline)}

/-- A construct becomes a piece one level deeper than its body. -/
theorem ensures_resolve (labels : ∀ label, AllWithin limit limit (parseLabel label))
    (bodies : ∀ c, Ensures (parseBody c) (AllWithin limit depth)) {c : Cursor}
    {construct : Construct} {rest : Text} (fits : construct.Fits rest) :
    Ensures (resolve parseLabel parseBody c construct) (·.Within limit (depth + 1)) := by
  obtain ⟨length, form⟩ := construct
  rw [resolve]
  cases form with
  | leaf piece => exact .pure (Inline.IsComplete.within fits.inside limit depth)
  | enclosing enclosure skip length =>
    cases enclosure with
    | emphasis marker strong =>
      exact (bodies _).bind fun body inside => .pure (.emphasis marker strong inside)
    | link target => exact (bodies _).bind fun body inside => .pure (.link target inside)
    | image target => exact .pure (.image target _ (labels _))
    | element code => exact (bodies _).bind fun body inside => .pure (.element code inside)

/-- Either no rule matches and there are no pieces, or some characters of the window are taken. -/
theorem ensures_firstPieces {scanRule : InlineRule → Cursor → Memoized (Option Construct)}
    {resolve : Cursor → Construct → Memoized Inline} {c : Cursor}
    (fits : ∀ rule, Ensures (scanRule rule c) (Construct.AllFit · c.rest))
    (within : ∀ construct : Construct, construct.Fits c.rest →
      Ensures (resolve c construct) (·.Within limit depth)) (rules : List InlineRule) :
    Ensures (firstPieces scanRule resolve c rules) fun found =>
      AllWithin limit depth found.1 ∧ found.2 ≤ c.rest.length ∧ (found.2 = 0 → found.1 = []) := by
  induction rules with
  | nil => exact .pure ⟨Inline.allWithin_nil limit depth, Nat.zero_le _, fun _ => rfl⟩
  | cons rule rules ih =>
    rw [firstPieces]
    refine (fits rule).bind fun found allFit => ?_
    split
    · exact ih
    · next construct =>
      have fit := allFit construct rfl
      refine (within construct fit).bind fun piece inside => ?_
      rw [if_pos fit.positive]
      refine .pure ⟨.cons inside (Inline.allWithin_nil limit depth), fit.bounded, fun none => ?_⟩
      exact absurd none (Nat.pos_iff_ne_zero.mp fit.positive)

theorem ensures_parsePieces {next : Cursor → Memoized (List Inline × Nat)}
    (within : ∀ c : Cursor, Ensures (next c) (AllWithin limit depth ·.1)) (fuel : Nat)
    (c : Cursor) : Ensures (parsePieces next fuel c) (AllWithin limit depth) := by
  induction fuel generalizing c with
  | zero => exact .pure (Inline.allWithin_nil limit depth)
  | succ fuel ih =>
    rw [parsePieces]
    split
    · exact .pure (Inline.allWithin_nil limit depth)
    · next char rest begins =>
      refine (within c).bind fun found inside => ?_
      obtain ⟨pieces, length⟩ := found
      dsimp only
      split
      · exact (ih _).bind fun more insideToo => .pure (inside.append insideToo)
      · refine (ih _).bind fun more insideToo => .pure (inside.append ?_)
        exact .cons (.literal [char]) insideToo

end

variable {md : Markdown}

theorem ensures_parseWindow (lawful : md.grammar.Lawful) {parseLabel : Text → List Inline}
    (labels : ∀ label, AllWithin md.maxNesting md.maxNesting (parseLabel label)) (budget : Nat)
    (c : Cursor) :
    Ensures (parseWindow md parseLabel budget c) (AllWithin md.maxNesting budget) := by
  induction budget generalizing c with
  | zero => exact .pure (.cons (.literal c.rest) (Inline.allWithin_nil _ _))
  | succ budget ih =>
    refine ensures_parsePieces (fun c => ?_) _ c
    have fits := fun rule => ensures_scan lawful (forward_skip lawful (budget + 1)) rule c
    refine (ensures_firstPieces fits (fun construct fit => ?_) _).mono fun found bounds => bounds.1
    exact ensures_resolve labels ih fit

theorem allWithin_parseNested (lawful : md.grammar.Lawful) (depth : Nat) (source : Text) :
    AllWithin md.maxNesting md.maxNesting (parseNested md depth source) := by
  induction depth generalizing source with
  | zero => exact Inline.allWithin_nil _ _
  | succ depth ih =>
    exact (ensures_parseWindow lawful ih md.maxNesting _ ∅ Memo.forward_empty).1

/-- The content of a text is nested no deeper than the dialect admits. -/
theorem allWithin_parse (lawful : md.grammar.Lawful) (source : Text) :
    AllWithin md.maxNesting md.maxNesting (Inline.parse md source) :=
  allWithin_parseNested lawful _ source

end ComponentMarkdown
