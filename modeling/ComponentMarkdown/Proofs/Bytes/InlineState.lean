import ComponentMarkdown.Proofs.Bytes.Scan
import ComponentMarkdown.Proofs.Inline.Rules

/-!
# Runs of text by bytes

A parse of inline content keeps its window, and what skipping has found, as numbers of bytes. The
file has:

* `InlineByteRun`, and the changes of its tokens;
* `ofRun`, which stands for a run whose positions count characters;
* what an access to the window of a run gives.
-/

namespace ComponentMarkdown

open Text Checked

/-- Where parsing of a run of text stands, with positions that count bytes. -/
structure InlineByteRun where
  source : Text
  pos : Nat := 0
  posMax : Nat
  /-- Text that is not part of a token yet. -/
  pending : Text := []
  level : Nat := 0
  tokens : List Token := []
  /-- Where skipping has led to from a byte, and whether a rule took what was skipped. -/
  cache : Nat → Option (Nat × Bool) := fun _ => none

namespace InlineByteRun

/-- A step that may match. -/
abbrev Step := InlineByteRun → Checked (Bool × InlineByteRun)

/-- The run before anything was read. -/
def ofSource (source : Text) : InlineByteRun :=
  { source, posMax := source.size }

section

variable (run : InlineByteRun)

/-- The byte at the position, if it lies inside of the window. -/
def peek : Checked (Option Char) :=
  if run.pos < run.posMax then do return some (← byteAt run.source.bytes run.pos) else return none

/-- The text from the position to the end of the window. -/
def ahead : Checked Text :=
  slice run.source run.pos run.posMax

/-! ## Tokens -/

/-- Makes a token of the pending text, even if there is none. -/
def flush : InlineByteRun :=
  { run with
    pending := []
    tokens := run.tokens ++
      [{ kind := .text, tag := [], nesting := .selfClosing, level := run.level,
         content := run.pending }] }

/-- Makes a token of the pending text, if there is any. -/
def settle : InlineByteRun :=
  if run.pending.isEmpty then run else run.flush

/-- Adds a token behind the pending text, on the level that its nesting asks for. -/
def add (token : Token) : InlineByteRun :=
  let run := run.settle
  let level := if token.nesting = .closing then run.level - 1 else run.level
  { run with
    level := if token.nesting = .opening then level + 1 else level
    tokens := run.tokens ++ [{ token with level }] }

def push (kind : TokenKind) (tag : Text) (nesting : Nesting) : InlineByteRun :=
  run.add { kind, tag, nesting }

/-- Adds a line end. Two spaces before it make it a hard break; the pending text ends where the
spaces begin. -/
def breakLine : Checked InlineByteRun := do
  let isHard := Text.startsWith [' ', ' '] run.pending.reverse
  let pending ← slice run.pending 0 (run.pending.dropEndWhile (· == ' ')).size
  return { run with pending }.push (if isHard then .hardbreak else .softbreak) ['b', 'r']
    .selfClosing

/-- Adds a link that shows its address. -/
def addAutolink (address href : Text) : InlineByteRun :=
  let mark : Token :=
    { kind := .linkOpen, tag := ['a'], nesting := .opening, markup := "autolink".toList,
      info := "auto".toList }
  let run := run.add { mark with attrs := [("href".toList, .text href)] }
  let run := run.add { kind := .text, tag := [], nesting := .selfClosing, content := address }
  run.add { mark with kind := .linkClose, nesting := .closing }

end

/-- Moves to another position, as one of two runs: the run as it is if it is silent, or with what it
has made. -/
def moved (silent : Bool) (run made : InlineByteRun) (pos : Nat) : Bool × InlineByteRun :=
  (true, { (if silent then run else made) with pos })

/-- Puts an opening and a closing token around what `parse` makes of the part of the window from
`start` up to `stop`. The window is the old one again at the end. -/
def wrap (parse : InlineByteRun → Checked InlineByteRun) (opening closing : Token)
    (start stop : Nat) (run : InlineByteRun) : Checked InlineByteRun := do
  let parsed ← parse { run.add opening with pos := start, posMax := stop }
  return { parsed with posMax := run.posMax }.add closing

end InlineByteRun

/-! ## Places -/

namespace Text

variable {source : Text} {pos stop count : Nat}

theorem offset_add (inText : pos + count ≤ source.length) :
    offset source (pos + count) = offset source pos + size ((source.drop pos).take count) := by
  unfold offset
  rw [List.take_add, size_append, Nat.sub_eq_zero_of_le inText,
    Nat.sub_eq_zero_of_le (Nat.le_trans (Nat.le_add_right ..) inText), Nat.add_zero, Nat.add_zero]

/-- The index of the character that begins with a byte. -/
def charIndex? (source : Text) (index : Nat) : Option Nat :=
  (List.range (source.length + 1)).find? (offset source · == index)

theorem charIndex?_eq_some {index : Nat} :
    charIndex? source index = some pos ↔ pos ≤ source.length ∧ offset source pos = index := by
  unfold charIndex?
  constructor
  · intro found
    have member := List.mem_of_find?_eq_some found
    have same := List.find?_some found
    exact ⟨Nat.le_of_lt_succ (List.mem_range.mp member), beq_iff_eq.mp same⟩
  · rintro ⟨inText, rfl⟩
    cases found : (List.range (source.length + 1)).find? (offset source · == offset source pos) with
    | none =>
      have different := List.find?_eq_none.mp found pos
        (List.mem_range.mpr (Nat.lt_succ_of_le inText))
      exact absurd (beq_self_eq_true _) different
    | some other =>
      have same := List.find?_some found
      rw [offset_inj.mp (beq_iff_eq.mp same)]

end Text

namespace Checked

/-- The text from a byte up to the end of a window. -/
def Stands (source : Text) (first max : Nat) (s : Text) : Prop :=
  ∃ before behind, source = before ++ (s ++ behind) ∧ first = size before ∧ max = first + size s

namespace Stands

variable {source s t rest : Text} {first max : Nat}

theorem ahead (stands : Stands source first max s) : Ahead source.bytes first max (bytes s) := by
  obtain ⟨before, behind, rfl, rfl, rfl⟩ := stands
  exact .of_append before s behind

theorem append (stands : Stands source first max (s ++ t)) :
    Stands source (first + size s) max t := by
  obtain ⟨before, behind, rfl, rfl, rfl⟩ := stands
  refine ⟨before ++ s, behind, by simp only [List.append_assoc], (size_append _ _).symm, ?_⟩
  rw [size_append, Nat.add_assoc]

/-- What is left of a text lies at the end of the window. -/
theorem suffix (stands : Stands source first max s) (isSuffix : rest <:+ s) :
    Stands source (max - size rest) max rest := by
  obtain ⟨front, rfl⟩ := isSuffix
  have behind := stands.append
  obtain ⟨-, -, -, -, ends⟩ := id behind
  rwa [ends, Nat.add_sub_cancel, ← ends]

theorem slice (stands : Stands source first max (s ++ t)) :
    slice source first (first + size s) = .ok s := by
  obtain ⟨before, behind, isSource, rfl, -⟩ := stands
  rw [List.append_assoc] at isSource
  exact slice_of_eq isSource rfl rfl

theorem eq_sub (stands : Stands source first max s) : first = max - size s :=
  stands.ahead.eq_sub

end Stands

end Checked

namespace Cursor

variable {source : Text} {pos stop : Nat}

/-- A text is what lies before a window, the window, and what lies behind it. -/
theorem parts_inside (ordered : pos ≤ stop) :
    source = source.take pos ++ ((inside source pos stop).rest ++ source.drop stop) := by
  unfold inside
  dsimp only
  rw [← List.append_assoc]
  conv => lhs; rw [← List.take_append_drop stop source]
  congr 1
  conv => lhs; rw [← List.take_append_drop pos (source.take stop)]
  rw [List.take_take, Nat.min_eq_left ordered]

/-- The text of a window. -/
theorem stands_inside (ordered : pos ≤ stop) (inText : stop ≤ source.length) :
    Stands source (offset source pos) (offset source stop) (inside source pos stop).rest := by
  have parts := @parts_inside source pos stop ordered
  have front : offset source pos = size (source.take pos) :=
    offset_of_eq parts (List.length_take_of_le (Nat.le_trans ordered inText)).symm
  have ends := @offset_add source pos (stop - pos) (by omega)
  rw [Nat.add_sub_cancel' ordered, ← List.drop_take] at ends
  exact ⟨_, _, parts, front, ends⟩

theorem slice_inside (ordered : pos ≤ stop) (inText : stop ≤ source.length) :
    slice source (offset source pos) (offset source stop) = .ok (inside source pos stop).rest :=
  slice_offset ordered inText

end Cursor

/-! ## Runs that count characters -/

namespace InlineByteRun

/-- The outcomes of skipping, with bytes for characters. -/
def cacheOf (source : Text) (memo : Memo) (index : Nat) : Option (Nat × Bool) :=
  (charIndex? source index).bind fun pos =>
    memo[pos]?.map fun known => (offset source known.stop, known.consumed)

theorem cacheOf_offset {source : Text} {pos : Nat} (inText : pos ≤ source.length) (memo : Memo) :
    cacheOf source memo (offset source pos) =
      memo[pos]?.map fun known => (offset source known.stop, known.consumed) := by
  unfold cacheOf
  rw [charIndex?_eq_some.mpr ⟨inText, rfl⟩, Option.bind_some]

theorem cacheOf_insert {source : Text} {pos : Nat} (inText : pos ≤ source.length) (memo : Memo)
    (known : Skipped) :
    cacheOf source (memo.insert pos known) = fun index =>
      if index = offset source pos then some (offset source known.stop, known.consumed)
      else cacheOf source memo index := by
  funext index
  unfold cacheOf
  cases found : charIndex? source index with
  | none =>
    have different : index ≠ offset source pos := by
      intro same
      rw [charIndex?_eq_some.mpr ⟨inText, same.symm⟩] at found
      cases found
    rw [if_neg different]
    rfl
  | some other =>
    obtain ⟨-, rfl⟩ := charIndex?_eq_some.mp found
    rw [Option.bind_some, Std.TreeMap.getElem?_insert]
    by_cases same : other = pos
    · rw [if_pos (offset_inj.mpr same), if_pos (by simp [same])]
      rfl
    · rw [if_neg (fun eq => same (offset_inj.mp eq)), if_neg (by simpa using Ne.symm same)]
      rfl

theorem cacheOf_empty (source : Text) : cacheOf source ∅ = fun _ => none := by
  funext index
  unfold cacheOf
  cases charIndex? source index with
  | none => rfl
  | some pos => simp

/-- The run with bytes for characters. -/
def ofRun (run : InlineRun) : InlineByteRun where
  source := run.source
  pos := offset run.source run.pos
  posMax := offset run.source run.posMax
  pending := run.pending
  level := run.level
  tokens := run.tokens
  cache := cacheOf run.source run.memo

/-- What a step has come to, with bytes for characters. -/
def ofStep (tried : Bool × InlineRun) : Bool × InlineByteRun :=
  (tried.1, ofRun tried.2)

theorem ofSource_eq (source : Text) : ofSource source = ofRun (InlineRun.ofSource source) := by
  unfold ofSource ofRun InlineRun.ofSource
  dsimp only
  rw [offset_zero, offset_length, cacheOf_empty]

section

variable {run : InlineRun}

theorem source_ofRun (run : InlineRun) : (ofRun run).source = run.source := rfl

theorem pos_ofRun (run : InlineRun) : (ofRun run).pos = offset run.source run.pos := rfl

theorem posMax_ofRun (run : InlineRun) : (ofRun run).posMax = offset run.source run.posMax := rfl

theorem add_ofRun (run : InlineRun) (token : Token) :
    (ofRun run).add token = ofRun (run.add token) := by
  unfold add settle InlineRun.add InlineRun.settle
  rw [show (ofRun run).pending = run.pending from rfl]
  cases run.pending.isEmpty <;> rfl

theorem push_ofRun (run : InlineRun) (kind : TokenKind) (tag : Text) (nesting : Nesting) :
    (ofRun run).push kind tag nesting = ofRun (run.push kind tag nesting) :=
  add_ofRun run _

theorem settle_ofRun (run : InlineRun) : (ofRun run).settle = ofRun run.settle := by
  unfold settle InlineRun.settle
  rw [show (ofRun run).pending = run.pending from rfl]
  cases run.pending.isEmpty <;> rfl

theorem addAutolink_ofRun (run : InlineRun) (address href : Text) :
    (ofRun run).addAutolink address href = ofRun (run.addAutolink address href) := by
  unfold addAutolink InlineRun.addAutolink
  dsimp only
  rw [add_ofRun, add_ofRun, add_ofRun]

theorem breakLine_eq (run : InlineRun) : (ofRun run).breakLine = .ok (ofRun run.breakLine) := by
  have kept : slice run.pending 0 (run.pending.dropEndWhile (· == ' ')).size =
      .ok (run.pending.dropEndWhile (· == ' ')) := by
    have whole := List.takeWhile_append_dropWhile (p := (· == ' ')) (l := run.pending.reverse)
    have parts := congrArg List.reverse whole
    rw [List.reverse_append, List.reverse_reverse] at parts
    exact @slice_of_eq _ [] _ _ _ _ parts.symm rfl (Nat.zero_add _).symm
  unfold breakLine InlineRun.breakLine
  dsimp only
  rw [show (ofRun run).pending = run.pending from rfl, kept, ok_bind]
  exact congrArg Except.ok (push_ofRun { run with pending := _ } _ _ _)

/-- Moving to where a character begins. -/
theorem moved_eq (silent : Bool) {run made : InlineRun} (same : made.source = run.source)
    (pos : Nat) :
    moved silent (ofRun run) (ofRun made) (offset run.source pos) =
      ofStep (true, { (if silent then run else made) with pos }) := by
  cases silent with
  | true => rfl
  | false => rw [← same]; rfl

theorem source_add (run : InlineRun) (token : Token) : (run.add token).source = run.source := by
  unfold InlineRun.add InlineRun.settle
  cases run.pending.isEmpty <;> rfl

/-! ## Accesses -/

/-- The text around what is ahead in the window. -/
theorem source_parts (ready : run.Ready) : ∃ before behind : Text,
    run.source = before ++ (run.cursor.rest ++ behind) ∧ run.pos = before.length :=
  ⟨_, _, Cursor.parts_inside ready.ordered,
    (List.length_take_of_le (Nat.le_trans ready.ordered ready.inText)).symm⟩

theorem stands_ofRun (ready : run.Ready) :
    Stands run.source (offset run.source run.pos) (offset run.source run.posMax) run.cursor.rest :=
  Cursor.stands_inside ready.ordered ready.inText

theorem ahead_ofRun (ready : run.Ready) :
    Ahead run.source.bytes (offset run.source run.pos) (offset run.source run.posMax)
      (bytes run.cursor.rest) :=
  (stands_ofRun ready).ahead

theorem posMax_eq (ready : run.Ready) :
    offset run.source run.posMax = offset run.source run.pos + size run.cursor.rest := by
  obtain ⟨-, -, -, -, ends⟩ := stands_ofRun ready
  exact ends

theorem ahead_eq (ready : run.Ready) : (ofRun run).ahead = .ok run.cursor.rest :=
  Cursor.slice_inside ready.ordered ready.inText

theorem peek_eq (ready : run.Ready) : (ofRun run).peek = .ok (run.cursor.rest.head?.map lead) := by
  have inWindow := ahead_ofRun ready
  show (if offset run.source run.pos < offset run.source run.posMax then _ else _) = _
  cases rest : run.cursor.rest with
  | nil =>
    rw [rest] at inWindow
    rw [if_neg (Nat.not_lt.mpr (Nat.le_of_eq inWindow.nil))]
    rfl
  | cons c others =>
    rw [rest, bytes_cons_eq] at inWindow
    rw [if_pos inWindow.lt, show byteAt (ofRun run).source.bytes (ofRun run).pos = _ from
      inWindow.byteAt]
    rfl

/-- Where characters of the window end. -/
theorem offset_ahead (ready : run.Ready) {count : Nat} (inWindow : count ≤ run.cursor.rest.length) :
    offset run.source (run.pos + count) =
      offset run.source run.pos + size (run.cursor.rest.take count) := by
  rw [InlineRun.cursor_rest_length ready] at inWindow
  have ordered := ready.ordered
  have inText := ready.inText
  rw [offset_add (by omega)]
  unfold InlineRun.cursor Cursor.inside
  dsimp only
  rw [List.drop_take, List.take_take, Nat.min_eq_left inWindow]

/-- Where characters of the window end, counted in the window. -/
theorem offset_within (ready : run.Ready) {count : Nat}
    (inWindow : count ≤ run.cursor.rest.length) :
    offset run.source run.pos + offset run.cursor.rest count =
      offset run.source (run.pos + count) := by
  rw [offset_ahead ready inWindow, offset_eq inWindow]

/-- Where what is left of the window begins. -/
theorem offset_behind (ready : run.Ready) {left : Text} (isSuffix : left <:+ run.cursor.rest) :
    offset run.source (run.pos + (run.cursor.rest.length - left.length)) =
      offset run.source run.posMax - size left := by
  obtain ⟨front, parts⟩ := isSuffix
  have inWindow : front.length ≤ run.cursor.rest.length := by
    rw [← parts, List.length_append]
    exact Nat.le_add_right ..
  have place := offset_ahead ready inWindow
  rw [posMax_eq ready, ← parts, size_append, ← Nat.add_assoc, Nat.add_sub_cancel,
    List.length_append, Nat.add_sub_cancel, place, ← parts, List.take_left]

/-- The text of some characters of the window. -/
theorem slice_ahead (ready : run.Ready) {count : Nat} (inWindow : count ≤ run.cursor.rest.length) :
    slice run.source (offset run.source run.pos) (offset run.source (run.pos + count)) =
      .ok (run.cursor.rest.take count) := by
  rw [InlineRun.cursor_rest_length ready] at inWindow
  have ordered := ready.ordered
  have inText := ready.inText
  rw [slice_offset (Nat.le_add_right ..) (by omega)]
  unfold InlineRun.cursor Cursor.inside
  dsimp only
  rw [List.drop_take, List.drop_take, List.take_take, Nat.min_eq_left inWindow,
    Nat.add_sub_cancel_left]

end

end InlineByteRun

end ComponentMarkdown
