import ComponentMarkdown.Proofs.Inline.Search
import ComponentMarkdown.Proofs.Inline.Window

/-!
# Plain text

At a plain character no rule but the one for plain text matches. The file has:

* `PlainAt`, and `runEnd`, the end of the run of plain characters from a position on;
* `plainRun_inside`: in a window that does not end inside a run, the rule for plain text takes the
  whole run;
* `BeginsNothing`, a text with nothing but plain text or emphasis at its front;
* `scan_plain`, and what the chain of rules matches at a plain and at a special character.
-/

namespace ComponentMarkdown

/-! ## Runs of plain characters -/

/-- A plain character stands at the position. -/
def PlainAt (source : Text) (pos : Nat) : Prop :=
  ∃ c, source[pos]? = some c ∧ isSpecial c = false

/-- Two plain characters meet at the position: it lies inside a run. -/
def InsideRun (source : Text) (pos : Nat) : Prop :=
  0 < pos ∧ PlainAt source (pos - 1) ∧ PlainAt source pos

/-- The end of the run of plain characters that begins at the position. -/
def runEnd (source : Text) (pos : Nat) : Nat :=
  pos + ((source.drop pos).takeWhile fun c => !isSpecial c).length

variable {source : Text} {pos stop : Nat}

theorem PlainAt.of_getElem? (plain : PlainAt source pos) {c : Char} (here : source[pos]? = some c) :
    isSpecial c = false := by
  obtain ⟨other, same, isPlain⟩ := plain
  rw [here] at same
  cases same
  exact isPlain

theorem isSpecial_of_not_plainAt (special : ¬PlainAt source pos) {c : Char}
    (here : source[pos]? = some c) : isSpecial c = true := by
  cases noticed : isSpecial c with
  | true => rfl
  | false => exact absurd ⟨c, here, noticed⟩ special

theorem plainAt_of_lt_runEnd {i : Nat} (from_pos : pos ≤ i) (inRun : i < runEnd source pos) :
    PlainAt source i := by
  obtain ⟨k, rfl⟩ := Nat.exists_eq_add_of_le from_pos
  have short : k < ((source.drop pos).takeWhile fun c => !isSpecial c).length :=
    Nat.lt_of_add_lt_add_left inRun
  have plain := List.all_eq_true.mp
    (@List.all_takeWhile _ (fun c => !isSpecial c) (source.drop pos)) _ (List.getElem_mem short)
  obtain ⟨rest, whole⟩ := List.takeWhile_prefix (l := source.drop pos) fun c => !isSpecial c
  have here : (source.drop pos)[k]? = some _ :=
    (congrArg (·[k]?) whole).symm.trans
      ((List.getElem?_append_left short).trans (List.getElem?_eq_getElem short))
  rw [List.getElem?_drop] at here
  exact ⟨_, here, by simpa using plain⟩

theorem not_plainAt_runEnd (source : Text) (pos : Nat) : ¬PlainAt source (runEnd source pos) := by
  rintro ⟨c, here, plain⟩
  rw [runEnd, ← List.getElem?_drop] at here
  have split := List.takeWhile_append_dropWhile (l := source.drop pos) (p := fun c => !isSpecial c)
  rw [← congrArg (·[_]?) split, List.getElem?_append_right (Nat.le_refl _), Nat.sub_self] at here
  obtain ⟨rest, begins⟩ := List.head?_eq_some_iff.mp (List.head?_eq_getElem?.trans here)
  have special := List.head?_dropWhile_not (fun c => !isSpecial c) (source.drop pos)
  simp [begins, plain] at special

theorem le_runEnd (source : Text) (pos : Nat) : pos ≤ runEnd source pos :=
  Nat.le_add_right _ _

theorem lt_runEnd (plain : PlainAt source pos) : pos < runEnd source pos :=
  Nat.lt_of_le_of_ne (le_runEnd source pos) fun same =>
    not_plainAt_runEnd source pos (same ▸ plain)

/-- A run ends by the end of a window in front of a special character or at the end of the text. -/
theorem runEnd_le (inWindow : pos ≤ stop) (ends : ¬PlainAt source stop) :
    runEnd source pos ≤ stop :=
  Nat.le_of_not_lt fun beyond => ends (plainAt_of_lt_runEnd inWindow beyond)

theorem not_insideRun (ends : ¬PlainAt source pos) : ¬InsideRun source pos :=
  fun inside => ends inside.2.2

theorem insideRun_of_lt_runEnd {i : Nat} (behind : pos < i) (inRun : i < runEnd source pos) :
    InsideRun source i := by
  refine ⟨Nat.zero_lt_of_lt behind, ?_, plainAt_of_lt_runEnd (Nat.le_of_lt behind) inRun⟩
  exact plainAt_of_lt_runEnd (Nat.le_sub_one_of_lt behind)
    (Nat.lt_of_le_of_lt (Nat.sub_le _ _) inRun)

/-- Behind a special character no run goes on. -/
theorem not_insideRun_behind {c : Char} (here : source[pos - 1]? = some c)
    (special : isSpecial c = true) : ¬InsideRun source pos := by
  rintro ⟨-, ⟨before, same, plain⟩, -⟩
  rw [here] at same
  cases same
  rw [special] at plain
  cases plain

/-! ## Windows -/

theorem getElem?_inside {n : Nat} (inWindow : pos + n < stop) :
    (Cursor.inside source pos stop).rest[n]? = source[pos + n]? := by
  rw [Cursor.inside, List.getElem?_drop, List.getElem?_take_of_lt inWindow]

/-- What stands at a position in a window. -/
theorem inside_rest_cons (inText : stop ≤ source.length) (inWindow : pos < stop) :
    ∃ c rest, (Cursor.inside source pos stop).rest = c :: rest ∧ source[pos]? = some c := by
  obtain ⟨c, rest, begins⟩ :=
    List.exists_cons_of_ne_nil (Cursor.inside_rest_ne_nil inText inWindow)
  refine ⟨c, rest, begins, ?_⟩
  have here : (Cursor.inside source pos stop).rest[0]? = source[pos]? := getElem?_inside inWindow
  rw [← here, begins]
  rfl

/-- In a window that ends behind the run, the rule for plain text takes all of it. -/
theorem plainRun_inside (plain : PlainAt source pos) (bounded : runEnd source pos ≤ stop) :
    plainRun? (Cursor.inside source pos stop).rest =
      some (.leaf (runEnd source pos - pos)
        (.literal ((source.drop pos).take (runEnd source pos - pos)))) := by
  obtain ⟨length, isEnd⟩ := Nat.exists_eq_add_of_le (le_runEnd source pos)
  have count : ((source.drop pos).takeWhile fun c => !isSpecial c).length = length :=
    Nat.add_left_cancel isEnd
  have run :
      ((source.drop pos).takeWhile fun c => !isSpecial c) = (source.drop pos).take length := by
    rw [← count]
    exact List.prefix_iff_eq_take.mp (List.takeWhile_prefix _)
  have inWindow : (Cursor.inside source pos stop).rest.takeWhile (fun c => !isSpecial c) =
      (source.drop pos).take length := by
    rw [Cursor.inside, List.drop_take, ← List.take_takeWhile, run, List.take_take]
    exact congrArg (List.take · _) (by omega)
  have some_length : ((source.drop pos).take length).length = length := by
    rw [← run, count]
  have positive := lt_runEnd plain
  have notEmpty : ((source.drop pos).take length).isEmpty = false := by
    rw [List.isEmpty_eq_false_iff, ← List.length_pos_iff, some_length]
    omega
  rw [plainRun?, inWindow, isEnd, Nat.add_sub_cancel_left, notEmpty, some_length]
  rfl

/-- The body of a construct is a window that does not end inside a run. -/
theorem Construct.Framed.window {construct : Construct}
    (framed : construct.Framed (Cursor.inside source pos stop).rest) (inText : stop ≤ source.length)
    {enclosure : Enclosure} {skip length : Nat}
    (isForm : construct.form = .enclosing enclosure skip length) :
    pos + skip + length ≤ stop ∧ ¬PlainAt source (pos + skip + length) ∧
      (Cursor.inside source pos stop).window skip length =
        Cursor.inside source (pos + skip) (pos + skip + length) := by
  obtain ⟨mark, here, special⟩ := framed enclosure skip length isForm
  have short := (List.getElem?_eq_some_iff.mp here).1
  rw [Cursor.length_inside inText] at short
  rw [getElem?_inside (by omega), ← Nat.add_assoc] at here
  refine ⟨by omega, fun plain => ?_, Cursor.window_inside (by omega)⟩
  rw [plain.of_getElem? here] at special
  cases special

/-! ## Rules -/

/-- No rule but those for plain text and for emphasis matches at the front of the text. -/
structure BeginsNothing (s : Text) : Prop where
  newline : newline? s = none
  escape : escape? s = none
  codeSpan : codeSpan? s = none
  autolink : autolink? s = none
  entity : entity? s = none
  embedded : mayEmbed s = false
  link : s.head? ≠ some '['
  image : s.head? ≠ some '!'

theorem beginsNothing {mark : Char} (plain : isSpecial mark = false ∨ mark = '_') (rest : Text) :
    BeginsNothing (mark :: rest) := by
  have differs (special : Char) (isSpecial : isSpecial special = true) (other : special ≠ '_') :
      mark ≠ special := by
    rintro rfl
    rcases plain with plain | same
    · rw [isSpecial] at plain
      cases plain
    · exact other same
  constructor
  case newline =>
    rw [newline?]
    exact fun _ same => differs '\n' rfl (by decide) (List.cons.inj same).1
  case escape =>
    rw [escape?]
    · exact fun _ _ same => differs '\\' rfl (by decide) (List.cons.inj same).1
    · exact fun same => differs '\\' rfl (by decide) (List.cons.inj same).1
  case codeSpan =>
    have none : Text.runLength '\x60' (mark :: rest) = 0 := by
      simp [Text.runLength, differs '\x60' rfl]
    rw [codeSpan?, none]
    rfl
  case autolink =>
    rw [autolink?]
    exact fun _ same => differs '<' rfl (by decide) (List.cons.inj same).1
  case entity =>
    rw [entity?]
    exact fun _ same => differs '&' rfl (by decide) (List.cons.inj same).1
  case embedded =>
    rw [mayEmbed]
    · exact fun _ _ same => differs '\x7b' rfl (by decide) (List.cons.inj same).1
    · exact fun _ _ _ same => differs '<' rfl (by decide) (List.cons.inj same).1
  case link => exact fun same => differs '[' rfl (by decide) (Option.some.inj same)
  case image => exact fun same => differs '!' rfl (by decide) (Option.some.inj same)

variable {md : Markdown} {skip : Skip} {c : Cursor} {mark : Char} {rest : Text}

theorem BeginsNothing.scan (nothing : BeginsNothing c.rest) {rule : InlineRule}
    (notText : rule ≠ .text) (notEmphasis : rule ≠ .emphasis) :
    scan md skip rule c = pure none := by
  cases rule with
  | text => exact absurd rfl notText
  | emphasis => exact absurd rfl notEmphasis
  | newline => rw [ComponentMarkdown.scan, nothing.newline]
  | escape => rw [ComponentMarkdown.scan, nothing.escape]
  | backticks => rw [ComponentMarkdown.scan, nothing.codeSpan]
  | autolink => rw [ComponentMarkdown.scan, nothing.autolink]
  | entity => rw [ComponentMarkdown.scan, nothing.entity]
  | embedded =>
    rw [ComponentMarkdown.scan, embedded?, nothing.embedded]
    rfl
  | link =>
    rw [ComponentMarkdown.scan, link?]
    split
    · next begins => exact absurd (congrArg List.head? begins) nothing.link
    · rfl
  | image =>
    rw [ComponentMarkdown.scan, image?]
    split
    · next begins => exact absurd (congrArg List.head? begins) nothing.image
    · rfl

/-- At a plain character no rule matches but the one for plain text. -/
theorem scan_plain (begins : c.rest = mark :: rest) (plain : isSpecial mark = false)
    {rule : InlineRule} (other : rule ≠ .text) : scan md skip rule c = pure none := by
  by_cases isEmphasis : rule = .emphasis
  · have star : (mark == '*') = false := beq_eq_false_iff_ne.mpr fun same => by cases same ▸ plain
    have underscore : (mark == '_') = false :=
      beq_eq_false_iff_ne.mpr fun same => by cases same ▸ plain
    rw [isEmphasis, scan, emphasis?, begins]
    simp [star, underscore]
  · exact BeginsNothing.scan (begins ▸ beginsNothing (.inl plain) rest) other isEmphasis

/-- At a special character the rule for plain text does not match. -/
theorem scan_text_special (begins : c.rest = mark :: rest) (special : isSpecial mark = true) :
    scan md skip .text c = pure none := by
  rw [scan, begins, plainRun?]
  simp [special]

/-! ## Chains of rules -/

/-- At a plain character a chain without the rule for plain text matches nothing. -/
theorem firstLength_plain (begins : c.rest = mark :: rest) (plain : isSpecial mark = false)
    {rules : List InlineRule} (without : .text ∉ rules) :
    firstLength (scan md skip) c rules = pure none := by
  induction rules with
  | nil => rfl
  | cons rule rules ih =>
    have differs := List.ne_of_not_mem_cons without
    have more := List.not_mem_of_not_mem_cons without
    rw [firstLength, scan_plain begins plain (Ne.symm differs), pure_bind]
    exact ih more

theorem firstPieces_plain {resolve : Cursor → Construct → Memoized Inline}
    (begins : c.rest = mark :: rest) (plain : isSpecial mark = false)
    {rules : List InlineRule} (without : .text ∉ rules) :
    firstPieces (scan md skip) resolve c rules = pure ([], 0) := by
  induction rules with
  | nil => rfl
  | cons rule rules ih =>
    have differs := List.ne_of_not_mem_cons without
    have more := List.not_mem_of_not_mem_cons without
    rw [firstPieces, scan_plain begins plain (Ne.symm differs), pure_bind]
    exact ih more

/-- At a plain character a chain with the rule for plain text takes the run. -/
theorem firstLength_run (begins : c.rest = mark :: rest) (plain : isSpecial mark = false)
    {rules : List InlineRule} (member : .text ∈ rules) {length : Nat} {piece : Inline}
    (run : plainRun? c.rest = some (.leaf length piece)) (positive : 0 < length) :
    firstLength (scan md skip) c rules = pure (some length) := by
  induction rules with
  | nil => cases member
  | cons rule rules ih =>
    rw [firstLength]
    by_cases isText : rule = .text
    · rw [isText, scan, run, pure_bind]
      exact if_pos positive
    · rw [scan_plain begins plain isText, pure_bind]
      exact ih ((List.mem_cons.mp member).resolve_left (Ne.symm isText))

theorem firstPieces_run {parseLabel : Text → List Inline}
    {parseBody : Cursor → Memoized (List Inline)}
    (begins : c.rest = mark :: rest) (plain : isSpecial mark = false)
    {rules : List InlineRule} (member : .text ∈ rules) {length : Nat} {piece : Inline}
    (run : plainRun? c.rest = some (.leaf length piece)) (positive : 0 < length) :
    firstPieces (scan md skip) (resolve parseLabel parseBody) c rules =
      pure ([piece], length) := by
  induction rules with
  | nil => cases member
  | cons rule rules ih =>
    rw [firstPieces]
    by_cases isText : rule = .text
    · rw [isText, scan, run, pure_bind]
      change (pure piece >>= fun piece => _) = _
      rw [pure_bind]
      exact if_pos positive
    · rw [scan_plain begins plain isText, pure_bind]
      exact ih ((List.mem_cons.mp member).resolve_left (Ne.symm isText))

/-- At a special character the rule for plain text makes no difference. -/
theorem firstLength_special (begins : c.rest = mark :: rest) (special : isSpecial mark = true)
    (rules : List InlineRule) :
    firstLength (scan md skip) c rules =
      firstLength (scan md skip) c (rules.filter (· ≠ .text)) := by
  induction rules with
  | nil => rfl
  | cons rule rules ih =>
    by_cases isText : rule = .text
    · rw [firstLength, isText, scan_text_special begins special, pure_bind,
        List.filter_cons_of_neg (by simp)]
      exact ih
    · rw [List.filter_cons_of_pos (by simpa using isText), firstLength, firstLength, ih]

theorem firstPieces_special {resolve : Cursor → Construct → Memoized Inline}
    (begins : c.rest = mark :: rest) (special : isSpecial mark = true) (rules : List InlineRule) :
    firstPieces (scan md skip) resolve c rules =
      firstPieces (scan md skip) resolve c (rules.filter (· ≠ .text)) := by
  induction rules with
  | nil => rfl
  | cons rule rules ih =>
    by_cases isText : rule = .text
    · rw [firstPieces, isText, scan_text_special begins special, pure_bind,
        List.filter_cons_of_neg (by simp)]
      exact ih
    · rw [List.filter_cons_of_pos (by simpa using isText), firstPieces, firstPieces, ih]

end ComponentMarkdown
