import ComponentMarkdown.Factory
import ComponentMarkdown.Proofs.Render.Indent

/-!
# Hanging lines

A call with children indents its arguments, so that the lines of copied code move to the right, all
but the first one together with what stands before them. The file has:

* `hang`, what indentation does to a text behind its first line;
* `Solid`, a text that white space neither begins nor ends: it hangs wherever it stands;
* trimming, which hangs as well.
-/

namespace ComponentMarkdown.Factory

/-! ## Hanging lines -/

/-- Indents every line but the first one. A carriage return before a line feed goes. -/
def hang : Text → Text
  | [] => []
  | '\r' :: '\n' :: rest => '\n' :: ' ' :: ' ' :: hang rest
  | '\n' :: rest => '\n' :: ' ' :: ' ' :: hang rest
  | c :: rest => c :: hang rest

theorem hang_newline (rest : Text) : hang ('\n' :: rest) = '\n' :: ' ' :: ' ' :: hang rest := by
  rw [hang]

theorem hang_cons {c : Char} (notLine : c ≠ '\n') {rest : Text}
    (apart : c = '\r' → rest.head? ≠ some '\n') : hang (c :: rest) = c :: hang rest := by
  rw [hang]
  · rintro behind rfl rfl
    exact apart rfl rfl
  · exact notLine

theorem getLast?_cons_of_some {s : Text} {c last : Char} (ends : s.getLast? = some last) :
    (c :: s).getLast? = some last := by
  rw [List.getLast?_cons, ends]
  rfl

/-- Texts hang each for itself, unless a line end is cut in two. -/
theorem hang_append {s more : Text} (apart : s.getLast? = some '\r' → more.head? ≠ some '\n') :
    hang (s ++ more) = hang s ++ hang more := by
  fun_induction hang s with
  | case1 => rfl
  | case2 rest ih =>
    have behind := ih fun ends => apart (getLast?_cons_of_some (getLast?_cons_of_some ends))
    rw [List.cons_append, List.cons_append, hang, behind]
    rfl
  | case3 rest ih =>
    have behind := ih fun ends => apart (getLast?_cons_of_some ends)
    rw [List.cons_append, hang_newline, behind]
    rfl
  | case4 c rest notReturn notLine ih =>
    have behind := ih fun ends => apart (getLast?_cons_of_some ends)
    rw [List.cons_append, hang_cons notLine, behind]
    · rfl
    · rintro rfl
      cases rest with
      | nil => exact apart rfl
      | cons d rest =>
        rintro ⟨⟩
        exact notReturn rest rfl rfl

/-- A line hangs nowhere. -/
theorem hang_line {line : Text} (oneLine : '\n' ∉ line) : hang line = line := by
  induction line with
  | nil => rfl
  | cons c line ih =>
    rw [List.mem_cons, not_or] at oneLine
    rw [hang_cons (Ne.symm oneLine.1), ih oneLine.2]
    rintro -
    cases line with
    | nil => exact nofun
    | cons d line =>
      rintro ⟨⟩
      exact oneLine.2 List.mem_cons_self

/-- Without carriage returns, two spaces go behind each line feed. -/
theorem hang_eq {s : Text} (noReturn : '\r' ∉ s) : hang s = s.flatMap (Render.indentChar 2) := by
  induction s with
  | nil => rfl
  | cons c s ih =>
    rw [List.mem_cons, not_or] at noReturn
    rw [List.flatMap_cons, ← ih noReturn.2, Render.indentChar]
    split
    · next same =>
      rw [same, hang_newline]
      rfl
    · next notLine => exact hang_cons notLine fun same => absurd same.symm noReturn.1

/-- A line end hangs behind its line, which loses a carriage return. -/
theorem hang_line_end {line : Text} (oneLine : '\n' ∉ line) (more : Text) :
    hang (line ++ '\n' :: more) =
      Text.dropCarriageReturn line ++ '\n' :: ' ' :: ' ' :: hang more := by
  rcases List.eq_nil_or_concat line with rfl | ⟨front, last, rfl⟩
  · exact hang_newline more
  · rw [List.concat_eq_append] at oneLine ⊢
    have inFront : '\n' ∉ front := fun member => oneLine (List.mem_append_left _ member)
    rw [Text.dropCarriageReturn, List.reverse_append, List.reverse_singleton,
      List.singleton_append]
    split
    · next rest ends =>
      obtain ⟨rfl, rfl⟩ := List.cons.inj ends
      rw [List.append_assoc, hang_append (by simp), hang_line inFront, List.reverse_reverse]
      rfl
    · next notReturn =>
      have apart : last ≠ '\r' := fun same => notReturn _ (congrArg (· :: _) same)
      rw [hang_append (by simp [apart]), hang_line oneLine, hang_newline]

theorem flatMap_indentChar_zero (s : Text) : s.flatMap (Render.indentChar 0) = s := by
  have same : Render.indentChar 0 = fun c => [c] := by
    funext c
    rw [Render.indentChar]
    split
    · next isLine => rw [isLine]; rfl
    · rfl
  rw [same, List.flatMap_singleton']

theorem join_concat (last : Text) {pieces : List Text} (notEmpty : pieces ≠ []) :
    Text.join ['\n'] (pieces ++ [last]) = Text.join ['\n'] pieces ++ ['\n'] ++ last := by
  induction pieces with
  | nil => exact absurd rfl notEmpty
  | cons piece pieces ih =>
    cases pieces with
    | nil => rfl
    | cons other pieces =>
      rw [List.cons_append, Text.join_cons _ _ (by simp), ih (List.cons_ne_nil _ _),
        Text.join_cons _ _ (List.cons_ne_nil _ _)]
      simp only [List.append_assoc]

theorem hang_join (last : Text) {pieces : List Text}
    (oneLine : ∀ piece ∈ pieces ++ [last], '\n' ∉ piece) :
    Text.join ['\n'] ((pieces.map Text.dropCarriageReturn ++ [last]).map (' ' :: ' ' :: ·)) =
      ' ' :: ' ' :: hang (Text.join ['\n'] (pieces ++ [last])) := by
  induction pieces with
  | nil =>
    have lastLine := oneLine last (List.mem_singleton.mpr rfl)
    exact congrArg (' ' :: ' ' :: ·) (hang_line lastLine).symm
  | cons piece pieces ih =>
    obtain ⟨first, others⟩ := List.forall_mem_cons.mp oneLine
    rw [List.map_cons, List.cons_append, List.map_cons, List.cons_append,
      Text.join_cons _ _ (by simp), Text.join_cons _ _ (by simp), ih others]
    simp [hang_line_end first]

/-- Indentation goes before the first line, and the others hang. -/
theorem indentLines_eq {code : Text} (notEmpty : code ≠ []) (ends : code.getLast? ≠ some '\n') :
    indentLines code = ' ' :: ' ' :: hang code := by
  have oneLine := Text.not_mem_splitLines code
  have whole := Text.join_splitLines code
  rcases List.eq_nil_or_concat code.splitLines with none | ⟨pieces, last, found⟩
  · exact absurd none (Text.splitLines_ne_nil code)
  · rw [List.concat_eq_append] at found
    rw [found] at oneLine whole
    have lastShown : last ≠ [] := by
      rintro rfl
      cases pieces with
      | nil => exact notEmpty whole.symm
      | cons piece pieces =>
        rw [join_concat _ (List.cons_ne_nil _ _), List.append_nil] at whole
        exact ends (by rw [← whole, List.getLast?_concat])
    obtain ⟨c, rest, rfl⟩ := List.exists_cons_of_ne_nil lastShown
    have lines : code.lines = pieces.map Text.dropCarriageReturn ++ [c :: rest] := by
      simp [Text.lines, found]
    rw [indentLines, lines, hang_join _ oneLine, whole]

/-! ## Solid texts -/

/-- Text that white space neither begins nor ends. -/
structure Solid (s : Text) : Prop where
  begins : ∃ c, s.head? = some c ∧ isBlank c = false
  ends : ∃ c, s.getLast? = some c ∧ isBlank c = false

instance (s : Text) : Decidable (Solid s) :=
  decidable_of_iff (s.head?.any (!isBlank ·) ∧ s.getLast?.any (!isBlank ·)) (by
    simp only [Option.any_eq_true, Bool.not_eq_true']
    exact ⟨fun both => ⟨both.1, both.2⟩, fun solid => ⟨solid.begins, solid.ends⟩⟩)

namespace Solid

variable {s : Text}

theorem ne_nil (solid : Solid s) : s ≠ [] := by
  rintro rfl
  obtain ⟨c, begins, -⟩ := solid.begins
  cases begins

theorem ends_ne (solid : Solid s) {c : Char} (blank : isBlank c = true) : s.getLast? ≠ some c := by
  obtain ⟨last, ends, shown⟩ := solid.ends
  rw [ends]
  rintro ⟨⟩
  rw [blank] at shown
  cases shown

theorem begins_ne (solid : Solid s) {c : Char} (blank : isBlank c = true) : s.head? ≠ some c := by
  obtain ⟨first, begins, shown⟩ := solid.begins
  rw [begins]
  rintro ⟨⟩
  rw [blank] at shown
  cases shown

theorem hang (solid : Solid s) : Solid (hang s) := by
  refine ⟨?_, ?_⟩
  · obtain ⟨c, begins, shown⟩ := solid.begins
    obtain ⟨rest, rfl⟩ := List.head?_eq_some_iff.mp begins
    refine ⟨c, ?_, shown⟩
    rw [hang_cons]
    · rfl
    · rintro rfl
      cases shown
    · rintro rfl
      cases shown
  · obtain ⟨c, ends, shown⟩ := solid.ends
    obtain ⟨front, rfl⟩ := List.getLast?_eq_some_iff.mp ends
    have notLine : c ≠ '\n' := by
      rintro rfl
      cases shown
    refine ⟨c, ?_, shown⟩
    rw [hang_append (by simpa using fun _ => notLine), hang_cons notLine (by simp), hang,
      List.getLast?_concat]

end Solid

theorem hang_between {s : Text} (solid : Solid s) (front behind : Text) :
    hang (front ++ s ++ behind) = hang front ++ hang s ++ hang behind := by
  have begins : s.head? ≠ some '\n' := solid.begins_ne (by decide)
  have ends : (front ++ s).getLast? ≠ some '\r' := by
    obtain ⟨c, ends, -⟩ := solid.ends
    have notReturn : s.getLast? ≠ some '\r' := solid.ends_ne (by decide)
    rwa [List.getLast?_append, ends, Option.some_or, ← ends]
  rw [hang_append fun same => absurd same ends, hang_append fun _ => begins]

/-- A solid part hangs inside the text that hangs. -/
theorem infix_hang {part s : Text} (solid : Solid part) (inside : part <:+: s) :
    hang part <:+: hang s := by
  obtain ⟨front, behind, rfl⟩ := inside
  exact ⟨hang front, hang behind, (hang_between solid front behind).symm⟩

section

variable {front : Text} {opening closing : Char}

/-- What stands before a text on its first line and behind it on its last line stays. -/
theorem hang_frame (oneLine : '\n' ∉ front) (opens : opening ≠ '\n' ∧ opening ≠ '\r')
    (closes : closing ≠ '\n') (s : Text) :
    hang (front ++ opening :: s ++ [closing]) = front ++ opening :: hang s ++ [closing] := by
  have last : hang [closing] = [closing] := hang_line (by simpa using Ne.symm closes)
  rw [hang_append (by simp [closes]), hang_append (by simp [opens.1]), hang_line oneLine,
    hang_cons opens.1 fun same => absurd same opens.2, last]

/-- Hangs the lines of a text from a number of levels. -/
def hangBy : Nat → Text → Text
  | 0, s => s
  | level + 1, s => hang (hangBy level s)

theorem hangBy_hangBy (level more : Nat) (s : Text) :
    hangBy level (hangBy more s) = hangBy (level + more) s := by
  induction level with
  | zero => rw [Nat.zero_add, hangBy]
  | succ level ih => rw [Nat.succ_add, hangBy, hangBy, ih]

theorem hangBy_line {line : Text} (oneLine : '\n' ∉ line) (level : Nat) :
    hangBy level line = line := by
  induction level with
  | zero => rfl
  | succ level ih => rw [hangBy, ih, hang_line oneLine]

theorem hangBy_frame (oneLine : '\n' ∉ front) (opens : opening ≠ '\n' ∧ opening ≠ '\r')
    (closes : closing ≠ '\n') (level : Nat) (s : Text) :
    hangBy level (front ++ opening :: s ++ [closing]) =
      front ++ opening :: hangBy level s ++ [closing] := by
  induction level with
  | zero => rfl
  | succ level ih => rw [hangBy, ih, hang_frame oneLine opens closes, hangBy]

end

theorem Solid.hangBy {s : Text} (solid : Solid s) (level : Nat) : Solid (hangBy level s) := by
  induction level with
  | zero => exact solid
  | succ level ih => exact ih.hang

/-- Indented lines hang two columns further right for each level. -/
theorem hangBy_eq {s : Text} (noReturn : '\r' ∉ s) (level : Nat) :
    hangBy level s = s.flatMap (Render.indentChar (2 * level)) := by
  induction level with
  | zero =>
    rw [hangBy, Nat.mul_zero]
    exact (flatMap_indentChar_zero s).symm
  | succ level ih =>
    have noReturn : '\r' ∉ s.flatMap (Render.indentChar (2 * level)) := by
      intro member
      obtain ⟨c, isChar, member⟩ := List.mem_flatMap.mp member
      rw [Render.indentChar] at member
      split at member
      · simp [Text.spaces] at member
      · exact noReturn (List.mem_singleton.mp member ▸ isChar)
    rw [hangBy, ih, hang_eq noReturn, List.flatMap_assoc]
    simp only [Render.indentChar_indentChar, Nat.add_comm 2, Nat.mul_succ]

/-! ## Trimming -/

theorem not_blank_of_head_dropWhile {s : Text} {c : Char}
    (begins : (s.dropWhile isBlank).head? = some c) : isBlank c = false := by
  have stopped := List.head?_dropWhile_not isBlank s
  rw [begins] at stopped
  simpa using stopped

/-- White space neither begins nor ends what was trimmed. -/
theorem solid_trim {s : Text} (shown : s.trim ≠ []) : Solid s.trim := by
  have reversed : s.trim.reverse = (s.dropWhile isBlank).reverse.dropWhile isBlank := by
    rw [Text.trim, Text.trimWhile, Text.dropEndWhile, List.reverse_reverse]
  have isPrefix : s.trim <+: s.dropWhile isBlank := by
    rw [← List.reverse_suffix, reversed]
    exact List.dropWhile_suffix _
  refine ⟨?_, ?_⟩
  · obtain ⟨c, rest, same⟩ := List.exists_cons_of_ne_nil shown
    obtain ⟨behind, whole⟩ := isPrefix
    rw [same] at whole ⊢
    exact ⟨c, rfl, not_blank_of_head_dropWhile (by rw [← whole]; rfl)⟩
  · obtain ⟨c, rest, same⟩ := List.exists_cons_of_ne_nil (mt List.reverse_eq_nil_iff.mp shown)
    have ends : s.trim.getLast? = some c := by rw [← List.head?_reverse, same]; rfl
    refine ⟨c, ends, ?_⟩
    rw [reversed] at same
    exact not_blank_of_head_dropWhile (by rw [same]; rfl)

theorem trim_ends (s : Text) : s.trim.getLast? ≠ some '\n' := by
  cases shown : s.trim with
  | nil => exact nofun
  | cons c rest =>
    rw [← shown]
    exact (solid_trim (by rw [shown]; exact List.cons_ne_nil _ _)).ends_ne (by decide)

/-- Blanks around a solid text are what trimming drops. -/
theorem trim_between {front s behind : Text} (solid : Solid s) (blankFront : ∀ c ∈ front, isBlank c)
    (blankBehind : ∀ c ∈ behind, isBlank c) : (front ++ s ++ behind).trim = s := by
  obtain ⟨first, begins, firstShown⟩ := solid.begins
  obtain ⟨last, ends, lastShown⟩ := solid.ends
  obtain ⟨tail, rfl⟩ := List.head?_eq_some_iff.mp begins
  rw [Text.trim, Text.trimWhile, List.append_assoc, List.dropWhile_append_of_pos blankFront,
    List.cons_append, List.dropWhile_cons_of_neg (by simp [firstShown]), ← List.cons_append,
    Text.dropEndWhile, List.reverse_append,
    List.dropWhile_append_of_pos (by simpa using blankBehind)]
  rw [← List.head?_reverse] at ends
  obtain ⟨back, same⟩ := List.head?_eq_some_iff.mp ends
  rw [same, List.dropWhile_cons_of_neg (by simp [lastShown]), ← same, List.reverse_reverse]

theorem trim_solid {s : Text} (solid : Solid s) : s.trim = s := by
  have alone := trim_between solid (List.forall_mem_nil _) (List.forall_mem_nil _)
  rwa [List.nil_append, List.append_nil] at alone

/-- Trimming leaves a part of the text, with blanks on both sides. -/
theorem exists_trim (s : Text) : ∃ front behind, s = front ++ s.trim ++ behind ∧
    (∀ c ∈ front, isBlank c) ∧ ∀ c ∈ behind, isBlank c := by
  refine ⟨s.takeWhile isBlank, ((s.dropWhile isBlank).reverse.takeWhile isBlank).reverse, ?_,
    fun c member => List.all_eq_true.mp List.all_takeWhile c member,
    fun c member => List.all_eq_true.mp List.all_takeWhile c (List.mem_reverse.mp member)⟩
  rw [Text.trim, Text.trimWhile, Text.dropEndWhile, List.append_assoc, ← List.reverse_append,
    List.takeWhile_append_dropWhile, List.reverse_reverse, List.takeWhile_append_dropWhile]

theorem hang_blank {s : Text} (blank : ∀ c ∈ s, isBlank c) : ∀ c ∈ hang s, isBlank c := by
  have space : isBlank ' ' = true := by decide
  fun_induction hang s with
  | case1 => exact blank
  | case2 rest ih => simp_all
  | case3 rest ih => simp_all
  | case4 c rest _ _ ih => simp_all

theorem trim_blank {s : Text} (blank : ∀ c ∈ s, isBlank c) : s.trim = [] := by
  have dropped : s.dropWhile isBlank = [] := by
    rw [← List.append_nil s, List.dropWhile_append_of_pos blank, List.dropWhile_nil]
  rw [Text.trim, Text.trimWhile, dropped]
  rfl

/-- Blanks around a text make no difference to what is left of it. -/
theorem trim_around {front behind : Text} (blankFront : ∀ c ∈ front, isBlank c)
    (blankBehind : ∀ c ∈ behind, isBlank c) (s : Text) : (front ++ s ++ behind).trim = s.trim := by
  obtain ⟨before, after, whole, blankBefore, blankAfter⟩ := exists_trim s
  have blankStart : ∀ c ∈ front ++ before, isBlank c :=
    List.forall_mem_append.mpr ⟨blankFront, blankBefore⟩
  have blankEnd : ∀ c ∈ after ++ behind, isBlank c :=
    List.forall_mem_append.mpr ⟨blankAfter, blankBehind⟩
  by_cases shown : s.trim = []
  · rw [shown, List.append_nil] at whole
    rw [shown, whole]
    have blank : ∀ c ∈ before ++ after, isBlank c :=
      List.forall_mem_append.mpr ⟨blankBefore, blankAfter⟩
    have blankStart : ∀ c ∈ front ++ (before ++ after), isBlank c :=
      List.forall_mem_append.mpr ⟨blankFront, blank⟩
    exact trim_blank (List.forall_mem_append.mpr ⟨blankStart, blankBehind⟩)
  · have same : front ++ s ++ behind = front ++ before ++ s.trim ++ (after ++ behind) := by
      conv => lhs; rw [whole]
      simp only [List.append_assoc]
    rw [same, trim_between (solid_trim shown) blankStart blankEnd]

/-- A trimmed text hangs as the text hangs. -/
theorem trim_hang (s : Text) : (hang s).trim = hang s.trim := by
  obtain ⟨front, behind, whole, blankFront, blankBehind⟩ := exists_trim s
  by_cases shown : s.trim = []
  · rw [shown, List.append_nil] at whole
    have blank : ∀ c ∈ s, isBlank c := by
      rw [whole]
      exact List.forall_mem_append.mpr ⟨blankFront, blankBehind⟩
    rw [shown, trim_blank (hang_blank blank)]
    rfl
  · have solid := solid_trim shown
    have hung : hang s = hang front ++ hang s.trim ++ hang behind := by
      conv => lhs; rw [whole, hang_between solid]
    rw [hung, trim_between solid.hang (hang_blank blankFront) (hang_blank blankBehind)]

end ComponentMarkdown.Factory
