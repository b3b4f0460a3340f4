import ComponentMarkdown.Inline.Cursor

/-!
# Windows

A cursor in a window from `pos` to `stop` of a text stays one when it moves on, and so does a window
cut out of it. Where a parse stands can therefore be given by two positions in one text.
-/

namespace ComponentMarkdown.Cursor

variable {source : Text} {pos stop : Nat}

@[simp] theorem inside_pos : (inside source pos stop).pos = pos := rfl

@[simp] theorem advance_pos {c : Cursor} {n : Nat} : (c.advance n).pos = c.pos + n := rfl

/-- A window holds as many characters as lie between its ends. -/
theorem length_inside (inText : stop ≤ source.length) :
    (inside source pos stop).rest.length = stop - pos := by
  simp [inside, Nat.min_eq_left inText]

theorem stop_inside (inText : stop ≤ source.length) (ordered : pos ≤ stop) :
    (inside source pos stop).stop = stop := by
  rw [Cursor.stop, length_inside inText, inside_pos]
  omega

theorem inside_rest_ne_nil (inText : stop ≤ source.length) (inWindow : pos < stop) :
    (inside source pos stop).rest ≠ [] := by
  rw [← List.length_pos_iff, length_inside inText]
  exact Nat.sub_pos_of_lt inWindow

/-- The window of a whole text. -/
theorem inside_whole (source : Text) : inside source 0 source.length = start source := by
  rw [inside, List.take_length]
  rfl

theorem inside_rest_eq_nil (ended : stop ≤ pos) : (inside source pos stop).rest = [] := by
  rw [inside, List.drop_eq_nil_iff]
  exact Nat.le_trans (List.length_take_le _ _) ended

/-- What lies between two places of a text, taken from the text or from a window around them. -/
theorem take_drop_take {n : Nat} (fits : pos + n ≤ stop) :
    ((source.take stop).drop pos).take n = (source.drop pos).take n := by
  rw [List.drop_take, List.take_take, Nat.min_eq_left (by omega)]

/-- The character before a later place is the last one on the way there, or else the character
before the place where the way begins. -/
theorem getLast?_take_add {n : Nat} :
    ((source.drop pos).take n).getLast?.or (source.take pos).getLast? =
      (source.take (pos + n)).getLast? := by
  rw [List.take_add, List.getLast?_append]

theorem advance_inside {n : Nat} (fits : pos + n ≤ stop) :
    (inside source pos stop).advance n = inside source (pos + n) stop := by
  simp only [advance, inside, Cursor.mk.injEq, List.drop_drop, true_and, and_true]
  rw [take_drop_take fits, getLast?_take_add]

theorem moveTo_inside {next : Nat} (forward : pos ≤ next) (inWindow : next ≤ stop) :
    (inside source pos stop).moveTo next = inside source next stop := by
  rw [moveTo, inside_pos, advance_inside (by omega)]
  congr 1
  omega

theorem window_inside {skip length : Nat} (fits : pos + skip + length ≤ stop) :
    (inside source pos stop).window skip length =
      inside source (pos + skip) (pos + skip + length) := by
  have moved : (inside source pos stop).advance skip = inside source (pos + skip) stop :=
    advance_inside (by omega)
  simp only [window, moved]
  simp only [inside, Cursor.mk.injEq, true_and]
  rw [take_drop_take fits, List.drop_take]
  congr 1
  omega

end ComponentMarkdown.Cursor
