import ComponentMarkdown.Inline.Cursor

/-!
# Code spans

A code span stands between two runs of equally many backticks. A run without a partner is text.
-/

namespace ComponentMarkdown

/-- The text up to the next run of exactly `count` backticks. -/
def untilTicks? (count : Nat) : Nat → Text → Option Text
  | 0, _ => none
  | _ + 1, [] => none
  | fuel + 1, c :: rest =>
    if c == '\x60' then
      let run := Text.runLength '\x60' (c :: rest)
      if run == count then some []
      else (untilTicks? count fuel ((c :: rest).drop run)).map (List.replicate run '\x60' ++ ·)
    else (untilTicks? count fuel rest).map (c :: ·)

/-- Line ends become spaces, and one space goes at either end if there is other content. -/
def spanText (raw : Text) : Text :=
  let content := raw.replaceChar '\n' ' '
  let padded := content.length > 2 && content.head? == some ' ' && content.getLast? == some ' '
  if padded && content.any (· != ' ') then (content.drop 1).dropLast else content

/-- A code span, or a run of backticks that begins none. -/
def codeSpan? (s : Text) : Option Construct :=
  let count := Text.runLength '\x60' s
  if count == 0 then none
  else
    let ticks := List.replicate count '\x60'
    let inner := s.drop count
    match untilTicks? count (inner.length + 1) inner with
    | some raw =>
      some (.leaf (count + raw.length + count) (.code ticks (spanText raw)))
    | none => some (.leaf count (.literal ticks))

end ComponentMarkdown
