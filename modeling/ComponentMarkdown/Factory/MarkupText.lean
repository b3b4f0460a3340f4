import ComponentMarkdown.Text.Reference

/-!
# Text inside markup

White space around line ends is layout, not content: in the body of an element it joins the lines
with single spaces, in an attribute it becomes one space.
-/

namespace ComponentMarkdown.Factory

/-- Does the line hold more than spaces and tabs? -/
def hasContent (line : Text) : Bool :=
  line.any fun c => !isSpaceOrTab c

/-- A line with tabs as spaces and without the spaces that border on another line. -/
def trimLine (isFirst isLast : Bool) (line : Text) : Text :=
  let spaced := line.replaceChar '\t' ' '
  let fromStart := if isFirst then spaced else spaced.dropWhile (· == ' ')
  if isLast then fromStart else fromStart.dropEndWhile (· == ' ')

/-- Writes trimmed lines one after the other; a space follows those that are not the last one with
content. -/
def layLines (isFirst : Bool) : List Text → Text
  | [] => []
  | line :: later =>
    let trimmed := trimLine isFirst later.isEmpty line
    if trimmed.isEmpty then layLines false later
    else trimmed ++ (if later.any hasContent then [' '] else []) ++ layLines false later

/-- The content of raw text in the body of an element, unless it is layout only. -/
def visibleText (raw : Text) : Option Text :=
  let text := layLines true (Reference.decodeAll raw).splitLines
  if text.isEmpty then none else some text

/-- Replaces each line end and the white space behind it, if there is any, by one space. `skipping`
says that such white space is being read. -/
def joinLines (skipping : Bool) : Text → Text
  | [] => []
  | c :: rest =>
    if skipping && isBlank c then joinLines true rest
    else if c == '\n' && (rest.head?.any isBlank) then ' ' :: joinLines true rest
    else c :: joinLines false rest

/-- The content of an attribute string. -/
def attributeText (raw : Text) : Text :=
  joinLines false (Reference.decodeAll raw)

end ComponentMarkdown.Factory
