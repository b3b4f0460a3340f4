import ComponentMarkdown.Options
import ComponentMarkdown.Text.Printable

/-!
# Descriptions of options

One line that shows all options, for messages to developers.
-/

namespace ComponentMarkdown

/-- A character between quotes; what does not print by itself is written by its number. -/
def describeChar (c : Char) : Text :=
  match c with
  | '"' => ['\\', '"']
  | '\\' => ['\\', '\\']
  | '\n' => ['\\', 'n']
  | '\r' => ['\\', 'r']
  | '\t' => ['\\', 't']
  | '\x00' => ['\\', '0']
  | c =>
    if isPrintable c then [c]
    else ['\\', 'u', '\x7b'] ++ Nat.toDigits 16 c.toNat ++ ['\x7d']

/-- A text between quotes. -/
def describeText (s : Text) : Text :=
  '"' :: s.flatMap describeChar ++ ['"']

/-- One line with all options; of a highlighter only that there is one. -/
def Options.describe (options : Options) : Text :=
  "Options \x7b highlight: ".toList ++
    (if options.highlight.isSome then "Some(\"<fn>\")" else "None").toList ++
    ", lang_prefix: ".toList ++ describeText options.langPrefix ++
    ", breaks: ".toList ++ (if options.breaks then "true" else "false").toList ++
    ", initial_indent: ".toList ++ Text.ofNat options.initialIndent ++
    ", max_nesting: ".toList ++ Text.ofNat options.maxNesting ++ " \x7d".toList

end ComponentMarkdown
