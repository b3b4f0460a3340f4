import ComponentMarkdown.Inline.Cursor

/-!
# Autolinks

An absolute address or a mail address between angle brackets.
-/

namespace ComponentMarkdown

/-- The characters of a scheme behind its first letter. -/
def isSchemeChar (c : Char) : Bool :=
  c.isAlphanum || c == '+' || c == '.' || c == '-'

/-- Neither a control, nor a space, nor an angle bracket. -/
def isAddressChar (c : Char) : Bool :=
  c.toNat > 0x20 && c != '<' && c != '>'

/-- The address behind `<`, if it begins with a scheme and `>` follows it. -/
def address? (s : Text) : Option Text :=
  match s with
  | c :: rest =>
    let scheme := rest.takeWhile isSchemeChar
    let path := rest.dropWhile isSchemeChar
    if c.isAlpha && 1 ≤ scheme.length && scheme.length ≤ 31 && path.head? == some ':' then
      let tail := path.takeWhile isAddressChar
      if (path.dropWhile isAddressChar).head? == some '>' then some (c :: scheme ++ tail)
      else none
    else none
  | [] => none

/-- The characters before the `@` of a mail address. -/
def isMailboxChar (c : Char) : Bool :=
  c.isAlphanum || ".!#$%&'*+/=?^_\x60\x7b|\x7d~-".toList.contains c

/-- A part of a domain: letters, digits and inner dashes, 63 characters at most. -/
def isDomainLabel (label : Text) : Bool :=
  label.length ≤ 63 && label.head?.any Char.isAlphanum && label.getLast?.any Char.isAlphanum &&
    label.all fun c => c.isAlphanum || c == '-'

/-- The mail address behind `<`, if `>` follows it. -/
def mailAddress? (s : Text) : Option Text :=
  let mailbox := s.takeWhile isMailboxChar
  match s.dropWhile isMailboxChar with
  | '@' :: rest =>
    let domain := rest.takeWhile (· != '>')
    if !mailbox.isEmpty && domain.length < rest.length &&
        (Text.splitWhere (· == '.') domain).all isDomainLabel then
      some (mailbox ++ '@' :: domain)
    else none
  | _ => none

/-- An autolink. -/
def autolink? : Text → Option Construct
  | '<' :: rest =>
    match address? rest with
    | some address => some (.leaf (address.length + 2) (.autolink address address))
    | none =>
      match mailAddress? rest with
      | some address =>
        some (.leaf (address.length + 2) (.autolink address ("mailto:".toList ++ address)))
      | none => none
  | _ => none

end ComponentMarkdown
