import BoxSearch.Text.Printable

/-!
Quoted texts, as values are shown inside messages.

A text stands between single quotes, or between double quotes when it holds a single quote and no
double one. Backslashes, the surrounding quote and every character that is not printable are
escaped, so a quoted text fits on one line.
-/

namespace BoxSearch.Text

private def hexDigits (width n : Nat) : String :=
  let digits := Nat.toDigits 16 n
  String.ofList (List.replicate (width - digits.length) '0' ++ digits)

/-- How one character is written between the quotes `mark`. -/
def quotedChar (mark c : Char) : String :=
  if c == mark || c == '\\' then "\\" ++ String.singleton c
  else if c == '\n' then "\\n"
  else if c == '\r' then "\\r"
  else if c == '\t' then "\\t"
  else if isPrintable c then String.singleton c
  else if c.toNat < 0x100 then "\\x" ++ hexDigits 2 c.toNat
  else if c.toNat < 0x10000 then "\\u" ++ hexDigits 4 c.toNat
  else "\\U" ++ hexDigits 8 c.toNat

/-- The quotes a text is written between. -/
def quoteMark (s : String) : Char :=
  if s.toList.contains '\'' && !s.toList.contains '"' then '"' else '\''

/-- The text between quotes, with escapes where they are needed. -/
def quoted (s : String) : String :=
  let mark := quoteMark s
  String.singleton mark ++ String.join (s.toList.map (quotedChar mark)) ++ String.singleton mark

end BoxSearch.Text
