import MessageBody.Text.Hex
import MessageBody.Text.Printable

/-! # Quoted text in messages

    A text is quoted in an error message so that every character of it can be
    told: single quotes around it, or double quotes when it holds a single quote
    and no double one; the backslash, the quote and what is not printable are
    escaped. -/

namespace MessageBody.Text

/-- The quotation mark that goes around `s`. -/
def quoteMark (s : List Char) : Char :=
  if s.contains '\x27' && !s.contains '\x22' then '\x22' else '\x27'

/-- How the character `c` is written between the quotation marks `mark`. -/
def quotedChar (mark c : Char) : List Char :=
  if c == mark || c == '\\' then ['\\', c]
  else if c == '\n' then ['\\', 'n']
  else if c == '\r' then ['\\', 'r']
  else if c == '\t' then ['\\', 't']
  else if isPrintable c then [c]
  else if c.toNat < 0x100 then '\\' :: 'x' :: hexDigits 2 c.toNat
  else if c.toNat < 0x10000 then '\\' :: 'u' :: hexDigits 4 c.toNat
  else '\\' :: 'U' :: hexDigits 8 c.toNat

/-- The text `s` between quotation marks. -/
def quoted (s : List Char) : List Char :=
  let mark := quoteMark s
  mark :: s.flatMap (quotedChar mark) ++ [mark]

/-- The text `s` between quotation marks. -/
def quote (s : String) : String :=
  String.ofList (quoted s.toList)

end MessageBody.Text
