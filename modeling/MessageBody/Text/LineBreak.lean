/-! # Line breaks -/

namespace MessageBody.Text

/-- `s` with every kind of line break written as a line feed. -/
def unifyLineBreaks : List Char → List Char
  | [] => []
  | '\r' :: '\n' :: cs => '\n' :: unifyLineBreaks cs
  | '\r' :: cs => '\n' :: unifyLineBreaks cs
  | c :: cs => c :: unifyLineBreaks cs

/-- `s` with every line break of two characters written as a line feed.  A
    carriage return that no line feed follows stays. -/
def shortenLineBreaks : List Char → List Char
  | [] => []
  | '\r' :: '\n' :: cs => '\n' :: shortenLineBreaks cs
  | c :: cs => c :: shortenLineBreaks cs

end MessageBody.Text
