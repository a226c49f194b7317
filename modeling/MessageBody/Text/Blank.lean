/-! # Blank characters

    Three classes of blank character are in use.  Markup counts five ASCII
    characters as blank (`isMarkupBlank`); the compression of markup source
    adds the vertical tab (`isSourceBlank`); values that people type are
    trimmed of every Unicode space (`isBlank`).  The no-break space is blank
    in the last sense only. -/

namespace MessageBody.Text

/-- Space, tab, line feed, form feed and carriage return: the characters markup
    treats as white space between elements. -/
def isMarkupBlank (c : Char) : Bool :=
  c == ' ' || c == '\t' || c == '\n' || c == '\x0c' || c == '\r'

/-- The ASCII white space of markup source: `isMarkupBlank` and the vertical
    tab. -/
def isSourceBlank (c : Char) : Bool :=
  isMarkupBlank c || c == '\x0b'

/-- Every Unicode white-space character, the four ASCII separators U+001C to
    U+001F among them.  The zero-width space is not one. -/
def isBlank (c : Char) : Bool :=
  let n := c.toNat
  (9 ≤ n && n ≤ 13) || (28 ≤ n && n ≤ 32) || n == 0x85 || n == 0xA0 ||
    n == 0x1680 || (0x2000 ≤ n && n ≤ 0x200A) || n == 0x2028 || n == 0x2029 ||
    n == 0x202F || n == 0x205F || n == 0x3000

/-- `s` without the characters of class `p` it begins with. -/
def trimStart (p : Char → Bool) (s : List Char) : List Char :=
  s.dropWhile p

/-- `s` without the characters of class `p` it ends with. -/
def trimEnd (p : Char → Bool) (s : List Char) : List Char :=
  (s.reverse.dropWhile p).reverse

/-- `s` without the characters of class `p` at either end. -/
def trim (p : Char → Bool) (s : List Char) : List Char :=
  trimEnd p (trimStart p s)

@[simp] theorem trimStart_nil (p : Char → Bool) : trimStart p [] = [] := rfl

@[simp] theorem trimEnd_nil (p : Char → Bool) : trimEnd p [] = [] := rfl

@[simp] theorem trim_nil (p : Char → Bool) : trim p [] = [] := rfl

/-- Some character of `s` is outside class `p`. -/
def hasOther (p : Char → Bool) (s : List Char) : Bool :=
  s.any fun c => !p c

end MessageBody.Text
