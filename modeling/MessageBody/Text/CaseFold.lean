/-! # Letters regardless of case

    Two ways to compare ASCII letters without regard to case.  `folded` is the
    wider one: it also takes the long s, the Kelvin sign and the dotted and
    dotless i for the letters they look like.  `lowered` leaves the long s and
    the dotless i alone, which are lower-case letters of their own. -/

namespace MessageBody.Text

/-- An ASCII letter. -/
def isAsciiLetter (c : Char) : Bool :=
  ('a' ≤ c && c ≤ 'z') || ('A' ≤ c && c ≤ 'Z')

/-- The lower-case form of an ASCII letter, any other character itself. -/
def asciiLower (c : Char) : Char :=
  if 'A' ≤ c ∧ c ≤ 'Z' then Char.ofNat (c.toNat + 32) else c

/-- The lower-case form of a character as far as it is an ASCII letter. -/
def lowered (c : Char) : Char :=
  if c = '\u0130' then 'i'
  else if c = '\u212a' then 'k'
  else asciiLower c

/-- The ASCII letter that `c` counts as, in lower case. -/
def folded (c : Char) : Char :=
  if c = '\u0131' then 'i'
  else if c = '\u017f' then 's'
  else lowered c

/-- The rest of `s` when it begins with `word`, a lower-case word, regardless of
    case. -/
def afterWord? (word s : List Char) : Option (List Char) :=
  if (s.take word.length).map folded = word then some (s.drop word.length) else none

example : folded 'Q' = 'q' := by decide

example : afterWord? "http".toList "HtTp:".toList = some [':'] := by decide

end MessageBody.Text
