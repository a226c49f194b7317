import MessageBody.Text.Blank

/-! # Spacing of running text

    Outside preformatted blocks a run of blanks shows as one space, and two
    characters that have no width of their own vanish: the zero-width space and
    the soft hyphen.  They vanish first, so blanks on either side of one belong
    to a single run. -/

namespace MessageBody.Text

/-- The zero-width space and the soft hyphen, which are not shown. -/
def isInvisible (c : Char) : Bool :=
  c == '\u200b' || c == '\u00ad'

/-- The blanks that show as a space in running text: those of markup and the
    no-break space. -/
def isTextBlank (c : Char) : Bool :=
  isMarkupBlank c || c == '\u00a0'

/-- Each run of characters of class `p` replaced by one space; `inRun` tells
    whether the character before belongs to such a run. -/
def squeeze (p : Char → Bool) : Bool → List Char → List Char
  | _, [] => []
  | inRun, c :: cs =>
      if p c then
        if inRun then squeeze p true cs else ' ' :: squeeze p true cs
      else c :: squeeze p false cs

/-- The text as it is shown: invisible characters removed, then each run of
    blanks replaced by one space. -/
def shown (s : List Char) : List Char :=
  squeeze isTextBlank false (s.filter fun c => !isInvisible c)

@[simp] theorem squeeze_nil (p : Char → Bool) (inRun : Bool) : squeeze p inRun [] = [] := rfl

theorem squeeze_cons (p : Char → Bool) (inRun : Bool) (c : Char) (cs : List Char) :
    squeeze p inRun (c :: cs)
      = if p c then
          if inRun then squeeze p true cs else ' ' :: squeeze p true cs
        else c :: squeeze p false cs := rfl

/-- A character outside the class is kept and ends the run. -/
theorem squeeze_cons_other {p : Char → Bool} {c : Char} (h : p c = false) (inRun : Bool)
    (cs : List Char) : squeeze p inRun (c :: cs) = c :: squeeze p false cs := by
  simp [squeeze_cons, h]

@[simp] theorem shown_nil : shown [] = [] := rfl

end MessageBody.Text
