import MessageBody.Annotated.Builder
import MessageBody.Image

/-! # Fragments of a rendering

    Rendering a piece of content gives a fragment: annotated text, the images in
    it, and the positions that identify what can be revealed.  Fragments are put
    together by `++`.  Where a fragment will stand is told beforehand by a
    cursor, which keeps only what rendering asks of the text before. -/

namespace MessageBody

/-- What rendering a piece of content gives. -/
structure Fragment where
  text : AnnotatedText
  /-- The images by their keys, in document order. -/
  images : List (String × ImageInfo)
  /-- The positions in the document that identify spoilers and details, in
      document order. -/
  reveals : List Nat

namespace Fragment

/-- Nothing. -/
def empty : Fragment := ⟨.empty, [], []⟩

/-- Text alone. -/
def ofText (text : AnnotatedText) : Fragment := ⟨text, [], []⟩

/-- Characters alone. -/
def ofChars (s : List Char) : Fragment := ofText (.plain s)

/-- The second fragment after the first. -/
protected def append (f g : Fragment) : Fragment :=
  ⟨f.text ++ g.text, f.images ++ g.images, f.reveals ++ g.reveals⟩

instance : Append Fragment := ⟨Fragment.append⟩

/-- The fragment with `item` attached to all of its text. -/
def marked (item : Item) (f : Fragment) : Fragment :=
  { f with text := f.text.marked item }

@[simp] theorem text_append (f g : Fragment) : (f ++ g).text = f.text ++ g.text := rfl

@[simp] theorem images_append (f g : Fragment) : (f ++ g).images = f.images ++ g.images := rfl

@[simp] theorem reveals_append (f g : Fragment) : (f ++ g).reveals = f.reveals ++ g.reveals := rfl

@[simp] theorem text_marked (item : Item) (f : Fragment) :
    (f.marked item).text = f.text.marked item := rfl

@[simp] theorem images_marked (item : Item) (f : Fragment) : (f.marked item).images = f.images :=
  rfl

@[simp] theorem reveals_marked (item : Item) (f : Fragment) :
    (f.marked item).reveals = f.reveals := rfl

@[simp] protected theorem empty_append (f : Fragment) : empty ++ f = f := by
  show Fragment.append empty f = f
  rw [Fragment.append, empty, AnnotatedText.empty_append]
  rfl

@[simp] protected theorem append_empty (f : Fragment) : f ++ empty = f := by
  show Fragment.append f empty = f
  rw [Fragment.append, empty, AnnotatedText.append_empty, List.append_nil, List.append_nil]

protected theorem append_assoc (f g h : Fragment) : f ++ g ++ h = f ++ (g ++ h) := by
  show Fragment.append (Fragment.append f g) h = Fragment.append f (Fragment.append g h)
  simp only [Fragment.append, AnnotatedText.append_assoc, List.append_assoc]

end Fragment

/-- Whether a paragraph style ends where the text ends. -/
def AnnotatedText.endsParagraph (t : AnnotatedText) : Bool :=
  t.ranges.any fun r => r.item.isParagraph && r.stop == t.length

/-- The end of a text under construction. -/
structure Cursor where
  /-- Where the text under construction begins in the document. -/
  base : Nat
  /-- Its length so far. -/
  length : Nat
  /-- Its last character. -/
  last : Option Char
  /-- Whether a paragraph style ends at its end. -/
  paragraphEnded : Bool
  deriving DecidableEq

namespace Cursor

/-- The start of a text that begins at `base` in the document. -/
def startAt (base : Nat) : Cursor := ⟨base, 0, none, false⟩

/-- The position in the document. -/
def offset (c : Cursor) : Nat := c.base + c.length

/-- The start of a text of its own that will be put in here. -/
def fork (c : Cursor) : Cursor := startAt c.offset

/-- The end after `t` is appended. -/
def advance (c : Cursor) (t : AnnotatedText) : Cursor where
  base := c.base
  length := c.length + t.length
  last := t.text.getLast?.or c.last
  paragraphEnded := t.endsParagraph || (t.text.isEmpty && c.paragraphEnded)

/-- Whether a line break is needed before text on a line of its own: there is
    text, and it ends neither a line nor a paragraph. -/
def needsBreak (c : Cursor) : Bool :=
  !c.paragraphEnded && c.length != 0 && c.last != some '\n'

/-- The position in the document moves by the length of the text. -/
@[simp] theorem offset_advance (c : Cursor) (t : AnnotatedText) :
    (c.advance t).offset = c.offset + t.length := by
  simp [offset, advance, Nat.add_assoc]

/-- The cursor stays where it is when nothing is appended. -/
@[simp] theorem advance_empty (c : Cursor) : c.advance .empty = c := by
  cases c
  simp [advance, AnnotatedText.endsParagraph, show AnnotatedText.empty.ranges = [] from rfl]

@[simp] theorem offset_fork (c : Cursor) : c.fork.offset = c.offset := rfl

end Cursor

/-- A line break, with its label in front of it where line breaks are made
    visible. -/
def lineBreak (labelled : Bool) (label : String) : List Char :=
  if labelled then '[' :: label.toList ++ [']', '\n'] else ['\n']

end MessageBody
