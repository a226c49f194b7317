import MessageBody.Annotated.Text

/-! # Building annotated text step by step

    A builder takes text and ranges in any order.  A range may be opened and
    closed later: it keeps the place among the ranges where it was opened, and
    ends where the text ends when it is closed.  The length, the last character
    and the ends of paragraphs are kept beside the text, so that asking for them
    does not depend on how much text there is. -/

namespace MessageBody

/-- The place of a range in a builder. -/
inductive Slot where
  /-- A range that is complete. -/
  | done (range : Range)
  /-- A range that is still open. -/
  | pending (item : Item) (start : Nat)

namespace Slot

/-- The range of a slot that is complete. -/
def range? : Slot → Option Range
  | .done range => some range
  | .pending _ _ => none

end Slot

/-- Whether an item is the style of a paragraph. -/
def Item.isParagraph (item : Item) : Bool :=
  item.kind? == some .paragraph

/-- An annotated text under construction. -/
structure Builder where
  /-- The appended texts, the last one first. -/
  chunks : List (List Char)
  length : Nat
  /-- The last character. -/
  last : Option Char
  /-- The places of the ranges, the last one first. -/
  slots : List Slot
  /-- Where paragraph styles end. -/
  paragraphEnds : List Nat

namespace Builder

/-- Nothing appended yet. -/
def empty : Builder := ⟨[], 0, none, [], []⟩

/-- Whether the text so far ends in exactly this one character; the empty text
    ends in the empty text. -/
def endsWith (b : Builder) (s : List Char) : Bool :=
  b.last.toList == s

/-- Whether a paragraph style ends where the text ends. -/
def paragraphEnded (b : Builder) : Bool :=
  b.paragraphEnds.contains b.length

/-- The builder with a complete range added. -/
def addRange (b : Builder) (r : Range) : Builder :=
  { b with
    slots := .done r :: b.slots
    paragraphEnds := if r.item.isParagraph then r.stop :: b.paragraphEnds else b.paragraphEnds }

/-- The builder with text appended. -/
def appendText (b : Builder) (s : List Char) : Builder :=
  if s.isEmpty then b
  else { b with chunks := s :: b.chunks, length := b.length + s.length, last := s.getLast? }

/-- The builder with an annotated text appended. -/
def append (b : Builder) (t : AnnotatedText) : Builder :=
  (t.ranges.foldl (fun b' r => b'.addRange (r.shift b.length)) b).appendText t.text

/-- The builder with a range opened at the end of the text. -/
def start (b : Builder) (item : Item) : Builder :=
  { b with slots := .pending item b.length :: b.slots }

/-- The slots with the last opened range closed at `stop`, and its item; nothing
    when none is open. -/
def closeSlot? (stop : Nat) : List Slot → Option (Item × List Slot)
  | [] => none
  | .pending item start :: slots => some (item, .done ⟨item, start, stop⟩ :: slots)
  | .done r :: slots =>
      (closeSlot? stop slots).map fun (item, slots) => (item, .done r :: slots)

/-- The builder with the last opened range closed, nothing when none is open. -/
def finish? (b : Builder) : Option Builder :=
  (closeSlot? b.length b.slots).map fun (item, slots) =>
    { b with
      slots := slots
      paragraphEnds := if item.isParagraph then b.length :: b.paragraphEnds else b.paragraphEnds }

/-- The text so far. -/
def text (b : Builder) : List Char :=
  b.chunks.reverse.flatten

/-- The complete ranges, in the order in which they were opened. -/
def ranges (b : Builder) : List Range :=
  b.slots.reverse.filterMap Slot.range?

/-- What has been built so far; ranges that are still open are left out. -/
def snapshot (b : Builder) : Except RangeError AnnotatedText :=
  AnnotatedText.make b.text b.ranges

end Builder

end MessageBody
