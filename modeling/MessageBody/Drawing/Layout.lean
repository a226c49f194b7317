import MessageBody.Drawing.Geometry
import MessageBody.Order.Extremum

/-! # Laid-out text

    A layout tells where the characters and lines of a text are.  A question that
    it cannot answer leaves out the line that the question is about; the bounding
    box of a whole block needs every answer. -/

namespace MessageBody

/-- What is known about a text that has been laid out. -/
structure TextLayout (α : Type) where
  /-- The line that holds a position of the text. -/
  lineOf? : Int → Option Nat
  /-- The position where a line starts. -/
  lineStart? : Nat → Option Int
  /-- The position where a line ends. -/
  lineEnd? : Nat → Option Int
  /-- The bounds of the character at a position. -/
  box? : Int → Option (Rect α)
  top? : Nat → Option α
  bottom? : Nat → Option α
  left? : Nat → Option α
  right? : Nat → Option α
  /-- The direction of the text at a position. -/
  direction? : Int → Option Direction

namespace TextLayout

variable {α : Type}

/-- The positions from `start` up to `stop`. -/
def offsets (start stop : Int) : List Int :=
  (List.range (stop - start).toNat).map fun (i : Nat) => start + i

/-- The lines from `first` to `last`. -/
def lines (first last : Nat) : List Nat :=
  (List.range (last + 1 - first)).map fun i => first + i

variable [LT α] [DecidableLT α]

/-- The rectangle of characters in a row.  Which of the first and the last is
    leftmost depends on the direction of the text. -/
def rowRect (first : Rect α) (others : List (Rect α)) : Rect α :=
  let last := others.getLast?.getD first
  { left := Order.lesser first.left last.left
    top := Order.least first.top (others.map Rect.top)
    right := Order.greater first.right last.right
    bottom := Order.greatest first.bottom (others.map Rect.bottom) }

/-- The place of the characters from `start` to `stop` that are on `line`, the
    lines of the range being those from `first` to `last`. -/
def linePosition? (layout : TextLayout α) (start stop : Int) (first last line : Nat) :
    Option (Position α) := do
  let low ← if line = first then some start else layout.lineStart? line
  let high ← if line = last then some stop else layout.lineEnd? line
  match (offsets low high).filterMap layout.box? with
  | [] => none
  | box :: boxes =>
      let direction ← layout.direction? low
      some ⟨rowRect box boxes, low, high, direction, some line⟩

/-- The places of the characters from `start` to `stop`, one for each line. -/
def linePositions (layout : TextLayout α) (start stop : Int) : List (Position α) :=
  match layout.lineOf? start, layout.lineOf? stop with
  | some first, some last =>
      (lines first last).filterMap (layout.linePosition? start stop first last)
  | _, _ => []

/-- The last line of a block: a block that ends where a line starts does not
    extend onto that line. -/
def lastLine? (layout : TextLayout α) (stop : Int) (first last : Nat) : Option Nat :=
  if first < last then
    (layout.lineStart? last).map fun start => if start = stop then last - 1 else last
  else some last

/-- The least of the answers for several lines, if every one is answered. -/
def extremum? (pick : α → List α → α) (answer : Nat → Option α) (ls : List Nat) : Option α :=
  match ls.mapM answer with
  | some (x :: xs) => some (pick x xs)
  | _ => none

/-- The place of the full lines that hold the text from `start` to `stop`. -/
def blockPosition? (layout : TextLayout α) (start stop : Int) : Option (Position α) := do
  let first ← layout.lineOf? start
  let last ← layout.lineOf? stop
  let last ← layout.lastLine? stop first last
  let left ← extremum? Order.least layout.left? (lines first last)
  let top ← layout.top? first
  let right ← extremum? Order.greatest layout.right? (lines first last)
  let bottom ← layout.bottom? last
  let direction ← layout.direction? start
  some ⟨⟨left, top, right, bottom⟩, start, stop, direction, none⟩

end TextLayout

end MessageBody
