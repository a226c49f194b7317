/-! # Geometry

    Rectangles and places on the screen; x grows to the right and y downwards.
    The coordinates can be of any type that the operations at hand allow. -/

namespace MessageBody

/-- A rectangle with sides along the axes. -/
structure Rect (α : Type) where
  left : α
  top : α
  right : α
  bottom : α

namespace Rect

variable {α : Type}

/-- The extent from left to right. -/
def width [Sub α] (r : Rect α) : α := r.right - r.left

/-- The extent from top to bottom. -/
def height [Sub α] (r : Rect α) : α := r.bottom - r.top

/-- The rectangle with its sides moved outwards. -/
def inflate [Add α] [Sub α] (r : Rect α) (horizontal vertical : α) : Rect α :=
  ⟨r.left - horizontal, r.top - vertical, r.right + horizontal, r.bottom + vertical⟩

end Rect

/-- The direction in which the text of a line runs. -/
inductive Direction where
  | leftToRight
  | rightToLeft
  deriving DecidableEq

/-- The short name of the direction. -/
def Direction.name : Direction → String
  | .leftToRight => "ltr"
  | .rightToLeft => "rtl"

/-- Where a part of a text is on the screen. -/
structure Position (α : Type) where
  /-- The bounds of the part. -/
  rect : Rect α
  /-- The positions in the text where the part starts and ends. -/
  start : Int
  stop : Int
  direction : Direction
  /-- The line of a part that lies on one line. -/
  line? : Option Nat

end MessageBody
