import MessageBody.Annotated.Color
import MessageBody.Drawing.Geometry
import MessageBody.IdSet
import MessageBody.Link.Payload

/-! # Drawing

    Some constructs are painted rather than styled: the pill behind a mention,
    the bar beside a quote, the cover over a spoiler, the triangle in front of a
    summary.  A drawer turns the payload of a construct and its place into
    commands for the screen. -/

namespace MessageBody

/-- Something to paint. -/
inductive Command where
  | roundRect (rect : Rect Float) (color : Int) (radius : Float)
  | filledRect (rect : Rect Float) (color : Int)
  /-- A closed polygon. -/
  | filledPath (points : List (Float × Float)) (color : Int)

/-- What a drawer is told about a construct. -/
inductive Decoration where
  | nothing
  /-- A depth, or an id. -/
  | number (n : Int)
  | link (link : DeepLink)
  | span (attributes : SpanAttributes)

/-- What a drawer knows besides the construct. -/
structure DrawScope where
  /-- How many pixels of the screen make one of the layout. -/
  density : Float
  /-- What the reader has expanded. -/
  expanded : IdSet
  /-- The colour of what has none of its own. -/
  foreground : Int

/-- The refusal to draw what is not a span as one. -/
structure NotSpan where

/-- How a construct is drawn. -/
abbrev Drawer := Decoration → Position Float → DrawScope → Except NotSpan (List Command)

namespace Drawer

/-- The radius of rounded corners. -/
def radius (scope : DrawScope) : Float := 4 * scope.density

/-- A pill behind a mention. -/
def pill : Drawer := fun _ position scope =>
  .ok [.roundRect position.rect Color.blue (radius scope)]

/-- A bar in the gap that the indentation leaves, on the side where the text
    starts. -/
def bar : Drawer := fun _ position scope =>
  let rect := position.rect
  let gap := 12 * scope.density
  let left := if position.direction = .rightToLeft then rect.right + gap else rect.left - gap
  .ok [.roundRect ⟨left, rect.top, left + 4 * scope.density, rect.bottom⟩ scope.foreground
    (radius scope)]

/-- The background of inline code. -/
def inlineCode : Drawer := fun _ position scope =>
  .ok [.roundRect position.rect Color.black (radius scope)]

/-- The background of a block of code. -/
def blockCode : Drawer := fun _ position scope =>
  .ok [.roundRect (position.rect.inflate (4 * scope.density) (1 * scope.density)) Color.black
    (radius scope)]

/-- The background colour of a span. -/
def spanBackground : Drawer := fun decoration position _ =>
  match decoration with
  | .span a =>
      .ok (a.background.map fun color => Command.filledRect position.rect color).toList
  | _ => .error {}

/-- The cover over a spoiler that is not expanded. -/
def spoilerCover : Drawer := fun decoration position scope =>
  match decoration with
  | .span a =>
      .ok (if a.isSpoiler && !(a.revealId ∈ scope.expanded : Bool) then
          [.roundRect position.rect scope.foreground (radius scope)]
        else [])
  | _ => .error {}

/-- The height of an equilateral triangle whose sides are of length one. -/
def triangleHeight : Float := 0.8660254

/-- Whether a construct is expanded; only an id can be. -/
def isExpanded (decoration : Decoration) (scope : DrawScope) : Bool :=
  match decoration with
  | .number id => id ∈ scope.expanded
  | _ => false

/-- A triangle over the room in front of a summary.  It points down when the
    content is expanded and forward otherwise; it is half as high as the line, and
    in the middle of it. -/
def triangle : Drawer := fun decoration position scope =>
  let rect := position.rect
  let lineHeight := rect.height
  let side := lineHeight / 2
  let padding := (side - side * triangleHeight) / 2
  let points :=
    if isExpanded decoration scope then
      [(0, padding), (side / 2, side - padding), (side, padding)]
    else [(padding, 0), (side - padding, side / 2), (padding, side)]
  let margin := (lineHeight - side) / 2
  let dx :=
    if position.direction = .rightToLeft then rect.right - side + margin else rect.left + margin
  let dy := rect.top + margin
  .ok [.filledPath (points.map fun (x, y) => (x + dx, y + dy)) scope.foreground]

end Drawer

end MessageBody
