import MessageBody.Decimal.Number
import MessageBody.Json.Basic
import MessageBody.Order.Extremum

/-! # Inline images -/

namespace MessageBody

/-- What is known of an inline image. -/
structure ImageInfo where
  /-- Its address in the media store. -/
  uri : String
  /-- Whether it is a custom emote. -/
  isEmote : Bool := false
  width : Option Int := none
  height : Option Int := none
  title : Option String := none
  alt : Option String := none
  deriving DecidableEq

namespace ImageInfo

/-- The image as JSON. -/
def toJson (i : ImageInfo) : Json :=
  .obj
    [ ("uri", .str i.uri),
      ("is_emote", .bool i.isEmote),
      ("width", .ofInt? i.width),
      ("height", .ofInt? i.height),
      ("title", .ofText? i.title),
      ("alt", .ofText? i.alt) ]

/-- The bounds of the space an image may take. -/
structure SizeBounds where
  minWidth : Number := .whole 16
  maxWidth : Number := .whole 512
  minHeight : Number := .whole 16
  maxHeight : Number := .whole 512

/-- The number in the bounds that is closest to `x`; the lower bound wins where
    they cross. -/
def clamp (x low high : Number) : Number :=
  Order.greater low (Order.lesser high x)

/-- The width and height to keep free for the image.  An emote, or an image of
    unknown size, takes a square of the default height; of two dimensions one
    may stand for the other. -/
def placeholder (i : ImageInfo) (defaultHeight : Number) (bounds : SizeBounds) :
    Number × Number :=
  if i.isEmote then (defaultHeight, defaultHeight)
  else
    match i.width, i.height with
    | none, none => (defaultHeight, defaultHeight)
    | some w, none => sized w w
    | none, some h => sized h h
    | some w, some h => sized w h
where
  /-- The size within the bounds. -/
  sized (w h : Int) : Number × Number :=
    (clamp (.whole w) bounds.minWidth bounds.maxWidth,
      clamp (.whole h) bounds.minHeight bounds.maxHeight)

end ImageInfo

end MessageBody
