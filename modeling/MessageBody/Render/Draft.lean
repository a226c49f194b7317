import MessageBody.Annotated.Builder
import MessageBody.Body
import MessageBody.Render.Content
import MessageBody.Render.Fragment

/-! # Drafts

    A draft is a body under construction, in layers, each with a builder for its text.  A
    text of its own, such as the content of a link, is written on a new layer, which knows
    where in the document it begins; cutting takes its text off again, and joining puts it
    at the end of the layer below.  Images and ids belong to the draft as a whole. -/

namespace MessageBody

/-- A text under construction. -/
structure Layer where
  /-- Where the text begins in the document. -/
  base : Nat
  builder : Builder

namespace Layer

/-- An empty layer that begins at `base` in the document. -/
def startAt (base : Nat) : Layer := ⟨base, .empty⟩

/-- The text so far, without the ranges that are still open. -/
def text (l : Layer) : AnnotatedText := ⟨l.builder.text, l.builder.ranges⟩

/-- The end of the text so far. -/
def position (l : Layer) : Cursor where
  base := l.base
  length := l.builder.length
  last := l.builder.last
  paragraphEnded := l.builder.paragraphEnded

/-- The layer with text appended. -/
def append (l : Layer) (t : AnnotatedText) : Layer :=
  { l with builder := l.builder.append t }

/-- The layer with a range opened at the end of the text. -/
def opening (item : Item) (l : Layer) : Layer :=
  { l with builder := l.builder.start item }

/-- The layer with the last opened range closed, nothing when none is open. -/
def closing? (l : Layer) : Option Layer :=
  l.builder.finish?.map fun b => { l with builder := b }

end Layer

/-- A body under construction. -/
structure Draft where
  /-- Whether line breaks are made visible. -/
  labelled : Bool
  /-- The layer that is written on. -/
  top : Layer
  /-- The layers below it, the nearest first. -/
  below : List Layer
  images : List (String × ImageInfo)
  revealable : IdSet

namespace Draft

/-- Nothing written yet. -/
def start (labelled : Bool) : Draft := ⟨labelled, .startAt 0, [], [], .empty⟩

/-- The position in the document. -/
def offset (d : Draft) : Nat := d.top.position.offset

/-- The draft with text appended. -/
def append (d : Draft) (t : AnnotatedText) : Draft :=
  { d with top := d.top.append t }

/-- The draft with a range opened at the end of the text. -/
def opening (item : Item) (d : Draft) : Draft :=
  { d with top := d.top.opening item }

/-- The draft with the last opened range closed, nothing when none is open. -/
def closing? (d : Draft) : Option Draft :=
  d.top.closing?.map fun l => { d with top := l }

/-- The draft with text appended that an item is attached to. -/
def annotated? (item : Item) (t : AnnotatedText) (d : Draft) : Option Draft :=
  ((d.opening item).append t).closing?

/-- The draft with a line break. -/
def newline (d : Draft) (label : String) : Draft :=
  d.append (.plain (lineBreak d.labelled label))

/-- The draft with a line break if one is needed and what is ahead does not imply
    one. -/
def separate (d : Draft) (label : String) (ahead : List Content) : Draft :=
  if d.top.position.needsBreak && !Content.breaksBefore ahead then d.newline label else d

/-- The draft with something that can be revealed at the current position. -/
def markRevealable (d : Draft) : Draft :=
  { d with revealable := d.revealable.insert d.offset }

/-- The draft with an image, in the place of one of the same key. -/
def addImage (d : Draft) (key : String) (info : ImageInfo) : Draft :=
  { d with images := Body.setImage key info d.images }

/-- The draft with a new layer. -/
def fork (d : Draft) : Draft :=
  { d with top := .startAt d.offset, below := d.top :: d.below }

/-- The text of the top layer and the draft without that layer, nothing when there is
    none below. -/
def cut? (d : Draft) : Option (AnnotatedText × Draft) :=
  match d.below with
  | [] => none
  | l :: below => some (d.top.text, { d with top := l, below := below })

/-- The draft with its top layer put at the end of the one below, nothing when
    there is none below. -/
def join? (d : Draft) : Option Draft :=
  d.cut?.map fun (t, rest) => rest.append t

/-- The layer at the bottom. -/
def bottom (d : Draft) : Layer := d.below.getLast?.getD d.top

/-- The body that the layer at the bottom makes up. -/
def body (d : Draft) : Body := ⟨d.bottom.text, d.images, d.revealable⟩

end Draft

end MessageBody
