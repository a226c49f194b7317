import MessageBody.Body
import MessageBody.Storage.Document

/-! # Storing bodies

    The stored form of texts and bodies.  What reacts to a click by changing what
    is shown is part of the form, but is left out where the form is written. -/

namespace MessageBody

/-- The stored form of a range. -/
def Range.toMark (r : Range) : Storage.Mark where
  content :=
    match r.item with
    | .note tag payload => .note tag (.str payload)
    | .directive d => .directive d
  start := .int r.start
  stop := .int r.stop

/-- The stored form of a text. -/
def AnnotatedText.toStored (t : AnnotatedText) : Storage.MarkedText where
  text := .str (String.ofList t.text)
  marks := t.ranges.map Range.toMark

/-- The stored form of a body. -/
def Body.toDocument (b : Body) : Storage.Document where
  text := b.text.toStored
  images := b.images.map fun (key, info) => (key, info.toJson)
  ids := b.revealable.toList.map Json.int

/-- The text as stored data. -/
def AnnotatedText.write (t : AnnotatedText) (indent : Option Int) :
    Except Storage.WriteError String :=
  t.toStored.write indent

/-- The body as stored data. -/
def Body.write (b : Body) (indent : Option Int) : Except Storage.WriteError String :=
  b.toDocument.write indent

end MessageBody
