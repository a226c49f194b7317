import MessageBody.Annotated.Text
import MessageBody.Json.Printer
import MessageBody.Storage.Shape
import MessageBody.Text.WholeNumber

/-! # Documents

    A document is a body in its stored form: the text with its annotations and
    then its styles, the images, and the ids of what can be revealed.  A document
    may hold values that no body has, such as a payload that is not a text; they
    are kept as they are.  Not every document can be written: a directive may hold
    values that are nested too deeply, and a number may have too many digits. -/

namespace MessageBody.Storage

/-- What a mark attaches to its text. -/
inductive Mark.Content where
  | note (tag : Tag) (payload : Json)
  | directive (d : Directive)

/-- A range of a document.  Its bounds are numbers, whole or not. -/
structure Mark where
  content : Mark.Content
  start : Json
  stop : Json

/-- The text of a document and its marks. -/
structure MarkedText where
  /-- A text, or another value that has a length. -/
  text : Json
  marks : List Mark

/-- A body in its stored form. -/
structure Document where
  text : MarkedText
  /-- The images by their keys. -/
  images : List (String × Json)
  /-- The ids in increasing order. -/
  ids : List Json

/-- The members that say where a mark lies. -/
def Mark.boundMembers (m : Mark) : List (String × Json) :=
  [("start", m.start), ("end", m.stop)]

/-- An annotation as JSON, nothing for other marks. -/
def Mark.annotationJson? (m : Mark) : Option Json :=
  match m.content with
  | .note tag payload =>
      some (.obj ([("tag", .str tag.wireName), ("payload", payload)] ++ m.boundMembers))
  | .directive _ => none

/-- A directive as JSON, nothing for other marks and for what cannot be
    stored. -/
def Mark.styleJson? (m : Mark) : Option Json :=
  match m.content with
  | .note _ _ => none
  | .directive d =>
      if d.kind = .clickable then none
      else some (.obj ([("type", .str d.kind.wireName), ("value", d.toJson)] ++ m.boundMembers))

/-- The text and its marks as JSON. -/
def MarkedText.toJson (t : MarkedText) : Json :=
  .obj
    [ ("text", t.text),
      ("annotations", .arr (t.marks.filterMap Mark.annotationJson?)),
      ("styles", .arr (t.marks.filterMap Mark.styleJson?)) ]

/-- The document as JSON. -/
def Document.toJson (d : Document) : Json :=
  .obj
    [ ("text", d.text.toJson),
      ("inline_images", .obj d.images),
      ("expandable_items", .arr d.ids) ]

/-! ## Writing -/

/-- What a whole number is for, where something is written. -/
inductive NumberUse where
  /-- It gives the spaces per level. -/
  | indentation
  /-- It is a part of what is written. -/
  | content
  deriving DecidableEq

/-- Why something cannot be written as stored data. -/
inductive WriteError where
  /-- The value of a directive is nested too deeply. -/
  | tooDeep
  /-- A whole number is too large for its use: an indentation has 64 bits, and a number
      in the content has not too many digits. -/
  | beyondIndex {use : NumberUse}
  /-- An indentation takes more room than there is. -/
  | outOfMemory
  deriving DecidableEq

namespace WriteError

/-- An indentation is beyond the numbers of 64 bits. -/
def beyondBits : WriteError := @beyondIndex .indentation

/-- A number in the content has too many digits. -/
def tooManyDigits : WriteError := @beyondIndex .content

/-- The text of the error, empty where the cause says it all. -/
def message : WriteError → String
  | @beyondIndex .indentation => "cannot fit \x27int\x27 into an index-sized integer"
  | @beyondIndex .content =>
      "Exceeds the limit (" ++ toString Text.TooManyDigits.limit
        ++ " digits) for integer string conversion; "
        ++ "use sys.set_int_max_str_digits() to increase the limit"
  | .tooDeep | .outOfMemory => ""

end WriteError

/-- How deeply the value of a directive may be nested. -/
def nestingLimit : Nat := 490

/-- Whether a mark is a directive that is nested too deeply. -/
def Mark.isTooDeep (m : Mark) : Bool :=
  match m.content with
  | .note _ _ => false
  | .directive d => nestingLimit < d.toJson.nesting

/-- The text and its marks as JSON, unless one of them is nested too deeply. -/
def MarkedText.shallowJson (t : MarkedText) : Except WriteError Json :=
  if t.marks.any Mark.isTooDeep then .error .tooDeep else .ok t.toJson

/-- The document as JSON, unless something in it is nested too deeply. -/
def Document.shallowJson (d : Document) : Except WriteError Json :=
  if d.text.marks.any Mark.isTooDeep then .error .tooDeep else .ok d.toJson

/-- The least number of spaces per level for which there is no room. -/
def indentLimit : Int := 0x10000000000

/-- The spaces per level that an indentation asks for.  A negative one asks for
    none. -/
def spaces (indent : Int) : Except WriteError Nat :=
  if indent < -0x8000000000000000 ∨ 0x8000000000000000 ≤ indent then .error .beyondBits
  else if indentLimit ≤ indent then .error .outOfMemory
  else .ok indent.toNat

/-- How stored data is written: characters as they are, with one item to a line
    when an indentation is given. -/
def layout : Option Int → Except WriteError Json.Layout
  | none => .ok ⟨false, none⟩
  | some indent => (spaces indent).map fun n => ⟨false, some n⟩

/-- The text of a value, unless a number in it has too many digits. -/
def writeValue (layout : Json.Layout) (value : Json) : Except WriteError String :=
  if ∀ n ∈ value.numbers, Text.IsShort n then .ok (Json.write layout value)
  else .error .tooManyDigits

/-- The text and its marks as stored data. -/
def MarkedText.write (t : MarkedText) (indent : Option Int) : Except WriteError String := do
  let value ← t.shallowJson
  let layout ← layout indent
  writeValue layout value

/-- The document as stored data, with the members of every object in the order
    of their keys. -/
def Document.write (d : Document) (indent : Option Int) : Except WriteError String := do
  let value ← d.shallowJson
  let layout ← layout indent
  writeValue layout value.sortKeys

end MessageBody.Storage
