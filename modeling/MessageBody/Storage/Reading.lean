import MessageBody.Json.Reader
import MessageBody.Order.Insertion
import MessageBody.Storage.Style
import MessageBody.Storage.Writing

/-! # Reading stored bodies

    Stored data is read into a document first: annotations, then styles, then the
    text, the images and the ids.  Values that a document can keep are kept; a
    document without such values stands for a body. -/

namespace MessageBody.Storage

/-! ## Members and items -/

/-- The value of a member that has to be there; `absent` is the error for a value
    that is not an object. -/
def member (absent : ReadError) (key : String) : Json → Except ReadError Json
  | .obj members =>
      match Json.member? key members with
      | some value => .ok value
      | none => .error (.missing (.str key))
  | _ => .error absent

/-- The value of a member, or another one when it is missing. -/
def memberOr (default : Json) (key : String) : Json → Except ReadError Json
  | .obj members => .ok ((Json.member? key members).getD default)
  | _ => .error .notObject

/-- The items of a value: those of a list, the characters of a text, the keys of
    an object. -/
def items : Json → Except ReadError (List Json)
  | .arr items => .ok items
  | .str s => .ok (s.toList.map fun c => .str (String.singleton c))
  | .obj members => .ok (members.map fun (key, _) => .str key)
  | _ => .error .wrongKind

/-- The length of a value that has items. -/
def length (value : Json) : Except ReadError Nat :=
  (items value).map List.length

/-! ## Marks -/

/-- The kind of annotation that goes by a name. -/
def readTag (name : Json) : Except ReadError Tag :=
  match name with
  | .str s =>
      match Tag.ofWireName? s with
      | some tag => .ok tag
      | none => .error (.notChoice name "Tag")
  | _ => .error (.notChoice name "Tag")

/-- The kind of stored directive that goes by a name. -/
def readKind (name : Json) : Except ReadError DirectiveKind :=
  match name with
  | .str s =>
      match DirectiveKind.ofWireName? s with
      | some kind => .ok kind
      | none => .error (.missing name)
  | .arr _ | .obj _ => .error .wrongKind
  | _ => .error (.missing name)

/-- The number that a bound is. -/
def bound (value : Json) : Except ReadError Number :=
  match number? value with
  | some n => .ok n
  | none => .error .wrongKind

/-- A mark, if its bounds are in order. -/
def Mark.make (content : Mark.Content) (start stop : Json) : Except ReadError Mark := do
  let low ← bound start
  if low.below (.whole 0) then .error (.bounds start stop)
  else
    let high ← bound stop
    if high.below low then .error (.bounds start stop)
    else .ok ⟨content, start, stop⟩

/-- The annotation that an object holds. -/
def readNote (value : Json) : Except ReadError Mark := do
  let name ← member .wrongKind "tag" value
  let tag ← readTag name
  let payload ← memberOr (.str "") "payload" value
  let start ← member .wrongKind "start" value
  let stop ← member .wrongKind "end" value
  Mark.make (.note tag payload) start stop

/-- The directive that an object holds. -/
def readStyle (value : Json) : Except ReadError Mark := do
  let name ← member .wrongKind "type" value
  let kind ← readKind name
  let content ← member .wrongKind "value" value
  let directive ← Directive.read kind content
  let start ← member .wrongKind "start" value
  let stop ← member .wrongKind "end" value
  Mark.make (.directive directive) start stop

/-- The results of `read` for each item, up to the first error. -/
def readEach {α β : Type} (read : α → Except ReadError β) : List α → Except ReadError (List β)
  | [] => .ok []
  | item :: items => do
      let first ← read item
      let rest ← readEach read items
      .ok (first :: rest)

/-- The text and its marks, if none of them ends after it. -/
def MarkedText.make (text : Json) (marks : List Mark) : Except ReadError MarkedText := do
  let length ← length text
  match marks.find? fun m => (number? m.stop).any (Number.below (.whole length)) with
  | some m => .error (.beyond m.start m.stop length)
  | none => .ok ⟨text, marks⟩

/-- The text that an object holds, its annotations before its styles. -/
def MarkedText.ofJson (value : Json) : Except ReadError MarkedText := do
  let annotations ← memberOr (.arr []) "annotations" value
  let annotations ← items annotations
  let annotations ← readEach readNote annotations
  let styles ← memberOr (.arr []) "styles" value
  let styles ← items styles
  let styles ← readEach readStyle styles
  let text ← member .wrongKind "text" value
  MarkedText.make text (annotations ++ styles)

/-! ## Images and ids -/

/-- The members of an object that holds images. -/
def imageMembers : Json → Except ReadError (List (String × Json))
  | .obj members => .ok members
  | _ => .error .notObject

/-- An image with its key. -/
def readImage : String × Json → Except ReadError (String × Json)
  | (key, value) => (readRecord ImageInfo.fields value).map fun image => (key, image)

/-- A value that can be an id: anything without items of its own. -/
def readId : Json → Except ReadError Json
  | .arr _ | .obj _ => .error .wrongKind
  | value => .ok value

/-- The ids without those that are the same as one before. -/
def distinct (ids : List Json) : List Json :=
  ids.foldl (fun kept id => if kept.any (sameScalar id) then kept else kept ++ [id]) []

/-- Two ids have an order. -/
def isComparable : Json → Json → Bool
  | .str _, .str _ => true
  | a, b => (number? a).isSome && (number? b).isSome

/-- The first id does not come after the second. -/
def precedes : Json → Json → Bool
  | .str s, .str t => s < t || s == t
  | a, b =>
      match number? a, number? b with
      | some x, some y => !y.below x
      | _, _ => true

/-- The ids in increasing order, if they have one. -/
def sortIds : List Json → Except ReadError (List Json)
  | [] => .ok []
  | [id] => .ok [id]
  | id :: ids =>
      if ids.all (isComparable id) then .ok (Order.sort precedes (id :: ids))
      else .error .wrongKind

/-! ## Documents -/

/-- The document that an object holds. -/
def Document.ofJson (value : Json) : Except ReadError Document := do
  let text ← member .wrongKind "text" value
  let text ← MarkedText.ofJson text
  let images ← memberOr (.obj []) "inline_images" value
  let images ← imageMembers images
  let images ← readEach readImage images
  let ids ← memberOr (.arr []) "expandable_items" value
  let ids ← items ids
  let ids ← readEach readId ids
  let ids ← sortIds (distinct ids)
  .ok ⟨text, images, ids⟩

/-- The document that stored data holds. -/
def Document.read (s : List Char) : Except ReadError Document :=
  match Json.parse s with
  | .error .malformed => .error .malformed
  | .error .tooDeep => .error .tooDeep
  | .error (.tooManyDigits refusal) => .error (.tooManyDigits refusal)
  | .ok value => Document.ofJson value

/-! ## Bodies of documents -/

/-- The range that a mark stands for. -/
def Mark.range? (m : Mark) : Option Range :=
  match m.start, m.stop with
  | .int start, .int stop =>
      match m.content with
      | .note tag (.str payload) => some ⟨.note tag payload, start.toNat, stop.toNat⟩
      | .note _ _ => none
      | .directive d => some ⟨.directive d, start.toNat, stop.toNat⟩
  | _, _ => none

/-- The text that a stored one stands for. -/
def MarkedText.text? (t : MarkedText) : Option AnnotatedText :=
  match t.text with
  | .str s => (t.marks.mapM Mark.range?).map fun ranges => ⟨s.toList, ranges⟩
  | _ => none

/-- The body that a document stands for. -/
def Document.body? (d : Document) : Option Body := do
  let text ← d.text.text?
  let images ← d.images.mapM fun (key, image) => (ImageInfo.ofJson? image).map (key, ·)
  let ids ← d.ids.mapM Json.int?
  some ⟨text, images, .ofList ids⟩

end MessageBody.Storage
