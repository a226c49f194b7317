import MessageBody.Markup.Compression
import MessageBody.Markup.Element
import MessageBody.Markup.Node
import MessageBody.Markup.Token
import MessageBody.Text.LineBreak

/-! # Building the tree

    The tree grows on a stack of open elements.  A start tag may first end the
    innermost open elements, an end tag closes the innermost open element of its
    name unless one of higher priority is in between, and whatever follows the
    end of the body is lost.  A start tag of the document's own elements is passed
    over, but when it ends in `/>` it closes the innermost open element in their
    place, which may be the body.  There is no malformed markup: every source
    gives a tree. -/

namespace MessageBody.Markup

/-- An open element. -/
structure Frame where
  name : String
  attributes : List (String × String)
  /-- Its child nodes so far, last one first. -/
  children : List Node

/-- A partly built tree. -/
structure Partial where
  /-- The open elements inside the body, innermost first. -/
  frames : List Frame
  /-- How many there are. -/
  depth : Nat
  /-- The child nodes of the body so far, last one first. -/
  body : List Node
  /-- How many start tags of the document's own elements were passed over. -/
  passedOver : Nat

namespace Partial

/-- Nothing but an open body. -/
def empty : Partial := ⟨[], 0, [], 0⟩

/-- How many elements can be open inside the body. -/
def depthLimit : Nat := 2046

/-- Child nodes, last one first, with one more; text joins text. -/
def addTo (node : Node) : List Node → List Node
  | .text before :: rest =>
      match node with
      | .text data => .text (before ++ data) :: rest
      | _ => node :: .text before :: rest
  | nodes => node :: nodes

/-- The tree with `node` added to the innermost open element. -/
def add (t : Partial) (node : Node) : Partial :=
  match t.frames with
  | [] => { t with body := addTo node t.body }
  | frame :: frames =>
      { t with frames := { frame with children := addTo node frame.children } :: frames }

/-- The tree with text added, unless it is empty. -/
def addText (t : Partial) (data : List Char) : Partial :=
  if data.isEmpty then t else t.add (.text data)

/-- The tree with the innermost open element closed. -/
def close (t : Partial) : Partial :=
  match t.frames with
  | [] => t
  | frame :: frames =>
      ({ t with frames := frames, depth := t.depth - 1 }).add
        (.element frame.name frame.attributes frame.children.reverse)

/-- The tree with the `n` innermost open elements closed. -/
def closeMany : Nat → Partial → Partial
  | 0, t => t
  | n + 1, t => closeMany n t.close

/-- The nodes of the body once everything is closed. -/
def nodes (t : Partial) : List Node :=
  (closeMany t.depth t).body.reverse

/-- How many of the innermost open elements the start of the element `name`
    ends. -/
def endedCount (name : String) : List Frame → Nat
  | [] => 0
  | frame :: frames =>
      if (endedBy frame.name).contains name then endedCount name frames + 1 else 0

/-- How many elements the end tag of the element `name` closes. -/
def closedCount (name : String) : List Frame → Nat
  | [] => 0
  | frame :: frames =>
      if frame.name = name then 1
      else if priority name < priority frame.name then 0
      else
        match closedCount name frames with
        | 0 => 0
        | n + 1 => n + 2

/-- The tree with an element opened. -/
def push (t : Partial) (tag : StartTag) : Partial :=
  { t with frames := ⟨tag.name, tag.attributes, []⟩ :: t.frames, depth := t.depth + 1 }

end Partial

/-- The elements of the document itself, whose tags inside the body count only
    against each other. -/
def isDocumentElement (name : String) : Bool :=
  name == "html" || name == "body" || name == "head"

/-- What comes of a start tag: the tree and the rest of the source, or nothing
    when the reading ends. -/
def openTag (t : Partial) (tag : StartTag) (rest : List Char) : Option (Partial × List Char) :=
  let t := Partial.closeMany (Partial.endedCount tag.name t.frames) t
  if isDocumentElement tag.name then
    let passed := { t with passedOver := t.passedOver + 1 }
    if !tag.selfClosing then some (passed, rest)
    else if t.frames.isEmpty then none
    else some (passed.close, rest)
  else if Partial.depthLimit ≤ t.depth then none
  else if tag.selfClosing || isVoid tag.name then
    some (t.add (.element tag.name tag.attributes []), rest)
  else
    let opened := t.push tag
    match ContentKind.ofName tag.name with
    | .markup => some (opened, rest)
    | .raw =>
        let (data, rest) := rawContent tag.name.toList rest
        some (opened.addText data, rest)
    | .script =>
        let (data, rest) := scriptContent .plain rest
        some (opened.addText data, rest)
    | .escapable =>
        let (data, rest) := rawContent tag.name.toList rest
        some (opened.addText (decodeText data), rest)
    | .plain => some (opened.addText rest, [])

/-- What comes of an end tag: the tree, or nothing when it ends the body. -/
def closeTag (t : Partial) (name : String) : Option Partial :=
  if isDocumentElement name && t.passedOver != 0 then
    some { t with passedOver := t.passedOver - 1 }
  else if name == "html" || name == "body" then none
  else some (Partial.closeMany (Partial.closedCount name t.frames) t)

/-- The tree of the source `s` added to `t`.  `fuel` bounds the number of
    tokens. -/
def grow : Nat → Partial → List Char → Partial
  | 0, t, _ => t
  | fuel + 1, t, s =>
      match token? s with
      | none => t
      | some (.nothing, rest) => grow fuel t rest
      | some (.text data, rest) => grow fuel (t.addText data) rest
      | some (.start tag, rest) =>
          match openTag t tag rest with
          | some (t, rest) => grow fuel t rest
          | none => t
      | some (.stop name, rest) =>
          match closeTag t name with
          | some t => grow fuel t rest
          | none => t

/-- The nodes of a fragment of markup. -/
def parse (source : List Char) : List Node :=
  let s := Text.unifyLineBreaks (compress source ++ "</body></html>".toList)
  (grow (s.length + 1) .empty s).nodes

end MessageBody.Markup
