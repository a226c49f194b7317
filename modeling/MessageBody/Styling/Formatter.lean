import MessageBody.Annotated.Color
import MessageBody.Annotated.Text
import MessageBody.Link.Payload
import MessageBody.Log
import MessageBody.Render.Style
import MessageBody.Styling.Nesting

/-! # Formatters

    A formatter says which directives present each kind of annotation.  Headings
    are scaled from the size of body text; quotes and lists are indented by their
    depth; the lines of a list item after the first are indented past its bullet;
    spoilers and summaries react to a click. -/

namespace MessageBody

/-- How annotations are presented. -/
structure Formatter where
  /-- The font size of body text. -/
  fontSize : TextUnit := .sp 14
  /-- The line height of body text. -/
  lineHeight : TextUnit := .sp 20
  /-- The indentation per level, in scaled pixels. -/
  indentation : Float := 16
  /-- The bullet of an unordered list at a depth. -/
  bullet : Int → String := fun _ => RenderStyle.standardBullet
  /-- The width that a text takes. -/
  width : String → TextUnit
  /-- The look of web links. -/
  urlStyles : Option LinkStyles :=
    some { style := some { color := some Color.blue, decoration := some .underline } }
  /-- The look of what reacts to a click. -/
  clickStyles : Option LinkStyles := some {}

/-- Why a length cannot be computed. -/
inductive LengthError where
  /-- Two lengths have different units. -/
  | mismatch (mismatch : TextUnit.Mismatch)
  /-- A depth is beyond the floating-point numbers. -/
  | beyondFloats (refusal : Decimal.BeyondFloats)
  deriving DecidableEq

/-- The text of the error. -/
def LengthError.message : LengthError → String
  | .mismatch e => e.message
  | .beyondFloats refusal => refusal.message

/-- Why an annotation cannot be presented at all. -/
inductive StylingError where
  /-- A length cannot be computed. -/
  | length (error : LengthError)
  /-- A payload cannot be read. -/
  | payload (error : PayloadError)
  /-- A number has too many digits. -/
  | tooManyDigits (refusal : Text.TooManyDigits)

/-- The text of the error. -/
def StylingError.message : StylingError → String
  | .length e => e.message
  | .payload e => e.message
  | .tooManyDigits refusal => refusal.message

namespace Formatter

/-- A setting that no formatter can have: an indentation that is not in scaled
    pixels. -/
structure Misconfigured where
  unit : String

/-- The text of the error. -/
def Misconfigured.message (e : Misconfigured) : String :=
  "Invalid formatter configuration - block_indention: indention must be in sp, got " ++ e.unit

/-- The indentation per level that a length gives. -/
def indentationOf (length : TextUnit) : Except Misconfigured Float :=
  if length.isSp then .ok length.value else .error ⟨length.unit⟩

/-- The width of texts in a font in which all characters are `width` wide. -/
def fixedWidth (width : TextUnit) (s : String) : TextUnit :=
  width.scale (Float.ofNat s.length)

/-- The formatter for a font in which all characters are eight pixels wide. -/
def standard : Formatter where
  width := fixedWidth (.sp 8)

/-! ## Directives -/

/-- The size of a heading relative to body text. -/
def headingScale? : String → Option Float
  | "h1" => some 2.0
  | "h2" => some 1.5
  | "h3" => some 1.17
  | "h4" => some 1.0
  | "h5" => some 0.83
  | "h6" => some 0.67
  | _ => none

/-- A heading of the given size relative to body text. -/
def scaledHeading (f : Formatter) (scale : Float) (underline : Bool) : List Directive :=
  [ .paragraph { lineHeight := some (f.lineHeight.scale scale) },
    .run
      { fontWeight := some .bold
        fontSize := some (f.fontSize.scale scale)
        decoration := if underline then some .underline else none } ]

/-- A heading by the name of its element, nothing for an unknown name. -/
def heading? (f : Formatter) (name : String) : Option (List Directive) :=
  (headingScale? name).map fun scale => f.scaledHeading scale false

/-- A region that reveals, or hides, what has the given id. -/
def clickToReveal (f : Formatter) (id : Int) : Directive :=
  .clickable Tag.clickToReveal.wireName (some id) f.clickStyles

/-- A span. -/
def span (f : Formatter) (a : SpanAttributes) : List Directive :=
  (a.foreground.map fun color => Directive.run { color := some color }).toList
    ++ (if a.isSpoiler then [f.clickToReveal a.revealId] else [])

/-- Code, inline or in a block. -/
def code : List Directive :=
  [.run { fontFamily := some .monospace, color := some Color.white }]

/-- The mention of the whole room. -/
def roomMention : List Directive :=
  [.run { color := some Color.red, fontWeight := some .bold }]

/-- A deep link. -/
def deepLink : DeepLink → List Directive
  | .user _ _ => [.run { color := some Color.white, fontWeight := some .bold }]
  | .room _ _ _ | .message _ _ _ _ => [.run { color := some Color.blue }]

/-- A web link. -/
def webLink (f : Formatter) (address : String) : List Directive :=
  [.url address f.urlStyles]

/-- The indentation at a depth. -/
def indent (f : Formatter) (depth : Int) : Except LengthError TextUnit :=
  ((TextUnit.sp f.indentation).times depth).mapError .beyondFloats

/-- A quote: a paragraph that is indented as a whole. -/
def quote (f : Formatter) (depth : Int) : Except LengthError (List Directive) := do
  let base ← f.indent depth
  .ok [.paragraph { indent := some ⟨base, base⟩ }]

/-- A list item whose bullet has the given width. -/
def listItem (f : Formatter) (depth : Int) (bulletWidth : TextUnit) :
    Except LengthError (List Directive) := do
  let base ← f.indent depth
  let rest ← (TextUnit.add base bulletWidth).mapError .mismatch
  .ok [.paragraph { indent := some ⟨base, rest⟩ }]

/-- An item of an unordered list. -/
def unorderedItem (f : Formatter) (depth : Int) : Except LengthError (List Directive) :=
  f.listItem depth (f.width (f.bullet depth))

/-- An item of an ordered list. -/
def orderedItem (f : Formatter) (depth : Int) : Except LengthError (List Directive) :=
  f.listItem depth (.sp f.indentation)

/-- A summary. -/
def summary (f : Formatter) (id : Int) : List Directive :=
  [.paragraph {}, f.clickToReveal id]

/-- Content that can be hidden, at the given nesting depth. -/
def hideable (f : Formatter) (depth : Int) : Except LengthError (List Directive) :=
  if depth ≤ 0 then .ok [.paragraph {}] else f.quote depth

/-! ## Presenting annotations -/

/-- The record of a payload that cannot be decoded. -/
def undecodable (tag : Tag) (e : DecodeError) : LogRecord :=
  .error (tag.word ++ " data parsing error: " ++ e.message)

/-- The record of a payload that is not a whole number. -/
def notNumber (tag : Tag) (what payload : String) : LogRecord :=
  .error (tag.word ++ " data parsing error, is not an int " ++ what ++ ": " ++ Text.quote payload)

/-- The directives for a decoded payload; where it cannot be decoded there are
    none, and a record says so. -/
def decoded {α : Type} (tag : Tag) (value : Except PayloadError α)
    (present : α → List Directive) : Logged StylingError (List Directive) :=
  match value with
  | .ok value => pure (present value)
  | .error (.undecodable e) => .record (undecodable tag e) []
  | .error e => .fail (.payload e)

/-- The directives for a payload that is a whole number; where it is none there
    are none, and a record says so. -/
def numbered (tag : Tag) (what payload : String)
    (present : Int → Logged StylingError (List Directive)) :
    Logged StylingError (List Directive) :=
  match Text.wholeNumber payload.toList with
  | .ok (some n) => present n
  | .ok none => .record (notNumber tag what payload) []
  | .error refusal => .fail (.tooManyDigits refusal)

/-- What comes of the nesting depth at a position. -/
def atDepth (nesting : Except Text.TooManyDigits Nesting) (position : Nat)
    (present : Int → Logged StylingError (List Directive)) :
    Logged StylingError (List Directive) :=
  match nesting with
  | .ok nesting => present (nesting.depthAt position)
  | .error refusal => .fail (.tooManyDigits refusal)

/-- Directives, unless a length in them cannot be computed. -/
def measured (ds : Except LengthError (List Directive)) :
    Logged StylingError (List Directive) :=
  .ofExcept (ds.mapError .length)

/-- The directives for a quote or a list item. -/
def indenting (f : Formatter) (tag : Tag) (depth : Int) : Logged StylingError (List Directive) :=
  match tag with
  | .unorderedListItem => measured (f.unorderedItem depth)
  | .orderedListItem => measured (f.orderedItem depth)
  | _ => measured (f.quote depth)

/-- The directives that present an annotation which starts at `position`. -/
def present (f : Formatter) (nesting : Except Text.TooManyDigits Nesting) (position : Nat)
    (tag : Tag) (payload : String) : Logged StylingError (List Directive) :=
  match tag with
  | .heading => pure ((f.heading? payload).getD [])
  | .roomMention => pure roomMention
  | .userMention | .roomLink | .messageLink =>
      decoded tag (DeepLink.ofPayload payload) deepLink
  | .webLink => pure (f.webLink payload)
  | .inlineCode | .blockCode => pure code
  | .span => decoded tag (SpanAttributes.ofPayload payload) f.span
  | .blockQuote | .unorderedListItem | .orderedListItem =>
      numbered tag "depth" payload fun own =>
        atDepth nesting position fun around => f.indenting tag (max own around)
  | .detailsSummary => numbered tag "id" payload fun id => pure (f.summary id)
  | .detailsContent =>
      numbered tag "id" payload fun _ =>
        atDepth nesting position fun depth => measured (f.hideable depth)
  | .unorderedList | .orderedList | .inlineImage | .horizontalRule | .clickToReveal => pure []

/-- Whether an annotation is a span whose payload cannot be decoded. -/
def isUndecodableSpan (tag : Tag) (payload : String) : Bool :=
  match tag with
  | .span =>
      match SpanAttributes.ofPayload payload with
      | .error (.undecodable _) => true
      | _ => false
  | _ => false

/-- What a range is mapped to: an annotation to the directives that present it, a span
    that cannot be decoded to itself, and a directive to nothing. -/
def mapRange (f : Formatter) (nesting : Except Text.TooManyDigits Nesting) (r : Range) :
    Logged StylingError (List Range) :=
  match r.item with
  | .directive _ => pure []
  | .note tag payload => do
      let ds ← f.present nesting r.start tag payload
      pure (if isUndecodableSpan tag payload then [r]
        else ds.map fun d => ⟨.directive d, r.start, r.stop⟩)

/-- A range behind what it is mapped to, unless it is among that itself. -/
def keepRange (r : Range) (mapped : List Range) : List Range :=
  if mapped.any r.isSameNote then mapped else mapped ++ [r]

/-- A range with the directives that present it in front. -/
def presentRange (f : Formatter) (nesting : Except Text.TooManyDigits Nesting) (r : Range) :
    Logged StylingError (List Range) := do
  let mapped ← f.mapRange nesting r
  pure (keepRange r mapped)

/-- Ranges, each with the directives that present it in front. -/
def presentRanges (f : Formatter) (nesting : Except Text.TooManyDigits Nesting) :
    List Range → Logged StylingError (List Range)
  | [] => pure []
  | r :: rs => do
      let first ← f.presentRange nesting r
      let rest ← f.presentRanges nesting rs
      pure (first ++ rest)

/-- The text with the directives that present its annotations.  Every range stays
    where it is. -/
def apply (f : Formatter) (t : AnnotatedText) : Logged StylingError AnnotatedText := do
  let ranges ← f.presentRanges (Nesting.ofText t) t.ranges
  pure ⟨t.text, ranges⟩

end Formatter

end MessageBody
