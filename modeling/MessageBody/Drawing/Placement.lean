import MessageBody.Annotated.Text
import MessageBody.Drawing.Command
import MessageBody.Drawing.Layout
import MessageBody.Log

/-! # Placing decorations

    The constructs that have a drawer are located in a laid-out text, each with
    its decoded payload; then the drawers are run in the order in which things
    are painted, behind the text and above it.  A payload that cannot be decoded
    is logged, and its construct is not located. -/

namespace MessageBody

/-- The drawers of the constructs.  What has none is not located. -/
structure DrawStyle where
  foreground : Int := Color.gray
  userMention : Option Drawer := some Drawer.pill
  roomMention : Option Drawer := none
  blockQuote : Option Drawer := some Drawer.bar
  inlineCode : Option Drawer := some Drawer.inlineCode
  blockCode : Option Drawer := some Drawer.blockCode
  behindSpan : Option Drawer := some Drawer.spanBackground
  aboveSpan : Option Drawer := some Drawer.spoilerCover
  summary : Option Drawer := none
  summaryFirstLine : Option Drawer := some Drawer.triangle
  detailsContent : Option Drawer := none

/-- A construct with its place. -/
structure Located where
  decoration : Decoration
  position : Position Float

/-- The constructs of a text with their places. -/
structure Placement where
  userMentions : List Located
  roomMentions : List Located
  blockQuotes : List Located
  inlineCode : List Located
  blockCode : List Located
  spans : List Located
  summaries : List Located
  summaryFirstLines : List Located
  detailsContents : List Located

namespace Placement

/-! ## Payloads -/

/-- The link to a user that a payload holds. -/
def decodeUser (payload : String) : Except PayloadError Decoration := do
  match ← DeepLink.ofPayload payload with
  | .user id url => .ok (.link (.user id url))
  | _ => .error (.undecodable (.notUser payload))

/-- The whole number that a payload is. -/
def decodeNumber (payload : String) : Except PayloadError Decoration :=
  match Text.wholeNumber payload.toList with
  | .ok (some n) => .ok (.number n)
  | .ok none => .error (.undecodable (.notInt payload))
  | .error refusal => .error (.tooManyDigits refusal)

/-- The attributes that a payload holds. -/
def decodeSpan (payload : String) : Except PayloadError Decoration :=
  (SpanAttributes.ofPayload payload).map .span

/-- No payload is asked for. -/
def decodeNothing (_ : String) : Except PayloadError Decoration :=
  .ok .nothing

/-- A range with its decoded payload; a record where it cannot be decoded. -/
def decodeRange (decode : String → Except PayloadError Decoration) (r : Range) :
    Logged PayloadError (List (Range × Decoration)) :=
  match r.item with
  | .directive _ => pure []
  | .note tag payload =>
      match decode payload with
      | .ok decoration => pure [(r, decoration)]
      | .error (.undecodable e) =>
          .record (.error (tag.word ++ " data parsing error: " ++ e.message)) []
      | .error e => .fail e

/-- Ranges with their decoded payloads. -/
def decodeRanges (decode : String → Except PayloadError Decoration) :
    List Range → Logged PayloadError (List (Range × Decoration))
  | [] => pure []
  | r :: rs => do
      let first ← decodeRange decode r
      let rest ← decodeRanges decode rs
      pure (first ++ rest)

/-! ## Places -/

/-- Which places a construct takes. -/
inductive Extent where
  /-- One on each of its lines. -/
  | eachLine
  /-- One on its first line. -/
  | firstLine
  /-- One for all of its lines. -/
  | block

/-- The places of a range. -/
def Extent.positions (extent : Extent) (layout : TextLayout Float) (r : Range) :
    List (Position Float) :=
  match extent with
  | .eachLine => layout.linePositions r.start r.stop
  | .firstLine => (layout.linePositions r.start r.stop).take 1
  | .block => (layout.blockPosition? r.start r.stop).toList

/-- The constructs of one kind with their places, if they are to be located. -/
def locate (t : AnnotatedText) (layout : TextLayout Float) (isDrawn : Bool) (extent : Extent)
    (tag : Tag) (decode : String → Except PayloadError Decoration) :
    Logged PayloadError (List Located) :=
  if isDrawn then do
    let decoded ← decodeRanges decode (t.tagged tag)
    pure (decoded.flatMap fun (r, decoration) =>
      (extent.positions layout r).map fun position => ⟨decoration, position⟩)
  else pure []

/-- The constructs of a text with their places. -/
def ofText (t : AnnotatedText) (layout : TextLayout Float) (s : DrawStyle) :
    Logged PayloadError Placement := do
  let locate := locate t layout
  let userMentions ← locate s.userMention.isSome .eachLine .userMention decodeUser
  let roomMentions ← locate s.roomMention.isSome .eachLine .roomMention decodeNothing
  let blockQuotes ← locate s.blockQuote.isSome .block .blockQuote decodeNumber
  let inlineCode ← locate s.inlineCode.isSome .eachLine .inlineCode decodeNothing
  let blockCode ← locate s.blockCode.isSome .block .blockCode decodeNothing
  let isSpanDrawn := s.behindSpan.isSome || s.aboveSpan.isSome
  let spans ← locate isSpanDrawn .eachLine .span decodeSpan
  let summaries ← locate s.summary.isSome .block .detailsSummary decodeNumber
  let summaryFirstLines ←
    locate s.summaryFirstLine.isSome .firstLine .detailsSummary decodeNumber
  let detailsContents ← locate s.detailsContent.isSome .block .detailsContent decodeNumber
  pure
    { userMentions, roomMentions, blockQuotes, inlineCode, blockCode, spans, summaries,
      summaryFirstLines, detailsContents }

/-! ## Painting -/

/-- The commands for constructs of one kind. -/
def commandsOf (scope : DrawScope) (drawer : Option Drawer) :
    List Located → Except NotSpan (List Command)
  | [] => .ok []
  | l :: ls =>
      match drawer with
      | none => .ok []
      | some draw => do
          let first ← draw l.decoration l.position scope
          let rest ← commandsOf scope drawer ls
          .ok (first ++ rest)

/-- The commands of several kinds of construct, one after the other. -/
def commandsOfAll (scope : DrawScope) :
    List (Option Drawer × List Located) → Except NotSpan (List Command)
  | [] => .ok []
  | (drawer, located) :: rest => do
      let first ← commandsOf scope drawer located
      let others ← commandsOfAll scope rest
      .ok (first ++ others)

/-- What is painted behind the text. -/
def behind (p : Placement) (s : DrawStyle) (scope : DrawScope) : Except NotSpan (List Command) :=
  commandsOfAll scope
    [ (s.blockQuote, p.blockQuotes),
      (s.blockCode, p.blockCode),
      (s.inlineCode, p.inlineCode),
      (s.roomMention, p.roomMentions),
      (s.userMention, p.userMentions),
      (s.behindSpan, p.spans),
      (s.summary, p.summaries),
      (s.summaryFirstLine, p.summaryFirstLines),
      (s.detailsContent, p.detailsContents) ]

/-- What is painted above the text. -/
def above (p : Placement) (s : DrawStyle) (scope : DrawScope) : Except NotSpan (List Command) :=
  commandsOf scope s.aboveSpan p.spans

end Placement

end MessageBody
