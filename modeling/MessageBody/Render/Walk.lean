import MessageBody.Render.Content
import MessageBody.Render.Fragment
import MessageBody.Render.RichText

/-! # Rendering content

    Content is rendered in one pass in document order.  Three things decide how
    white space and line breaks come out: the context that a piece inherits from
    the content around it, what the piece rendered before it says (`Trace`), and
    the pieces ahead of it.

    Blank text does not show directly in a list, at the start, after a piece that
    says so, and before block content.  Block content makes sure that it starts
    on a line of its own, except where the style of a paragraph will see to it.
    The number of the next item of an ordered list is handed on from piece to
    piece; a nested list has a number of its own. -/

namespace MessageBody

/-- The list that content stands in most closely. -/
inductive ListScope where
  | none
  | unordered (bullet : String)
  | ordered
  deriving DecidableEq

/-- What a piece of content inherits from the content around it. -/
structure Context where
  style : RenderStyle
  /-- Whether the mention of the whole room is replaced. -/
  allowMention : Bool
  /-- Whether line breaks are made visible. -/
  labelled : Bool
  scope : ListScope := .none
  /-- Inside preformatted text. -/
  isPreformatted : Bool := false
  /-- Inside a link. -/
  isLinked : Bool := false
  /-- How many quotes and list items are around. -/
  depth : Nat := 0

/-- What a rendered piece tells the piece after it. -/
structure Trace where
  /-- Blank text that follows does not show. -/
  trimsNext : Bool := false
  /-- The piece gets the style of a paragraph, which implies a line break. -/
  impliesBreak : Bool := false
  deriving DecidableEq

namespace Trace

/-- Nothing in particular. -/
def plain : Trace := {}

/-- The trace of block content. -/
def block : Trace := { trimsNext := true }

/-- The trace of block content with the style of a paragraph. -/
def paragraph : Trace := { trimsNext := true, impliesBreak := true }

end Trace

/-- Whether the piece before, if any, lets blank text show after it. -/
def showsBlankAfter : Option Trace → Bool
  | none => false
  | some trace => !trace.trimsNext

namespace Context

/-- Whether blank text is passed over because it stands in a list. -/
def passesOverBlank (ctx : Context) : Bool :=
  !ctx.isPreformatted && ctx.scope != .none

/-- The annotated text of characters in this context. -/
def richText (ctx : Context) (s : List Char) : AnnotatedText :=
  MessageBody.richText ctx.style ctx.allowMention (ctx.style.autoLink && !ctx.isLinked) s

/-- A line break with its label. -/
def lineBreak (ctx : Context) (label : String) : List Char :=
  MessageBody.lineBreak ctx.labelled label

/-- A line break where one is needed. -/
def separation (ctx : Context) (position : Cursor) (label : String) (ahead : List Content) :
    List Char :=
  if position.needsBreak && !Content.breaksBefore ahead then ctx.lineBreak label else []

end Context

/-! ## Text -/

/-- The characters that a run of text shows, nothing when it is dropped as
    insignificant. -/
def visibleText? (ctx : Context) (previous : Option Trace) (ahead : List Content)
    (data : List Char) : Option (List Char) :=
  let isBlank := data.all Text.isMarkupBlank
  if ctx.passesOverBlank && isBlank then none
  else if !ctx.isPreformatted && isBlank &&
      (Content.trimsBefore ahead || !showsBlankAfter previous) then none
  else if ctx.isPreformatted then
    some (if ahead.isEmpty && data.getLast? == some '\n' then data.dropLast else data)
  else if (previous.map Trace.trimsNext).getD false then
    some (Text.trimStart Text.isBlank (Text.shown data))
  else some (Text.shown data)

/-- The characters with their line breaks made visible, where that is asked
    for. -/
def withLabels (labelled : Bool) (s : List Char) : List Char :=
  if labelled then s.flatMap fun c => if c = '\n' then lineBreak true "T" else [c] else s

/-! ## Links -/

/-- What a deep link with the given content shows. -/
def RenderStyle.linkText (style : RenderStyle) (link : DeepLink) (content : AnnotatedText) :
    AnnotatedText :=
  match link with
  | .user userId _ => style.userText userId content
  | .room roomId via _ => style.roomText roomId via content
  | .message roomId messageId via _ => style.messageText roomId messageId via content

/-! ## The walk -/

/-- What comes of rendering content. -/
structure Rendered where
  fragment : Fragment
  /-- What the piece after it is told; nothing when nothing was rendered that
      matters to it. -/
  trace : Option Trace
  /-- The number of the next item of the ordered list around it. -/
  next : Int

namespace Rendered

/-- Nothing rendered. -/
def nothing (next : Int) : Rendered := ⟨.empty, none, next⟩

/-- The rendering with an item attached to all of its text. -/
def marked (item : Item) (r : Rendered) : Rendered :=
  { r with fragment := r.fragment.marked item }

/-- The rendering with a trace that is there in any case. -/
def withTrace (trace : Trace) (r : Rendered) : Rendered :=
  { r with trace := some (r.trace.getD trace) }

/-- The rendering with the given trace. -/
def setTrace (trace : Trace) (r : Rendered) : Rendered :=
  { r with trace := some trace }

/-- The rendering with the given number for the next item. -/
def setNext (next : Int) (r : Rendered) : Rendered :=
  { r with next := next }

/-- The rendering after characters that come before it. -/
def after (s : List Char) (r : Rendered) : Rendered :=
  { r with fragment := .ofChars s ++ r.fragment }

/-- The rendering before characters that come after it. -/
def followedBy (s : List Char) (r : Rendered) : Rendered :=
  { r with fragment := r.fragment ++ .ofChars s }

@[simp] theorem fragment_nothing (next : Int) : (nothing next).fragment = .empty := rfl

@[simp] theorem fragment_marked (item : Item) (r : Rendered) :
    (r.marked item).fragment = r.fragment.marked item := rfl

@[simp] theorem fragment_withTrace (trace : Trace) (r : Rendered) :
    (r.withTrace trace).fragment = r.fragment := rfl

@[simp] theorem fragment_setTrace (trace : Trace) (r : Rendered) :
    (r.setTrace trace).fragment = r.fragment := rfl

@[simp] theorem fragment_setNext (next : Int) (r : Rendered) :
    (r.setNext next).fragment = r.fragment := rfl

@[simp] theorem fragment_after (s : List Char) (r : Rendered) :
    (r.after s).fragment = .ofChars s ++ r.fragment := rfl

@[simp] theorem fragment_followedBy (s : List Char) (r : Rendered) :
    (r.followedBy s).fragment = r.fragment ++ .ofChars s := rfl

end Rendered

/-- The key of an image in the result. -/
def imageKey (info : ImageInfo) : String :=
  "mx:IMG:" ++ info.uri

/-- The rendering of an image. -/
def renderImage (ctx : Context) (info : ImageInfo) (next : Int) : Rendered :=
  let text := AnnotatedText.plain (ctx.style.imageText info).toList
  ⟨⟨text.marked (.note .inlineImage (imageKey info)), [(imageKey info, info)], []⟩,
    some .plain, next⟩

/-- The rendering of a line break.  Before content that implies one it shows
    nothing, except for a space that keeps two such pieces apart. -/
def renderLineBreak (ctx : Context) (ahead : List Content) (previous : Option Trace)
    (next : Int) : Rendered :=
  let text :=
    if !Content.breaksBefore ahead then ctx.lineBreak "br"
    else if (previous.map Trace.impliesBreak).getD false then [' ']
    else []
  ⟨.ofChars text, some .block, next⟩

/-- The text of a horizontal rule: one no-break space. -/
def ruleText : List Char := ['\u00a0']

/-- The rendering of a horizontal rule. -/
def renderRule (ctx : Context) (ahead : List Content) (position : Cursor) (next : Int) :
    Rendered :=
  let gap := ctx.separation position "hr1" []
  let rule := (AnnotatedText.plain ruleText).marked (.note .horizontalRule "")
  let close := if Content.breaksBefore ahead then [] else ctx.lineBreak "hr2"
  ⟨.ofChars gap ++ .ofText rule ++ .ofChars close, some .block, next⟩

/-- The line break in front of block content, where the piece before asks for
    it. -/
def gapBefore (ctx : Context) (previous : Option Trace) (position : Cursor) (label : String) :
    List Char :=
  if showsBlankAfter previous then ctx.separation position label [] else []

/-- The rendering of a paragraph from that of its content. -/
def closeParagraph (ctx : Context) (isDivision : Bool) (ahead : List Content)
    (body : Rendered) : Rendered :=
  if Content.trimsBefore ahead || body.fragment.text.length == 0 then body.setTrace .plain
  else
    let close :=
      if Content.breaksBefore ahead then []
      else if !isDivision && Content.paragraphAhead ahead then
        ctx.lineBreak "p2" ++ ctx.lineBreak "p3"
      else ctx.lineBreak "p2"
    (body.followedBy close).setTrace .block

/-- The rendering of preformatted content from that of what is inside; `position`
    is the cursor after it. -/
def closePreformatted (ctx : Context) (ahead : List Content) (position : Cursor)
    (body : Rendered) : Rendered :=
  if Content.trimsBefore ahead then body.setTrace .plain
  else (body.followedBy (ctx.separation position "pre2" ahead)).setTrace .block

/-- The rendering of an anchor from that of its content, rendered on its own when
    it is a deep link. -/
def closeAnchor (ctx : Context) (address : String) (link? : Option DeepLink) (body : Rendered) :
    Rendered :=
  match link? with
  | none => (body.marked (.note .webLink address)).withTrace .plain
  | some link =>
      let shown := ctx.style.linkText link body.fragment.text
      let fragment := { body.fragment with text := shown }
      ({ body with fragment := fragment.marked (.note link.tag link.payload) }).withTrace
        .plain

/-- The bullet and the annotation of a list item, and the number after it;
    nothing when the item stands in no list. -/
def itemLabel? (ctx : Context) (value : Option Int) (next : Int) :
    Option (List Char × Tag × Int) :=
  match ctx.scope with
  | .none => none
  | .unordered bullet => some (bullet.toList, .unorderedListItem, next)
  | .ordered =>
      let number := value.getD next
      some ((toString number).toList ++ ['.', ' '], .orderedListItem, number + 1)

/-- The attributes of a span that starts at position `p` of the document. -/
def spanAttributes (look : SpanLook) (p : Nat) : SpanAttributes where
  foreground := look.foreground
  background := look.background
  isSpoiler := look.isSpoiler
  revealId := p

/-- The decimal text of a natural number. -/
def payloadOf (n : Nat) : String := toString n

/-- The rendering of content that the details element `id` hides from that of the
    content itself, nothing where there is no content. -/
def hideContent (id : String) (content : List Content) (next : Int) (body : Rendered) : Rendered :=
  if content.isEmpty then .nothing next else body.marked (.note .detailsContent id)

/-- The rendering of a details element at `position` from those of its parts. -/
def closeDetails (position : Cursor) (before label after : Rendered) : Rendered :=
  let body := before.fragment ++ label.fragment ++ after.fragment
  ⟨{ body with reveals := position.offset :: body.reveals }, some .block, after.next⟩

mutual

/-- The rendering of one piece of content. -/
def renderOne : (c : Content) → (ctx : Context) → (ahead : List Content) →
    (previous : Option Trace) → (position : Cursor) → (next : Int) → Rendered
  | .text data, ctx, ahead, previous, _, next =>
      match visibleText? ctx previous ahead data with
      | none => .nothing next
      | some s => ⟨.ofText (ctx.richText (withLabels ctx.labelled s)), some .plain, next⟩
  | .emphasis e children, ctx, _, _, position, next =>
      ((renderAll children ctx none position next).marked
        (.directive (.run e.style))).withTrace .plain
  | .code children, ctx, _, _, position, next =>
      let body := renderAll children ctx none position next
      if ctx.isPreformatted then
        (body.marked (.note .blockCode "")).setTrace .block
      else (body.marked (.note .inlineCode "")).withTrace .plain
  | .span look children, ctx, _, _, position, next =>
      let attributes := spanAttributes look position.offset
      let body := renderAll children ctx none position next
      let reveals := if look.isSpoiler then [position.offset] else []
      let fragment := { body.fragment with reveals := reveals ++ body.fragment.reveals }
      (({ body with fragment := fragment }).marked
        (.note .span attributes.payload)).withTrace .plain
  | .anchor address children, ctx, _, _, position, next =>
      let link? := DeepLink.ofUrl? address.toList
      let start := if link?.isSome then position.fork else position
      closeAnchor ctx address link?
        (renderAll children { ctx with isLinked := true } none start next)
  | .lineBreak, ctx, ahead, previous, _, next => renderLineBreak ctx ahead previous next
  | .image info, ctx, _, _, _, next => renderImage ctx info next
  | .foreignImage children, ctx, _, _, position, next =>
      (renderAll children ctx none position next).setTrace .plain
  | .heading level children, ctx, _, _, position, next =>
      ((renderAll children ctx none position next).marked
        (.note .heading level)).setTrace .block
  | .paragraph isDivision children, ctx, ahead, previous, position, next =>
      let gap := gapBefore ctx previous position "p1"
      let body := renderAll children ctx none (position.advance (.plain gap)) next
      (closeParagraph ctx isDivision ahead body).after gap
  | .quote children, ctx, _, _, position, next =>
      let depth := ctx.depth + 1
      ((renderAll children { ctx with depth := depth } none position next).marked
        (.note .blockQuote (payloadOf depth))).setTrace .paragraph
  | .preformatted children, ctx, ahead, previous, position, next =>
      let gap := gapBefore ctx previous position "pre1"
      let start := position.advance (.plain gap)
      let body := renderAll children { ctx with isPreformatted := true } none start next
      (closePreformatted ctx ahead (start.advance body.fragment.text) body).after gap
  | .rule, ctx, ahead, _, position, next => renderRule ctx ahead position next
  | .details before summary after, ctx, _, previous, position, next =>
      let id := payloadOf position.offset
      let hiddenBefore := hideContent id before next (renderAll before ctx previous position next)
      let afterBefore := position.advance hiddenBefore.fragment.text
      let sign := ctx.style.summaryPlaceholder.toList
      let label :=
        ((renderAll summary ctx none (afterBefore.advance (.plain sign))
          hiddenBefore.next).after sign).marked (.note .detailsSummary id)
      let hiddenAfter := hideContent id after label.next
        (renderAll after ctx (some .block) (afterBefore.advance label.fragment.text) label.next)
      closeDetails position hiddenBefore label hiddenAfter
  | .unorderedList children, ctx, _, _, position, next =>
      let scope := ListScope.unordered (ctx.style.bullet ctx.depth)
      (((renderAll children { ctx with scope := scope } none position next).marked
        (.note .unorderedList (payloadOf ctx.depth))).setTrace .paragraph).setNext next
  | .orderedList start children, ctx, _, _, position, next =>
      (((renderAll children { ctx with scope := .ordered } none position (start.getD 1)).marked
        (.note .orderedList (payloadOf ctx.depth))).setTrace .paragraph).setNext next
  | .listItem value children, ctx, _, _, position, next =>
      match itemLabel? ctx value next with
      | none => renderAll children ctx none position next
      | some (label, tag, number) =>
          let inner := { ctx with depth := ctx.depth + 1 }
          if tag = .unorderedListItem && !Content.hasOwnText children then
            renderAll children inner none position number
          else
            let start := position.advance (.plain label)
            (((renderAll children inner none start number).after label).marked
              (.note tag (payloadOf ctx.depth))).withTrace .block
  | .unsupported _ children, ctx, _, _, position, next => renderAll children ctx none position next

/-- The rendering of pieces of content one after the other, where `previous` is
    the trace of the piece before them. -/
def renderAll : (cs : List Content) → (ctx : Context) → (previous : Option Trace) →
    (position : Cursor) → (next : Int) → Rendered
  | [], _, previous, _, next => ⟨.empty, previous, next⟩
  | c :: cs, ctx, previous, position, next =>
      let first := renderOne c ctx cs previous position next
      let rest := renderAll cs ctx (first.trace.or previous)
        (position.advance first.fragment.text) first.next
      { rest with fragment := first.fragment ++ rest.fragment }

end

end MessageBody
