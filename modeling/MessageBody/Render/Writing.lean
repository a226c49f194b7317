import MessageBody.Render.Draft
import MessageBody.Render.Walk

/-! # Writing content on a draft

    The walk over content, with a draft in the place of the fragments that are put
    together: a piece is written at the end of what is there, an annotation is opened in
    front of what it holds and closed behind it, and the content of a deep link is written
    on a layer of its own, which is cut off and given to the style.  Where rendering
    computes a position from the texts before it, writing asks the draft.

    Closing and cutting fail where nothing is open or nothing lies below, and so does
    writing; on a draft, content is always written to the end. -/

namespace MessageBody

/-- What comes of writing content. -/
structure Written where
  draft : Draft
  /-- What the piece after it is told; nothing when nothing was written that matters to
      it. -/
  trace : Option Trace
  /-- The number of the next item of the ordered list around it. -/
  next : Int

namespace Written

/-- The last opened range closed, nothing when none is open. -/
def closing? (w : Written) : Option Written :=
  w.draft.closing?.map fun d => { w with draft := d }

/-- The same with a trace that is there in any case. -/
def withTrace (trace : Trace) (w : Written) : Written :=
  { w with trace := some (w.trace.getD trace) }

/-- The same with the given trace. -/
def setTrace (trace : Trace) (w : Written) : Written :=
  { w with trace := some trace }

/-- The same with the given number for the next item. -/
def setNext (next : Int) (w : Written) : Written :=
  { w with next := next }

/-- The same with more done to the draft. -/
def onDraft (f : Draft → Draft) (w : Written) : Written :=
  { w with draft := f w.draft }

end Written

namespace Draft

/-- The draft with the line break in front of block content, where the piece before asks
    for it. -/
def gap (previous : Option Trace) (label : String) (d : Draft) : Draft :=
  if showsBlankAfter previous then d.separate label [] else d

/-- The draft with a line break of markup.  Before content that implies one it shows
    nothing, except for a space that keeps two such pieces apart. -/
def breakLine (ahead : List Content) (previous : Option Trace) (d : Draft) : Draft :=
  if !Content.breaksBefore ahead then d.newline "br"
  else if (previous.map Trace.impliesBreak).getD false then d.append (.plain [' '])
  else d

/-- The draft with the line breaks behind a paragraph that has content. -/
def breakParagraph (isDivision : Bool) (ahead : List Content) (d : Draft) : Draft :=
  if Content.breaksBefore ahead then d
  else if !isDivision && Content.paragraphAhead ahead then (d.newline "p2").newline "p3"
  else d.newline "p2"

end Draft

/-- An image written. -/
def writeImage (ctx : Context) (info : ImageInfo) (next : Int) (d : Draft) : Option Written :=
  (d.annotated? (.note .inlineImage (imageKey info)) (.plain (ctx.style.imageText info).toList)).map
    fun d' => ⟨d'.addImage (imageKey info) info, some .plain, next⟩

/-- A horizontal rule written. -/
def writeRule (ahead : List Content) (next : Int) (d : Draft) : Option Written :=
  ((d.separate "hr1" []).annotated? (.note .horizontalRule "") (.plain ruleText)).map fun d' =>
    ⟨if Content.breaksBefore ahead then d' else d'.newline "hr2", some .block, next⟩

/-- A paragraph finished whose content, written where the text had `start` characters, is
    `w`. -/
def finishParagraph (isDivision : Bool) (ahead : List Content) (start : Nat) (w : Written) :
    Written :=
  if Content.trimsBefore ahead || w.draft.top.builder.length == start then w.setTrace .plain
  else (w.onDraft (Draft.breakParagraph isDivision ahead)).setTrace .block

/-- Preformatted content finished. -/
def finishPreformatted (ahead : List Content) (w : Written) : Written :=
  if Content.trimsBefore ahead then w.setTrace .plain
  else (w.onDraft fun d => d.separate "pre2" ahead).setTrace .block

/-- A deep link written: its content, which is on a layer of its own, is cut off and shown
    as the style wants it. -/
def finishLink (ctx : Context) (link : DeepLink) (w : Written) : Option Written :=
  w.draft.cut?.bind fun (content, d) =>
    (d.annotated? (.note link.tag link.payload) (ctx.style.linkText link content)).map
      fun d' => w.onDraft fun _ => d'

mutual

/-- One piece of content written at the end of a draft. -/
def writeOne : (c : Content) → (ctx : Context) → (ahead : List Content) →
    (previous : Option Trace) → (next : Int) → (d : Draft) → Option Written
  | .text data, ctx, ahead, previous, next, d =>
      match visibleText? ctx previous ahead data with
      | none => some ⟨d, none, next⟩
      | some s => some ⟨d.append (ctx.richText (withLabels d.labelled s)), some .plain, next⟩
  | .emphasis e children, ctx, _, _, next, d =>
      ((writeAll children ctx none next (d.opening (.directive (.run e.style)))).bind
        Written.closing?).map (Written.withTrace .plain)
  | .code children, ctx, _, _, next, d =>
      if ctx.isPreformatted then
        ((writeAll children ctx none next (d.opening (.note .blockCode ""))).bind
          Written.closing?).map (Written.setTrace .block)
      else
        ((writeAll children ctx none next (d.opening (.note .inlineCode ""))).bind
          Written.closing?).map (Written.withTrace .plain)
  | .span look children, ctx, _, _, next, d =>
      let attributes := spanAttributes look d.offset
      let marked := if look.isSpoiler then d.markRevealable else d
      ((writeAll children ctx none next (marked.opening (.note .span attributes.payload))).bind
        Written.closing?).map (Written.withTrace .plain)
  | .anchor address children, ctx, _, _, next, d =>
      let inner := { ctx with isLinked := true }
      match DeepLink.ofUrl? address.toList with
      | none =>
          ((writeAll children inner none next (d.opening (.note .webLink address))).bind
            Written.closing?).map (Written.withTrace .plain)
      | some link =>
          ((writeAll children inner none next d.fork).bind (finishLink ctx link)).map
            (Written.withTrace .plain)
  | .lineBreak, _, ahead, previous, next, d =>
      some ⟨d.breakLine ahead previous, some .block, next⟩
  | .image info, ctx, _, _, next, d => writeImage ctx info next d
  | .foreignImage children, ctx, _, _, next, d =>
      (writeAll children ctx none next d).map (Written.setTrace .plain)
  | .heading level children, ctx, _, _, next, d =>
      ((writeAll children ctx none next (d.opening (.note .heading level))).bind
        Written.closing?).map (Written.setTrace .block)
  | .paragraph isDivision children, ctx, ahead, previous, next, d =>
      let start := d.gap previous "p1"
      (writeAll children ctx none next start).map
        (finishParagraph isDivision ahead start.top.builder.length)
  | .quote children, ctx, _, _, next, d =>
      let depth := ctx.depth + 1
      ((writeAll children { ctx with depth := depth } none next
        (d.opening (.note .blockQuote (payloadOf depth)))).bind
          Written.closing?).map (Written.setTrace .paragraph)
  | .preformatted children, ctx, ahead, previous, next, d =>
      (writeAll children { ctx with isPreformatted := true } none next (d.gap previous "pre1")).map
        (finishPreformatted ahead)
  | .rule, _, ahead, _, next, d => writeRule ahead next d
  | .details before summary after, ctx, _, previous, next, d =>
      let id := payloadOf d.offset
      let marked := d.markRevealable
      let hiddenBefore :=
        if before.isEmpty then some ⟨marked, none, next⟩
        else
          (writeAll before ctx previous next (marked.opening (.note .detailsContent id))).bind
            Written.closing?
      hiddenBefore.bind fun first =>
        let sign := AnnotatedText.plain ctx.style.summaryPlaceholder.toList
        ((writeAll summary ctx none first.next
          ((first.draft.opening (.note .detailsSummary id)).append sign)).bind
            Written.closing?).bind fun label =>
        (if after.isEmpty then some ⟨label.draft, none, label.next⟩
        else
          (writeAll after ctx (some .block) label.next
            (label.draft.opening (.note .detailsContent id))).bind Written.closing?).map
              (Written.setTrace .block)
  | .unorderedList children, ctx, _, _, next, d =>
      let scope := ListScope.unordered (ctx.style.bullet ctx.depth)
      (((writeAll children { ctx with scope := scope } none next
        (d.opening (.note .unorderedList (payloadOf ctx.depth)))).bind
          Written.closing?).map (Written.setTrace .paragraph)).map (Written.setNext next)
  | .orderedList start children, ctx, _, _, next, d =>
      (((writeAll children { ctx with scope := .ordered } none (start.getD 1)
        (d.opening (.note .orderedList (payloadOf ctx.depth)))).bind
          Written.closing?).map (Written.setTrace .paragraph)).map (Written.setNext next)
  | .listItem value children, ctx, _, _, next, d =>
      match itemLabel? ctx value next with
      | none => writeAll children ctx none next d
      | some (label, tag, number) =>
          let inner := { ctx with depth := ctx.depth + 1 }
          if tag = .unorderedListItem && !Content.hasOwnText children then
            writeAll children inner none number d
          else
            ((writeAll children inner none number
              ((d.opening (.note tag (payloadOf ctx.depth))).append (.plain label))).bind
                Written.closing?).map (Written.withTrace .block)
  | .unsupported _ children, ctx, _, _, next, d => writeAll children ctx none next d

/-- Pieces of content written one after the other, where `previous` is the trace of the
    piece before them. -/
def writeAll : (cs : List Content) → (ctx : Context) → (previous : Option Trace) →
    (next : Int) → (d : Draft) → Option Written
  | [], _, previous, next, d => some ⟨d, previous, next⟩
  | c :: cs, ctx, previous, next, d =>
      (writeOne c ctx cs previous next d).bind fun first =>
        writeAll cs ctx (first.trace.or previous) first.next first.draft

end

end MessageBody
