import MessageBody.Annotated.Text
import MessageBody.Link.Occurrence
import MessageBody.Link.Payload
import MessageBody.Render.Style
import MessageBody.Text.Search

/-! # Mentions and addresses in running text

    In running text the mention of the whole room is replaced by the text chosen
    for it, and web addresses become links.  An address that is a deep link is
    annotated as one, but shows itself. -/

namespace MessageBody

/-- The annotation that a deep link gets. -/
def DeepLink.tag : DeepLink → Tag
  | .user _ _ => .userMention
  | .room _ _ _ => .roomLink
  | .message _ _ _ _ => .messageLink

/-- The annotation of a link to `address`. -/
def linkItem (address : List Char) : Item :=
  match DeepLink.ofUrl? address with
  | some link => .note link.tag link.payload
  | none => .note .webLink (String.ofList address)

/-- The links on the web addresses in `s`. -/
def addressRanges (s : List Char) : List Range :=
  (Link.occurrences s).map fun o => ⟨linkItem (o.slice s), o.start, o.stop⟩

/-- Text with its web addresses as links, if `autoLink` says so. -/
def linkedText (autoLink : Bool) (s : List Char) : AnnotatedText :=
  ⟨s, if autoLink then addressRanges s else []⟩

/-- The mention of the whole room. -/
def mentionText (style : RenderStyle) : AnnotatedText :=
  (AnnotatedText.plain style.roomMention.toList).marked (.note .roomMention "")

/-- Running text with its mentions, if they are allowed, and links. -/
def richText (style : RenderStyle) (allowMention autoLink : Bool) (s : List Char) :
    AnnotatedText :=
  if allowMention then
    match Text.stretches RenderStyle.mention.toList s with
    | [] => .empty
    | first :: rest =>
        linkedText autoLink first
          ++ .concat (rest.map fun stretch => mentionText style ++ linkedText autoLink stretch)
  else linkedText autoLink s

end MessageBody
