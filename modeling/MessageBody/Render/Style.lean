import MessageBody.Annotated.Text
import MessageBody.Image

/-! # The style of rendering

    The choices that are made while a body is rendered, before anything is known
    of the screen: the texts that stand for bullets, mentions and images, and
    what a deep link shows. -/

namespace MessageBody

/-- The choices made while rendering. -/
structure RenderStyle where
  /-- The bullet of an unordered list at a nesting depth, with the space after
      it. -/
  bullet : Nat → String
  /-- The text of a mention of the whole room. -/
  roomMention : String
  /-- What a link to a user shows, from the user's id and the rendered content. -/
  userText : String → AnnotatedText → AnnotatedText
  /-- What a link to a room shows, from the room, the servers and the content. -/
  roomText : String → List String → AnnotatedText → AnnotatedText
  /-- What a link to a message shows, from the room, the message, the servers and
      the content. -/
  messageText : String → String → List String → AnnotatedText → AnnotatedText
  /-- The text that keeps room for the sign in front of a summary. -/
  summaryPlaceholder : String
  /-- The text that stands for an image. -/
  imageText : ImageInfo → String
  /-- Whether web addresses in text become links. -/
  autoLink : Bool

namespace RenderStyle

/-- The bullet where nothing else is chosen. -/
def standardBullet : String := "\u2022 "

/-- How a mention of the whole room is written. -/
def mention : String := "@room"

/-- The text that stands for an image without a title. -/
def standardImageText (info : ImageInfo) : String :=
  let visible := fun s : String => s ≠ ""
  ((info.title.filter visible).or (info.alt.filter visible)).getD "IMG"

/-- The choices where nothing else is said: links show their content, and two
    figure spaces keep room for the sign in front of a summary. -/
def standard : RenderStyle where
  bullet := fun _ => standardBullet
  roomMention := mention
  userText := fun _ content => content
  roomText := fun _ _ content => content
  messageText := fun _ _ _ content => content
  summaryPlaceholder := "\u2007\u2007"
  imageText := standardImageText
  autoLink := true

/-- The style lets every deep link show its content unchanged. -/
structure KeepsLinkContent (style : RenderStyle) : Prop where
  user : ∀ id content, style.userText id content = content
  room : ∀ id via content, style.roomText id via content = content
  message : ∀ id event via content, style.messageText id event via content = content

/-- The standard style shows links as they are. -/
theorem standard_keepsLinkContent : standard.KeepsLinkContent :=
  ⟨fun _ _ => rfl, fun _ _ _ => rfl, fun _ _ _ _ => rfl⟩

end RenderStyle

end MessageBody
