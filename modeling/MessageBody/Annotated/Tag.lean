/-! # Kinds of annotation -/

namespace MessageBody

/-- What an annotation says about its text. -/
inductive Tag where
  | heading
  | userMention
  | roomMention
  | roomLink
  | messageLink
  | webLink
  | blockQuote
  | unorderedList
  | unorderedListItem
  | orderedList
  | orderedListItem
  | inlineCode
  | blockCode
  | span
  | detailsSummary
  | detailsContent
  | inlineImage
  | horizontalRule
  | clickToReveal
  deriving DecidableEq

namespace Tag

/-- Every kind of annotation. -/
def all : List Tag :=
  [.heading, .userMention, .roomMention, .roomLink, .messageLink, .webLink, .blockQuote,
   .unorderedList, .unorderedListItem, .orderedList, .orderedListItem, .inlineCode, .blockCode,
   .span, .detailsSummary, .detailsContent, .inlineImage, .horizontalRule, .clickToReveal]

/-- The word for the kind in messages. -/
def word : Tag → String
  | .heading => "heading"
  | .userMention => "user_mention"
  | .roomMention => "room_mention"
  | .roomLink => "room_link"
  | .messageLink => "message_link"
  | .webLink => "web_link"
  | .blockQuote => "block_quote"
  | .unorderedList => "unordered_list"
  | .unorderedListItem => "unordered_list_item"
  | .orderedList => "ordered_list"
  | .orderedListItem => "ordered_list_item"
  | .inlineCode => "inline_code"
  | .blockCode => "block_code"
  | .span => "span"
  | .detailsSummary => "details_summary"
  | .detailsContent => "details_content"
  | .inlineImage => "inline_image"
  | .horizontalRule => "horizontal_rule"
  | .clickToReveal => "click_to_reveal"

/-- The name of the kind in stored data. -/
def wireName : Tag → String
  | .heading => "mx:HEADING"
  | .userMention => "mx:USER_MENTION"
  | .roomMention => "mx:ROOM_MENTION"
  | .roomLink => "mx:ROOM_LINK"
  | .messageLink => "mx:MESSAGE_LINK"
  | .webLink => "mx:WEB_LINK"
  | .blockQuote => "mx:BLOCK_QUOTE"
  | .unorderedList => "mx:UNORDERED_LIST"
  | .unorderedListItem => "mx:UNORDERED_LIST_ITEM"
  | .orderedList => "mx:ORDERED_LIST"
  | .orderedListItem => "mx:ORDERED_LIST_ITEM"
  | .inlineCode => "mx:INLINE_CODE"
  | .blockCode => "mx:BLOCK_CODE"
  | .span => "mx:SPAN"
  | .detailsSummary => "mx:DETAILS_SUMMARY"
  | .detailsContent => "mx:DETAILS_CONTENT"
  | .inlineImage => "mx:INLINE_IMAGE"
  | .horizontalRule => "mx:HORIZONTAL_RULE"
  | .clickToReveal => "mx:CLICK_TO_REVEAL"

/-- The kind that a name in stored data means. -/
def ofWireName? (name : String) : Option Tag :=
  all.find? fun tag => tag.wireName = name

/-- A tag is told by its stored name. -/
theorem ofWireName?_wireName (tag : Tag) : ofWireName? tag.wireName = some tag := by
  cases tag <;> decide

end Tag

end MessageBody
