import MessageBody.Annotated.Color
import MessageBody.Annotated.Directive
import MessageBody.Image
import MessageBody.Link.DeepLink
import MessageBody.Markup.Node
import MessageBody.Text.Blank
import MessageBody.Text.Hex
import MessageBody.Text.WholeNumber

/-! # Content

    What a message body is made of, once the names and attributes of its markup
    have been understood.  An element that has no meaning in a message is kept as
    `unsupported`; it shows its content and nothing else. -/

namespace MessageBody

/-- The plain emphases. -/
inductive Emphasis where
  | bold
  | italic
  | strikethrough
  deriving DecidableEq

/-- The look of an emphasis. -/
def Emphasis.style : Emphasis → RunStyle
  | .bold => { fontWeight := some .bold }
  | .italic => { fontStyle := some .italic }
  | .strikethrough => { decoration := some .lineThrough }

/-- The colours of a span, and whether it is a spoiler. -/
structure SpanLook where
  foreground : Option Int
  background : Option Int
  isSpoiler : Bool
  foreground_fits : ∀ color ∈ foreground, Color.Fits color
  background_fits : ∀ color ∈ background, Color.Fits color
  deriving DecidableEq

/-- A piece of content. -/
inductive Content where
  /-- A run of text. -/
  | text (data : List Char)
  /-- Bold, italic or struck-through content. -/
  | emphasis (emphasis : Emphasis) (children : List Content)
  /-- Code: inline, or a block inside preformatted text. -/
  | code (children : List Content)
  /-- Content with colours, or a spoiler. -/
  | span (look : SpanLook) (children : List Content)
  /-- A link. -/
  | anchor (address : String) (children : List Content)
  | lineBreak
  /-- An image from the media store. -/
  | image (info : ImageInfo)
  /-- An image from elsewhere, which shows only what is inside it. -/
  | foreignImage (children : List Content)
  /-- A heading; `level` is the name of its element. -/
  | heading (level : String) (children : List Content)
  /-- A paragraph, or a division, which keeps less distance. -/
  | paragraph (isDivision : Bool) (children : List Content)
  | quote (children : List Content)
  | preformatted (children : List Content)
  /-- A horizontal rule. -/
  | rule
  /-- A summary and the content around it that is hidden until it is revealed. -/
  | details (before summary after : List Content)
  | unorderedList (children : List Content)
  /-- An ordered list and the number it starts with, if one is given. -/
  | orderedList (start : Option Int) (children : List Content)
  /-- A list item and the number it has in an ordered list, if one is given. -/
  | listItem (value : Option Int) (children : List Content)
  | unsupported (name : String) (children : List Content)

namespace Content

/-! ## Understanding elements -/

/-- The value of an attribute. -/
def attribute? (name : String) (attributes : List (String × String)) : Option String :=
  attributes.lookup name

/-- The 32-bit whole number that an attribute holds. -/
def numberAttribute? (name : String) (attributes : List (String × String)) : Option Int :=
  (attribute? name attributes).bind fun value => Text.wholeNumber? value.toList

/-- The opaque colour of six hexadecimal digits, with or without a number sign in
    front. -/
def hexColor? (s : List Char) : Option Int :=
  let digits := match s with
    | '#' :: rest => rest
    | _ => s
  if digits.length = 6 then (Text.hexNumber? digits).map fun n => (0xFF000000 + n : Nat)
  else none

/-- The colour that an attribute holds. -/
def colorAttribute? (name : String) (attributes : List (String × String)) : Option Int :=
  (attribute? name attributes).bind fun value => hexColor? value.toList

/-- A colour in hexadecimal digits has 32 bits. -/
theorem fits_of_hexColor? {s : List Char} {color : Int} (h : hexColor? s = some color) :
    Color.Fits color := by
  unfold hexColor? at h
  extract_lets digits at h
  by_cases hlength : digits.length = 6
  · obtain ⟨n, hn, rfl⟩ := Option.map_eq_some_iff.mp ((if_pos hlength).symm.trans h)
    have hlt := Text.lt_of_hexNumber? hn
    rw [hlength, show Nat.pow 16 6 = 16777216 from rfl] at hlt
    constructor <;> omega
  · exact nomatch (if_neg hlength).symm.trans h

/-- A colour that is given as an attribute has 32 bits. -/
theorem fits_of_colorAttribute? {name : String} {attributes : List (String × String)}
    {color : Int} (h : colorAttribute? name attributes = some color) : Color.Fits color := by
  obtain ⟨value, -, hcolor⟩ := Option.bind_eq_some_iff.mp h
  exact fits_of_hexColor? hcolor

/-- The value of an attribute that is not blank. -/
def visibleAttribute? (name : String) (attributes : List (String × String)) : Option String :=
  (attribute? name attributes).filter fun value => Text.hasOther Text.isBlank value.toList

/-- The look that the attributes of a span give. -/
def spanLook (attributes : List (String × String)) : SpanLook where
  foreground :=
    (colorAttribute? "data-mx-color" attributes).or (colorAttribute? "color" attributes)
  background := colorAttribute? "data-mx-bg-color" attributes
  isSpoiler := (attribute? "data-mx-spoiler" attributes).isSome
  foreground_fits := by
    intro color h
    rcases Option.or_eq_some_iff.mp h with h | ⟨-, h⟩ <;> exact fits_of_colorAttribute? h
  background_fits := fun _ => fits_of_colorAttribute?

/-- The image that the attributes describe, if it is in the media store. -/
def imageInfo? (attributes : List (String × String)) : Option ImageInfo :=
  let uri := (attribute? "src" attributes).getD ""
  if Link.isMedia uri.toList then
    some
      { uri := uri
        isEmote := (attribute? "data-mx-emoticon" attributes).isSome
        width := numberAttribute? "width" attributes
        height := numberAttribute? "height" attributes
        title := visibleAttribute? "title" attributes
        alt := visibleAttribute? "alt" attributes }
  else none

/-- The element that labels a details element. -/
def isSummary : Content → Bool
  | .unsupported name _ => name == "summary"
  | _ => false

/-- A details element.  Without a summary, or with nothing beside it, nothing is
    hidden. -/
def detailsOf (children : List Content) : Content :=
  let before := children.takeWhile fun c => !c.isSummary
  match children.dropWhile fun c => !c.isSummary with
  | summary :: after =>
      if before.isEmpty && after.isEmpty then .unsupported "details" children
      else .details before [summary] after
  | [] => .unsupported "details" children

/-- The content of a preformatted element without the one line break that may
    follow its start tag. -/
def withoutFirstBreak : List Content → List Content
  | .text ('\n' :: data) :: rest => if data.isEmpty then rest else .text data :: rest
  | children => children

/-- The content that an element is. -/
def ofElement (name : String) (attributes : List (String × String)) (children : List Content) :
    Content :=
  match name with
  | "h1" | "h2" | "h3" | "h4" | "h5" | "h6" => .heading name children
  | "b" | "strong" => .emphasis .bold children
  | "i" | "em" => .emphasis .italic children
  | "s" | "del" => .emphasis .strikethrough children
  | "code" => .code children
  | "span" | "font" => .span (spanLook attributes) children
  | "p" => .paragraph false children
  | "div" => .paragraph true children
  | "blockquote" => .quote children
  | "pre" => .preformatted (withoutFirstBreak children)
  | "hr" => .rule
  | "details" => detailsOf children
  | "br" => .lineBreak
  | "a" => .anchor ((attribute? "href" attributes).getD "") children
  | "img" =>
      match imageInfo? attributes with
      | some info => .image info
      | none => .foreignImage children
  | "ul" => .unorderedList children
  | "ol" => .orderedList (numberAttribute? "start" attributes) children
  | "li" => .listItem (numberAttribute? "value" attributes) children
  | _ => .unsupported name children

mutual

/-- The content that a node of the tree is. -/
def ofNode : Markup.Node → Content
  | .text data => .text data
  | .element name attributes children => ofElement name attributes (ofNodes children)

/-- The content that nodes of the tree are, one piece for each. -/
def ofNodes : List Markup.Node → List Content
  | [] => []
  | node :: nodes => ofNode node :: ofNodes nodes

end

/-! ## Looking ahead -/

/-- A run of text that holds nothing but white space of markup. -/
def isBlankText : Content → Bool
  | .text data => data.all Text.isMarkupBlank
  | _ => false

/-- The first piece that is not blank text. -/
def firstVisible? (ahead : List Content) : Option Content :=
  ahead.find? fun c => !c.isBlankText

/-- White space in front of such content shows. -/
def keepsSpaceBefore : Content → Bool
  | .text _ | .emphasis _ _ | .code _ | .span _ _ | .anchor _ _ | .lineBreak | .image _
  | .foreignImage _ | .paragraph false _ => true
  | _ => false

/-- Content that gets the style of a paragraph as a whole, which implies a line
    break in front of it. -/
def impliesBreak : Content → Bool
  | .quote _ | .unorderedList _ | .orderedList _ _ => true
  | _ => false

/-- A paragraph proper. -/
def isParagraph : Content → Bool
  | .paragraph false _ => true
  | _ => false

/-- White space in front of what is ahead does not show. -/
def trimsBefore (ahead : List Content) : Bool :=
  match firstVisible? ahead with
  | none => true
  | some c => !c.keepsSpaceBefore

/-- What is ahead implies a line break in front of it. -/
def breaksBefore (ahead : List Content) : Bool :=
  match firstVisible? ahead with
  | none => false
  | some c => c.impliesBreak

/-- What is ahead is a paragraph proper. -/
def paragraphAhead (ahead : List Content) : Bool :=
  match firstVisible? ahead with
  | none => false
  | some c => c.isParagraph

/-! ## Text in content -/

mutual

/-- All text in a piece of content, in document order. -/
def data : Content → List Char
  | .text data => data
  | .emphasis _ children => dataOf children
  | .code children => dataOf children
  | .span _ children => dataOf children
  | .anchor _ children => dataOf children
  | .lineBreak => []
  | .image _ => []
  | .foreignImage children => dataOf children
  | .heading _ children => dataOf children
  | .paragraph _ children => dataOf children
  | .quote children => dataOf children
  | .preformatted children => dataOf children
  | .rule => []
  | .details before summary after => dataOf before ++ (dataOf summary ++ dataOf after)
  | .unorderedList children => dataOf children
  | .orderedList _ children => dataOf children
  | .listItem _ children => dataOf children
  | .unsupported _ children => dataOf children

/-- All text in pieces of content, in document order. -/
def dataOf : List Content → List Char
  | [] => []
  | c :: cs => c.data ++ dataOf cs

end

/-- A nested list. -/
def isList : Content → Bool
  | .unorderedList _ | .orderedList _ _ => true
  | _ => false

/-- Some of the pieces, nested lists left out, holds text that shows. -/
def hasOwnText (children : List Content) : Bool :=
  children.any fun c => !c.isList && Text.hasOther Text.isBlank (Text.shown c.data)

end Content

end MessageBody
