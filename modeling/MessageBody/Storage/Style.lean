import MessageBody.Annotated.Directive
import MessageBody.Image
import MessageBody.Storage.Shape

/-! # Stored styles and images

    The shapes of directives and images in stored data, and the values that
    objects of these shapes stand for.  An object of the right shape may still
    hold null where a value is needed, or a truth value for a number; then it
    stands for no value. -/

namespace MessageBody

open Storage (Shape)

/-! ## Shapes -/

/-- The fields of a length. -/
def TextUnit.fields : List (String × Option Json × Shape) :=
  [("value", none, .float), ("unit", some (.str "sp"), .any)]

/-- The fields of the look of a run. -/
def RunStyle.fields : List (String × Option Json × Shape) :=
  [ ("color", some .null, .whole),
    ("background", some .null, .whole),
    ("font_size", some .null, .record TextUnit.fields),
    ("font_weight", some .null,
      .choice "FontWeight" [FontWeight.toJson .normal, FontWeight.toJson .bold]),
    ("font_style", some .null,
      .choice "FontStyle" [FontStyle.toJson .normal, FontStyle.toJson .italic]),
    ("font_family", some .null,
      .choice "FontFamily" [FontFamily.toJson .standard, FontFamily.toJson .monospace]),
    ("text_decoration", some .null,
      .choice "TextDecoration"
        [TextDecoration.toJson .none, TextDecoration.toJson .underline,
         TextDecoration.toJson .lineThrough]) ]

/-- The fields of an indentation. -/
def TextIndent.fields : List (String × Option Json × Shape) :=
  [ ("first_line", some (TextUnit.sp 0).toJson, .record TextUnit.fields),
    ("rest_line", some (TextUnit.sp 0).toJson, .record TextUnit.fields) ]

/-- The fields of the look of a paragraph. -/
def ParagraphStyle.fields : List (String × Option Json × Shape) :=
  [ ("line_height", some .null, .record TextUnit.fields),
    ("text_indent", some .null, .record TextIndent.fields) ]

/-- The fields of the look of a link. -/
def LinkStyles.fields : List (String × Option Json × Shape) :=
  [("style", some .null, .record RunStyle.fields)]

/-- The fields of a link that opens an address. -/
def Storage.urlFields : List (String × Option Json × Shape) :=
  [("url", none, .text), ("styles", some .null, .record LinkStyles.fields)]

/-- The fields of an image. -/
def ImageInfo.fields : List (String × Option Json × Shape) :=
  [ ("uri", none, .text),
    ("is_emote", some (.bool false), .flag),
    ("width", some .null, .whole),
    ("height", some .null, .whole),
    ("title", some .null, .text),
    ("alt", some .null, .text) ]

/-! ## Values of these shapes -/

/-- The value of an optional field that `read` understands. -/
def Json.optional {α : Type} (read : Json → Option α) : Json → Option (Option α)
  | .null => some none
  | value => (read value).map some

/-- A whole number. -/
def Json.int? : Json → Option Int
  | .int n => some n
  | _ => none

/-- A text. -/
def Json.text? : Json → Option String
  | .str s => some s
  | _ => none

/-- The length that an object stands for. -/
def TextUnit.ofJson? : Json → Option TextUnit
  | .obj [(_, .float value), (_, .str unit)] => some ⟨value, unit⟩
  | _ => none

/-- The weight that a value stands for. -/
def FontWeight.ofJson? : Json → Option FontWeight
  | .int 400 => some .normal
  | .int 700 => some .bold
  | _ => none

/-- The slant that a value stands for. -/
def FontStyle.ofJson? : Json → Option FontStyle
  | .str "normal" => some .normal
  | .str "italic" => some .italic
  | _ => none

/-- The family that a value stands for. -/
def FontFamily.ofJson? : Json → Option FontFamily
  | .str "default" => some .standard
  | .str "monospace" => some .monospace
  | _ => none

/-- The decoration that a value stands for. -/
def TextDecoration.ofJson? : Json → Option TextDecoration
  | .str "none" => some .none
  | .str "underline" => some .underline
  | .str "line_through" => some .lineThrough
  | _ => none

/-- The look of a run that an object stands for. -/
def RunStyle.ofJson? : Json → Option RunStyle
  | .obj [(_, color), (_, background), (_, fontSize), (_, fontWeight), (_, fontStyle),
      (_, fontFamily), (_, decoration)] => do
      let color ← Json.optional Json.int? color
      let background ← Json.optional Json.int? background
      let fontSize ← Json.optional TextUnit.ofJson? fontSize
      let fontWeight ← Json.optional FontWeight.ofJson? fontWeight
      let fontStyle ← Json.optional FontStyle.ofJson? fontStyle
      let fontFamily ← Json.optional FontFamily.ofJson? fontFamily
      let decoration ← Json.optional TextDecoration.ofJson? decoration
      some ⟨color, background, fontSize, fontWeight, fontStyle, fontFamily, decoration⟩
  | _ => none

/-- The indentation that an object stands for. -/
def TextIndent.ofJson? : Json → Option TextIndent
  | .obj [(_, firstLine), (_, restLine)] => do
      let firstLine ← TextUnit.ofJson? firstLine
      let restLine ← TextUnit.ofJson? restLine
      some ⟨firstLine, restLine⟩
  | _ => none

/-- The look of a paragraph that an object stands for. -/
def ParagraphStyle.ofJson? : Json → Option ParagraphStyle
  | .obj [(_, lineHeight), (_, indent)] => do
      let lineHeight ← Json.optional TextUnit.ofJson? lineHeight
      let indent ← Json.optional TextIndent.ofJson? indent
      some ⟨lineHeight, indent⟩
  | _ => none

/-- The look of a link that an object stands for. -/
def LinkStyles.ofJson? : Json → Option LinkStyles
  | .obj [(_, style)] => (Json.optional RunStyle.ofJson? style).map LinkStyles.mk
  | _ => none

/-- The directive of the given kind that an object stands for. -/
def Directive.ofJson? (kind : DirectiveKind) (value : Json) : Option Directive :=
  match kind with
  | .run => (RunStyle.ofJson? value).map .run
  | .paragraph => (ParagraphStyle.ofJson? value).map .paragraph
  | .url =>
      match value with
      | .obj [(_, .str address), (_, styles)] =>
          (Json.optional LinkStyles.ofJson? styles).map (.url address)
      | _ => none
  | .clickable => none

/-- The image that an object stands for. -/
def ImageInfo.ofJson? : Json → Option ImageInfo
  | .obj [(_, .str uri), (_, .bool isEmote), (_, width), (_, height), (_, title), (_, alt)] => do
      let width ← Json.optional Json.int? width
      let height ← Json.optional Json.int? height
      let title ← Json.optional Json.text? title
      let alt ← Json.optional Json.text? alt
      some ⟨uri, isEmote, width, height, title, alt⟩
  | _ => none

/-! ## Reading directives -/

/-- The kind of directive that goes by a name; what reacts to a click is not
    stored. -/
def DirectiveKind.ofWireName? : String → Option DirectiveKind
  | "run_style" => some .run
  | "paragraph_style" => some .paragraph
  | "url_link" => some .url
  | _ => none

/-- The fields of a stored directive. -/
def DirectiveKind.fields : DirectiveKind → List (String × Option Json × Shape)
  | .run => RunStyle.fields
  | .paragraph => ParagraphStyle.fields
  | .url => Storage.urlFields
  | .clickable => []

/-- The directive of the given kind that `value` gives. -/
def Directive.read (kind : DirectiveKind) (value : Json) : Except Storage.ReadError Directive :=
  (Storage.readRecord kind.fields value).map fun value =>
    (Directive.ofJson? kind value).getD (.stored kind value)

end MessageBody
