import MessageBody.Decimal.Reading
import MessageBody.Json.Basic

/-! # Presentation directives

    A directive says what a stretch of text looks like or does, without saying
    how a screen draws it.  Bold, italic and struck-through runs come with the
    text; the other directives are derived from its annotations. -/

namespace MessageBody

/-- A typographic length: scaled pixels (`sp`), or relative to the font size
    (`em`). -/
structure TextUnit where
  value : Float
  unit : String

namespace TextUnit

/-- A length in scaled pixels. -/
def sp (value : Float) : TextUnit := ⟨value, "sp"⟩

/-- A length relative to the font size. -/
def em (value : Float) : TextUnit := ⟨value, "em"⟩

/-- Whether the length is in scaled pixels. -/
def isSp (u : TextUnit) : Bool := u.unit == "sp"

/-- The length times a factor. -/
def scale (u : TextUnit) (factor : Float) : TextUnit :=
  ⟨u.value * factor, u.unit⟩

/-- The length `n` times, unless `n` is beyond the floating-point numbers. -/
def times (u : TextUnit) (n : Int) : Except Decimal.BeyondFloats TextUnit :=
  (Decimal.ofWhole n).map u.scale

/-- Why two lengths have no sum: their units differ. -/
structure Mismatch where
  first : String
  second : String
  deriving DecidableEq

/-- The text of the error. -/
def Mismatch.message (e : Mismatch) : String :=
  "cannot add " ++ e.second ++ " to " ++ e.first

/-- The sum of two lengths of one unit. -/
def add (u v : TextUnit) : Except Mismatch TextUnit :=
  if v.unit = u.unit then .ok ⟨u.value + v.value, u.unit⟩ else .error ⟨u.unit, v.unit⟩

end TextUnit

inductive FontWeight where
  | normal
  | bold
  deriving DecidableEq

inductive FontStyle where
  | normal
  | italic
  deriving DecidableEq

inductive FontFamily where
  | standard
  | monospace
  deriving DecidableEq

inductive TextDecoration where
  | none
  | underline
  | lineThrough
  deriving DecidableEq

/-- The look of a run of text.  What is not set is inherited. -/
structure RunStyle where
  color : Option Int := none
  background : Option Int := none
  fontSize : Option TextUnit := none
  fontWeight : Option FontWeight := none
  fontStyle : Option FontStyle := none
  fontFamily : Option FontFamily := none
  decoration : Option TextDecoration := none

/-- The indentation of a paragraph. -/
structure TextIndent where
  firstLine : TextUnit
  restLine : TextUnit

/-- The look of a paragraph.  It implies a line break at its bounds. -/
structure ParagraphStyle where
  lineHeight : Option TextUnit := none
  indent : Option TextIndent := none

/-- The look of a link. -/
structure LinkStyles where
  style : Option RunStyle := none

/-- The kinds of directive. -/
inductive DirectiveKind where
  | run
  | paragraph
  | url
  | clickable
  deriving DecidableEq

/-- The name of the kind. -/
def DirectiveKind.wireName : DirectiveKind → String
  | .run => "run_style"
  | .paragraph => "paragraph_style"
  | .url => "url_link"
  | .clickable => "clickable_link"

/-- A presentation directive. -/
inductive Directive where
  /-- The look of a run. -/
  | run (style : RunStyle)
  /-- The look of a paragraph. -/
  | paragraph (style : ParagraphStyle)
  /-- A link that opens an address. -/
  | url (address : String) (styles : Option LinkStyles)
  /-- A region that reacts to a click, by toggling the item `target` if there is
      one. -/
  | clickable (tag : String) (target : Option Int) (styles : Option LinkStyles)
  /-- A directive from stored data with values beyond those above, kept as it
      was written. -/
  | stored (kind : DirectiveKind) (value : Json)

namespace Directive

/-- What kind of directive it is. -/
def kind : Directive → DirectiveKind
  | .run _ => .run
  | .paragraph _ => .paragraph
  | .url _ _ => .url
  | .clickable _ _ _ => .clickable
  | .stored kind _ => kind

/-- Whether it reacts to a click. -/
def isLink (d : Directive) : Bool :=
  d.kind = .url || d.kind = .clickable

end Directive

/-! ## Directives as JSON -/

/-- The value of an optional field. -/
def Json.ofOption {α : Type} (toJson : α → Json) : Option α → Json
  | none => .null
  | some x => toJson x

def TextUnit.toJson (u : TextUnit) : Json :=
  .obj [("value", .float u.value), ("unit", .str u.unit)]

def FontWeight.toJson : FontWeight → Json
  | .normal => .int 400
  | .bold => .int 700

def FontStyle.toJson : FontStyle → Json
  | .normal => .str "normal"
  | .italic => .str "italic"

def FontFamily.toJson : FontFamily → Json
  | .standard => .str "default"
  | .monospace => .str "monospace"

def TextDecoration.toJson : TextDecoration → Json
  | .none => .str "none"
  | .underline => .str "underline"
  | .lineThrough => .str "line_through"

def RunStyle.toJson (s : RunStyle) : Json :=
  .obj
    [ ("color", .ofInt? s.color),
      ("background", .ofInt? s.background),
      ("font_size", .ofOption TextUnit.toJson s.fontSize),
      ("font_weight", .ofOption FontWeight.toJson s.fontWeight),
      ("font_style", .ofOption FontStyle.toJson s.fontStyle),
      ("font_family", .ofOption FontFamily.toJson s.fontFamily),
      ("text_decoration", .ofOption TextDecoration.toJson s.decoration) ]

def TextIndent.toJson (i : TextIndent) : Json :=
  .obj [("first_line", i.firstLine.toJson), ("rest_line", i.restLine.toJson)]

def ParagraphStyle.toJson (s : ParagraphStyle) : Json :=
  .obj
    [ ("line_height", .ofOption TextUnit.toJson s.lineHeight),
      ("text_indent", .ofOption TextIndent.toJson s.indent) ]

def LinkStyles.toJson (s : LinkStyles) : Json :=
  .obj [("style", .ofOption RunStyle.toJson s.style)]

/-- The value of the directive as JSON. -/
def Directive.toJson : Directive → Json
  | .run style => style.toJson
  | .paragraph style => style.toJson
  | .url address styles =>
      .obj [("url", .str address), ("styles", .ofOption LinkStyles.toJson styles)]
  | .clickable tag _ styles =>
      .obj [("tag", .str tag), ("styles", .ofOption LinkStyles.toJson styles)]
  | .stored _ value => value

end MessageBody
