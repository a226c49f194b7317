import MessageBody.Annotated.Text
import MessageBody.Decimal.Style
import MessageBody.Json.Description
import MessageBody.Text.Blank
import MessageBody.Text.Quoted

/-! # Listing ranges

    A range is listed on a line of its own: its bounds, what it is, and its
    payload or the fields of its directive.  Fields are written with their names,
    one of several choices with its name and its value. -/

namespace MessageBody.CommandLine

/-- A value with named fields. -/
def fieldsText (kind : String) (fields : List (String × String)) : String :=
  kind ++ "(" ++ ", ".intercalate (fields.map fun (name, value) => name ++ "=" ++ value) ++ ")"

/-- One of several choices. -/
def choiceText (name value : String) : String :=
  "<" ++ name ++ ": " ++ value ++ ">"

/-- An optional value. -/
def optionText {α : Type} (text : α → String) : Option α → String
  | none => "None"
  | some x => text x

def weightText : FontWeight → String
  | .normal => choiceText "FontWeight.NORMAL" "400"
  | .bold => choiceText "FontWeight.BOLD" "700"

def slantText : FontStyle → String
  | .normal => choiceText "FontStyle.NORMAL" (Text.quote "normal")
  | .italic => choiceText "FontStyle.ITALIC" (Text.quote "italic")

def familyText : FontFamily → String
  | .standard => choiceText "FontFamily.DEFAULT" (Text.quote "default")
  | .monospace => choiceText "FontFamily.MONOSPACE" (Text.quote "monospace")

def decorationText : TextDecoration → String
  | .none => choiceText "TextDecoration.NONE" (Text.quote "none")
  | .underline => choiceText "TextDecoration.UNDERLINE" (Text.quote "underline")
  | .lineThrough => choiceText "TextDecoration.LINE_THROUGH" (Text.quote "line_through")

def unitText (u : TextUnit) : String :=
  fieldsText "TextUnit"
    [("value", Decimal.Style.plain.text u.value), ("unit", Text.quote u.unit)]

def runText (s : RunStyle) : String :=
  fieldsText "RunStyle"
    [ ("color", optionText toString s.color),
      ("background", optionText toString s.background),
      ("font_size", optionText unitText s.fontSize),
      ("font_weight", optionText weightText s.fontWeight),
      ("font_style", optionText slantText s.fontStyle),
      ("font_family", optionText familyText s.fontFamily),
      ("text_decoration", optionText decorationText s.decoration) ]

def indentText (i : TextIndent) : String :=
  fieldsText "TextIndent"
    [("first_line", unitText i.firstLine), ("rest_line", unitText i.restLine)]

def paragraphText (s : ParagraphStyle) : String :=
  fieldsText "ParagraphStyle"
    [ ("line_height", optionText unitText s.lineHeight),
      ("text_indent", optionText indentText s.indent) ]

def linkStylesText (s : LinkStyles) : String :=
  fieldsText "TextLinkStyles" [("style", optionText runText s.style)]

/-- The fields of a directive. -/
def directiveText : Directive → String
  | .run style => runText style
  | .paragraph style => paragraphText style
  | .url address styles =>
      fieldsText "UrlLink"
        [("url", Text.quote address), ("styles", optionText linkStylesText styles)]
  | .clickable tag _ styles =>
      fieldsText "ClickableLink"
        [("tag", Text.quote tag), ("styles", optionText linkStylesText styles)]
  | .stored _ value => value.description

/-- What a directive is. -/
def kindText (d : Directive) : String :=
  if d.kind = .clickable then "ClickableLink" else d.kind.wireName

/-- The line that lists a range. -/
def rangeLine (r : Range) : String :=
  let (kind, value) :=
    match r.item with
    | .note tag payload => (tag.wireName, payload)
    | .directive d => (kindText d, directiveText d)
  let line := intervalText (toString r.start) (toString r.stop) ++ " " ++ kind ++ " " ++ value
  String.ofList (Text.trimEnd Text.isBlank line.toList)

end MessageBody.CommandLine
