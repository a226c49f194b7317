import MessageBody.Decimal.Style
import MessageBody.Json.Basic
import MessageBody.Text.Quoted

/-! # Values in messages

    How an error message shows the value it complains about. -/

namespace MessageBody.Json

mutual

/-- The value as a message shows it. -/
def description : Json → String
  | .null => "None"
  | .bool true => "True"
  | .bool false => "False"
  | .int n => toString n
  | .float x => Decimal.Style.plain.text x
  | .str s => Text.quote s
  | .arr [] => "[]"
  | .arr (item :: items) => "[" ++ description item ++ itemsDescription items ++ "]"
  | .obj [] => "\x7b\x7d"
  | .obj ((key, value) :: members) =>
      "\x7b" ++ Text.quote key ++ ": " ++ description value
        ++ membersDescription members ++ "\x7d"

/-- The items after the first. -/
def itemsDescription : List Json → String
  | [] => ""
  | item :: items => ", " ++ description item ++ itemsDescription items

/-- The members after the first. -/
def membersDescription : List (String × Json) → String
  | [] => ""
  | (key, value) :: members =>
      ", " ++ Text.quote key ++ ": " ++ description value ++ membersDescription members

end

/-- The value as plain text: a text as it is, any other value as a message shows
    it. -/
def plainText : Json → String
  | .str s => s
  | value => value.description

end MessageBody.Json
