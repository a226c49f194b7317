import MessageBody.Decimal.Style
import MessageBody.Json.Basic
import MessageBody.Text.Hex

/-! # Writing JSON

    A value is written on one line, with a space after each comma and colon, or
    with one item to a line when an indentation is given.  Text is written with
    the short escapes, and in ASCII only where that is asked for. -/

namespace MessageBody.Json

/-- How JSON is written. -/
structure Layout where
  /-- Write every character outside printable ASCII as an escape. -/
  ascii : Bool
  /-- The spaces per level when there is one item to a line. -/
  indent : Option Nat

/-- On one line, in ASCII. -/
def Layout.payload : Layout where
  ascii := true
  indent := none

/-- The escape of one 16-bit unit. -/
def unitEscape (n : Nat) : List Char :=
  '\\' :: 'u' :: Text.hexDigits 4 n

/-- The escape of a character by one 16-bit unit, or by two above U+FFFF. -/
def charEscape (c : Char) : List Char :=
  let n := c.toNat
  if n < 0x10000 then unitEscape n
  else unitEscape (0xD800 + (n - 0x10000) / 0x400) ++ unitEscape (0xDC00 + (n - 0x10000) % 0x400)

/-- How the character `c` is written inside a string. -/
def escapedChar (ascii : Bool) (c : Char) : List Char :=
  if c == '\x22' then ['\\', '\x22']
  else if c == '\\' then ['\\', '\\']
  else if c == '\n' then ['\\', 'n']
  else if c == '\r' then ['\\', 'r']
  else if c == '\t' then ['\\', 't']
  else if c == '\x0c' then ['\\', 'f']
  else if c == '\x08' then ['\\', 'b']
  else if c.toNat < 0x20 || (ascii && 0x7F ≤ c.toNat) then charEscape c
  else [c]

/-- The text `s` as a JSON string. -/
def stringText (ascii : Bool) (s : List Char) : List Char :=
  '\x22' :: s.flatMap (escapedChar ascii) ++ ['\x22']

/-- The whole number `n` in base ten. -/
def intText (n : Int) : List Char :=
  (toString n).toList

/-- What separates a bracket from the item after it, `level` brackets deep. -/
def Layout.lineBreak (layout : Layout) (level : Nat) : List Char :=
  match layout.indent with
  | none => []
  | some width => '\n' :: List.replicate (width * level) ' '

/-- What separates an item from the one after it, `level` brackets deep. -/
def Layout.separator (layout : Layout) (level : Nat) : List Char :=
  match layout.indent with
  | none => [',', ' ']
  | some _ => ',' :: layout.lineBreak level

mutual

/-- The text of a value that stands `level` brackets deep. -/
def textAt (layout : Layout) (level : Nat) : Json → List Char
  | .null => ['n', 'u', 'l', 'l']
  | .bool true => ['t', 'r', 'u', 'e']
  | .bool false => ['f', 'a', 'l', 's', 'e']
  | .int n => intText n
  | .float x => (Decimal.Style.stored.text x).toList
  | .str s => stringText layout.ascii s.toList
  | .arr [] => ['[', ']']
  | .arr (item :: items) =>
      '[' :: layout.lineBreak (level + 1) ++ textAt layout (level + 1) item
        ++ itemsText layout (level + 1) items ++ layout.lineBreak level ++ [']']
  | .obj [] => ['\x7b', '\x7d']
  | .obj ((key, value) :: members) =>
      '\x7b' :: layout.lineBreak (level + 1) ++ stringText layout.ascii key.toList
        ++ ':' :: ' ' :: textAt layout (level + 1) value
        ++ membersText layout (level + 1) members ++ layout.lineBreak level ++ ['\x7d']

/-- The text of the items after the first, each with the separator before it. -/
def itemsText (layout : Layout) (level : Nat) : List Json → List Char
  | [] => []
  | item :: items =>
      layout.separator level ++ textAt layout level item ++ itemsText layout level items

/-- The text of the members after the first, each with the separator before
    it. -/
def membersText (layout : Layout) (level : Nat) : List (String × Json) → List Char
  | [] => []
  | (key, value) :: members =>
      layout.separator level ++ stringText layout.ascii key.toList ++ ':' :: ' '
        :: textAt layout level value ++ membersText layout level members

end

/-- The text of a value. -/
def text (layout : Layout) (value : Json) : List Char :=
  textAt layout 0 value

/-- The text of a value as a string. -/
def write (layout : Layout) (value : Json) : String :=
  String.ofList (value.text layout)

end MessageBody.Json
