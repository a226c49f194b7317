import MessageBody.Decimal.Number
import MessageBody.Json.Description
import MessageBody.Text.Numeral

/-! # Shapes of stored values

    A field of stored data has a shape.  Reading is lenient: a value of another
    kind is converted where that has a meaning, members that no field asks for
    are passed over, and a field that is missing takes its default.  Null stands
    for any value.  What comes out has the fields of its shape in their order. -/

namespace MessageBody.Storage

/-- Why stored data cannot be read. -/
inductive ReadError where
  /-- The text is not JSON. -/
  | malformed
  /-- Brackets are nested too deeply. -/
  | tooDeep
  /-- A number has too many digits. -/
  | tooManyDigits (refusal : Text.TooManyDigits)
  /-- There is nothing by this key. -/
  | missing (key : Json)
  /-- Members are asked of a value that has none. -/
  | notObject
  /-- A value cannot be used where it stands. -/
  | wrongKind
  /-- A value is not among the choices of this name. -/
  | notChoice (value : Json) (choices : String)
  /-- A text is not a whole number. -/
  | notWhole (text : String)
  /-- A text is not a number. -/
  | notNumber (text : String)
  /-- What is not a number has no whole part. -/
  | wholeOfNaN
  /-- Infinity has no whole part. -/
  | wholeOfInfinity
  /-- A whole number is beyond the floating-point numbers. -/
  | beyondFloats (refusal : Decimal.BeyondFloats)
  /-- A range starts before the text or ends before it starts. -/
  | bounds (start stop : Json)
  /-- A range ends after the text. -/
  | beyond (start stop : Json) (length : Nat)

/-- An interval between stored bounds as messages show it. -/
def interval (start stop : Json) : String :=
  "[" ++ start.plainText ++ ", " ++ stop.plainText ++ ")"

/-- The text of the error, empty where the cause says it all. -/
def ReadError.message : ReadError → String
  | .malformed | .tooDeep | .notObject | .wrongKind => ""
  | .tooManyDigits refusal => refusal.message
  | .missing key => key.description
  | .notChoice value choices => value.description ++ " is not a valid " ++ choices
  | .notWhole text =>
      "invalid literal for int() with base 10: "
        ++ String.ofList ((Text.quoted text.toList).take 200)
  | .notNumber text => "could not convert string to float: " ++ Text.quote text
  | .wholeOfNaN => "cannot convert float NaN to integer"
  | .wholeOfInfinity => "cannot convert float infinity to integer"
  | .beyondFloats refusal => refusal.message
  | .bounds start stop => "invalid range bounds " ++ interval start stop
  | .beyond start stop length =>
      "range " ++ interval start stop ++ " exceeds text length " ++ toString length

/-! ## Values as numbers -/

/-- The number that a value counts as; the truth values count as one and zero. -/
def number? : Json → Option Number
  | .int n => some (.whole n)
  | .float x => some (.float x)
  | .bool b => some (.whole (if b then 1 else 0))
  | _ => none

/-- Two values without items count as the same: numbers by their size, anything
    else when it is alike. -/
def sameScalar (a b : Json) : Bool :=
  match number? a, number? b with
  | some x, some y => x.compare? y == some .eq
  | none, none =>
      match a, b with
      | .str s, .str t => s == t
      | .null, .null => true
      | _, _ => false
  | _, _ => false

/-! ## Conversions -/

/-- A value as a whole number; a truth value stays what it is. -/
def asWhole : Json → Except ReadError Json
  | .float x =>
      match Decimal.truncate? x with
      | some n => .ok (.int n)
      | none => .error (if x.isNaN then .wholeOfNaN else .wholeOfInfinity)
  | .str s =>
      match Text.wholeNumeral s.toList with
      | .ok n => .ok (.int n)
      | .error .malformed => .error (.notWhole s)
      | .error (.tooManyDigits refusal) => .error (.tooManyDigits refusal)
  | .arr _ | .obj _ => .error .wrongKind
  | value => .ok value

/-- A value as a floating-point number. -/
def asFloat : Json → Except ReadError Json
  | .int n =>
      match Decimal.ofWhole n with
      | .ok x => .ok (.float x)
      | .error refusal => .error (.beyondFloats refusal)
  | .bool b => .ok (.float (if b then 1 else 0))
  | .str s =>
      match Text.floatNumeral? s.toList with
      | some x => .ok (.float x)
      | none => .error (.notNumber s)
  | .arr _ | .obj _ => .error .wrongKind
  | value => .ok value

/-- A value as a truth value: zero and what is empty are false. -/
def asFlag : Json → Json
  | .null => .null
  | .bool b => .bool b
  | .int n => .bool (n != 0)
  | .float x => .bool (!(x == 0))
  | .str s => .bool (s != "")
  | .arr items => .bool !items.isEmpty
  | .obj members => .bool !members.isEmpty

/-- A value as a text. -/
def asText : Json → Json
  | .null => .null
  | value => .str value.plainText

/-- A value as one of the given choices. -/
def asChoice (name : String) (choices : List Json) (value : Json) : Except ReadError Json :=
  match value with
  | .null => .ok .null
  | _ =>
      match choices.find? fun choice => sameScalar choice value with
      | some choice => .ok choice
      | none => .error (.notChoice value name)

/-! ## Shapes -/

/-- The shape of a value. -/
inductive Shape where
  /-- A whole number. -/
  | whole
  /-- A floating-point number. -/
  | float
  | text
  /-- A truth value. -/
  | flag
  /-- Anything, kept as it is. -/
  | any
  /-- One of the given values; `name` is what they are called. -/
  | choice (name : String) (choices : List Json)
  /-- An object with fields: their keys, the values they have when they are
      missing, and their shapes. -/
  | record (fields : List (String × Option Json × Shape))

/-- The value of a field before it is converted. -/
def fieldValue (key : String) (default? : Option Json) (members : List (String × Json)) :
    Except ReadError Json :=
  match (Json.member? key members).or default? with
  | some value => .ok value
  | none => .error (.missing (.str key))

mutual

/-- The value of the shape that `value` gives. -/
def Shape.read : Shape → Json → Except ReadError Json
  | .whole, value => asWhole value
  | .float, value => asFloat value
  | .text, value => .ok (asText value)
  | .flag, value => .ok (asFlag value)
  | .any, value => .ok value
  | .choice name choices, value => asChoice name choices value
  | .record fields, value =>
      match value with
      | .null => .ok .null
      | .obj members => (readFields fields members).map Json.obj
      | _ => .error .notObject

/-- The fields that an object with the given members gives, in their order. -/
def readFields : List (String × Option Json × Shape) → List (String × Json) →
    Except ReadError (List (String × Json))
  | [], _ => .ok []
  | (key, default?, shape) :: fields, members => do
      let value ← fieldValue key default? members
      let converted ← shape.read value
      let rest ← readFields fields members
      .ok ((key, converted) :: rest)

end

/-- An object with the given fields.  Unlike in a field, null is none. -/
def readRecord (fields : List (String × Option Json × Shape)) (value : Json) :
    Except ReadError Json :=
  match value with
  | .obj members => (readFields fields members).map Json.obj
  | _ => .error .notObject

end MessageBody.Storage
