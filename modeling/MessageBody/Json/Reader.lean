import MessageBody.Decimal.Reading
import MessageBody.Json.Basic
import MessageBody.Text.Hex
import MessageBody.Text.WholeNumber

/-! # Reading JSON

    The reader accepts JSON and three further names: `NaN`, `Infinity` and
    `-Infinity`.  A number with a fraction or an exponent is a floating-point
    number, any other a whole number.  Of two members with one key the later
    value counts, in the place of the first.  A whole number of too many digits
    is refused where it stands, and so are brackets nested too deeply. -/

namespace MessageBody.Json

/-- Why a text cannot be read. -/
inductive ReadError where
  /-- The text is not JSON. -/
  | malformed
  /-- A whole number has too many digits. -/
  | tooManyDigits (refusal : Text.TooManyDigits)
  /-- Brackets are nested too deeply. -/
  | tooDeep
  deriving DecidableEq

/-- How deeply brackets may be nested. -/
def depthLimit : Nat := 985

/-- The white space between tokens. -/
def isSpace (c : Char) : Bool :=
  c == ' ' || c == '\t' || c == '\n' || c == '\r'

/-- `s` from its first character that is not white space. -/
def skipSpace (s : List Char) : List Char :=
  s.dropWhile isSpace

/-- The number of four hexadecimal digits at the start of `s`, and the rest. -/
def unit? : List Char → Option (Nat × List Char)
  | a :: b :: c :: d :: rest => (Text.hexNumber? [a, b, c, d]).map (·, rest)
  | _ => none

/-- The character of the 16-bit units `high` and `low` when they form a pair. -/
def pair? (high low : Nat) : Option Char :=
  if 0xD800 ≤ high ∧ high < 0xDC00 ∧ 0xDC00 ≤ low ∧ low < 0xE000 then
    some (Char.ofNat (0x10000 + (high - 0xD800) * 0x400 + (low - 0xDC00)))
  else none

/-- The character of a single 16-bit unit; half of a pair stands for the
    replacement character. -/
def unitChar (n : Nat) : Char :=
  if 0xD800 ≤ n ∧ n < 0xE000 then '\ufffd' else Char.ofNat n

/-- The character of a one-letter escape. -/
def escape? : Char → Option Char
  | '\x22' => some '\x22'
  | '\\' => some '\\'
  | '/' => some '/'
  | 'b' => some '\x08'
  | 'f' => some '\x0c'
  | 'n' => some '\n'
  | 'r' => some '\r'
  | 't' => some '\t'
  | _ => none

/-- The escape at the start of `s`, after its backslash: its character and the
    rest. -/
def escapeAt? : List Char → Option (Char × List Char)
  | 'u' :: s =>
      match unit? s with
      | none => none
      | some (high, rest) =>
          let alone := some (unitChar high, rest)
          match rest with
          | '\\' :: 'u' :: t =>
              match unit? t with
              | some (low, rest') =>
                  match pair? high low with
                  | some c => some (c, rest')
                  | none => alone
              | none => alone
          | _ => alone
  | c :: s => (escape? c).map (·, s)
  | [] => none

/-- The characters of a string up to its closing quotation mark, and the rest.
    `fuel` bounds the number of characters. -/
def stringFrom : Nat → List Char → Option (List Char × List Char)
  | 0, _ => none
  | _ + 1, [] => none
  | fuel + 1, c :: s =>
      if c == '\x22' then some ([], s)
      else if c == '\\' then
        match escapeAt? s with
        | none => none
        | some (c, s) => (stringFrom fuel s).map fun (cs, rest) => (c :: cs, rest)
      else if c.toNat < 0x20 then none
      else (stringFrom fuel s).map fun (cs, rest) => (c :: cs, rest)

/-- The string at the start of `s`, after its opening quotation mark. -/
def stringAt? (s : List Char) : Option (String × List Char) :=
  (stringFrom (s.length + 1) s).map fun (cs, rest) => (String.ofList cs, rest)

/-- An ASCII digit. -/
def isAsciiDigit (c : Char) : Bool :=
  '0' ≤ c && c ≤ '9'

/-- The value of a run of ASCII digits. -/
def digitsValue (ds : List Char) : Nat :=
  Text.ofDigits (ds.map fun c => c.toNat - 48)

/-- The fraction at the start of `s`: its digits and the rest. -/
def fractionAt? : List Char → Option (List Char × List Char)
  | '.' :: s =>
      let digits := s.takeWhile isAsciiDigit
      if digits.isEmpty then none else some (digits, s.dropWhile isAsciiDigit)
  | _ => none

/-- The exponent at the start of `s`: its value and the rest. -/
def exponentAt? : List Char → Option (Int × List Char)
  | c :: s =>
      if c == 'e' || c == 'E' then
        let (negative, s) := Text.cutSign s
        let digits := s.takeWhile isAsciiDigit
        if digits.isEmpty then none
        else some (Text.signed negative (digitsValue digits), s.dropWhile isAsciiDigit)
      else none
  | [] => none

/-- The digits of a whole number at the start of `s`, and the rest.  A zero is
    followed by no other digit. -/
def digitsAt : List Char → List Char × List Char
  | '0' :: rest => (['0'], rest)
  | s => (s.takeWhile isAsciiDigit, s.dropWhile isAsciiDigit)

/-- The number at the start of `s`, after its sign, and the rest. -/
def numberAt (negative : Bool) (s : List Char) : Except ReadError (Json × List Char) :=
  let (digits, rest) := digitsAt s
  if digits.isEmpty then .error .malformed
  else
    let (fraction, afterFraction) :=
      match fractionAt? rest with
      | some (ds, r) => (some ds, r)
      | none => (none, rest)
    let (exponent, last) :=
      match exponentAt? afterFraction with
      | some (e, r) => (some e, r)
      | none => (none, afterFraction)
    match fraction, exponent with
    | none, none =>
        if Text.TooManyDigits.limit < digits.length then
          .error (.tooManyDigits ⟨digits.length⟩)
        else .ok (.int (Text.signed negative (digitsValue digits)), last)
    | _, _ =>
        let places := fraction.getD []
        .ok (.float (Decimal.nearestSigned negative (digitsValue (digits ++ places))
          (exponent.getD 0 - places.length)), last)

/-- The names that stand for a value. -/
def names : List (List Char × Json) :=
  [ (['n', 'u', 'l', 'l'], .null),
    (['t', 'r', 'u', 'e'], .bool true),
    (['f', 'a', 'l', 's', 'e'], .bool false),
    (['N', 'a', 'N'], .float (0.0 / 0.0)),
    (['I', 'n', 'f', 'i', 'n', 'i', 't', 'y'], .float (1.0 / 0.0)),
    (['-', 'I', 'n', 'f', 'i', 'n', 'i', 't', 'y'], .float (-1.0 / 0.0)) ]

/-- The value at the start of `s` when it has no brackets, and the rest. -/
def scalarAt (s : List Char) : Except ReadError (Json × List Char) :=
  match names.find? fun (name, _) => name.isPrefixOf s with
  | some (name, value) => .ok (value, s.drop name.length)
  | none =>
      match s with
      | '\x22' :: s =>
          match stringAt? s with
          | some (cs, rest) => .ok (.str cs, rest)
          | none => .error .malformed
      | '-' :: s => numberAt true s
      | _ => numberAt false s

/-- The key of a member at the start of `s`, with its colon, and the rest. -/
def keyAt (s : List Char) : Except ReadError (String × List Char) :=
  match s with
  | '\x22' :: s =>
      match stringAt? s with
      | some (key, rest) =>
          match skipSpace rest with
          | ':' :: rest => .ok (key, skipSpace rest)
          | _ => .error .malformed
      | none => .error .malformed
  | _ => .error .malformed

mutual

/-- The value at the start of `s`, and the rest; brackets may be nested `depth`
    deep.  `fuel` bounds the number of values. -/
def valueAt : Nat → Nat → List Char → Except ReadError (Json × List Char)
  | 0, _, _ => .error .malformed
  | fuel + 1, depth, s =>
      match s with
      | '[' :: s =>
          match depth with
          | 0 => .error .tooDeep
          | depth + 1 =>
              match skipSpace s with
              | ']' :: rest => .ok (.arr [], rest)
              | s => itemsFrom fuel depth [] s
      | '\x7b' :: s =>
          match depth with
          | 0 => .error .tooDeep
          | depth + 1 =>
              match skipSpace s with
              | '\x7d' :: rest => .ok (.obj [], rest)
              | s => membersFrom fuel depth [] s
      | _ => scalarAt s

/-- The items from the start of `s` to the closing bracket; `items` came before,
    the last one first. -/
def itemsFrom : Nat → Nat → List Json → List Char → Except ReadError (Json × List Char)
  | 0, _, _, _ => .error .malformed
  | fuel + 1, depth, items, s =>
      match valueAt fuel depth s with
      | .error e => .error e
      | .ok (item, rest) =>
          match skipSpace rest with
          | ']' :: rest => .ok (.arr (item :: items).reverse, rest)
          | ',' :: rest => itemsFrom fuel depth (item :: items) (skipSpace rest)
          | _ => .error .malformed

/-- The members from the start of `s` to the closing bracket; `members` came
    before. -/
def membersFrom : Nat → Nat → List (String × Json) → List Char →
    Except ReadError (Json × List Char)
  | 0, _, _, _ => .error .malformed
  | fuel + 1, depth, members, s =>
      match keyAt s with
      | .error e => .error e
      | .ok (key, s) =>
          match valueAt fuel depth s with
          | .error e => .error e
          | .ok (value, rest) =>
              let members := setMember key value members
              match skipSpace rest with
              | '\x7d' :: rest => .ok (.obj members, rest)
              | ',' :: rest => membersFrom fuel depth members (skipSpace rest)
              | _ => .error .malformed

end

/-- The value that `s` writes. -/
def parse (s : List Char) : Except ReadError Json :=
  match valueAt (2 * s.length + 2) depthLimit (skipSpace s) with
  | .error e => .error e
  | .ok (value, rest) =>
      if (skipSpace rest).isEmpty then .ok value else .error .malformed

end MessageBody.Json
