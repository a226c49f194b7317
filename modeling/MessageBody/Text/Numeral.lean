import MessageBody.Decimal.Reading
import MessageBody.Text.Blank
import MessageBody.Text.WholeNumber

/-! # Numerals that people type

    Outside markup a number may be written more freely: with blanks around it,
    in the decimal digits of any script, and with single underscores between its
    digits.  A whole number of any size is read, up to the limit on digits.  A
    number with a fraction or an exponent reads as the nearest floating-point
    number; the names of infinity and of what is not a number are known in any
    case of letters. -/

namespace MessageBody.Text

/-- Why a numeral gives no number. -/
inductive NumeralError where
  /-- The text is not a numeral. -/
  | malformed
  /-- It has too many digits. -/
  | tooManyDigits (refusal : TooManyDigits)
  deriving DecidableEq

/-- The blanks that may stand around a numeral.  The four ASCII separators are
    not among them. -/
def isNumeralBlank (c : Char) : Bool :=
  isSourceBlank c || (0x7F < c.toNat && isBlank c)

/-- A character with a decimal digit of any script as an ASCII digit. -/
def plainDigit (c : Char) : Char :=
  match digitValue? c with
  | some d => Char.ofNat (0x30 + d)
  | none => c

/-- An ASCII digit. -/
def isPlainDigit (c : Char) : Bool :=
  '0' ≤ c && c ≤ '9'

/-- The value of ASCII digits. -/
def plainValue (ds : List Char) : Nat :=
  ofDigits (ds.map fun c => c.toNat - 0x30)

/-- `s` without its underscores, nothing unless each of them stands between two
    digits; `afterDigit` tells whether the character before is a digit. -/
def ungrouped? (afterDigit : Bool) : List Char → Option (List Char)
  | [] => some []
  | '_' :: d :: s =>
      if afterDigit && isPlainDigit d then (ungrouped? true s).map (d :: ·) else none
  | '_' :: [] => none
  | c :: s => (ungrouped? (isPlainDigit c) s).map (c :: ·)

/-- The numeral without the blanks around it, in ASCII digits and without
    underscores. -/
def numeralBody? (s : List Char) : Option (List Char) :=
  ungrouped? false ((trim isNumeralBlank s).map plainDigit)

/-- The whole number that `s` writes. -/
def wholeNumeral (s : List Char) : Except NumeralError Int :=
  match numeralBody? s with
  | none => .error .malformed
  | some body =>
      let (negative, rest) := cutSign body
      let digits := rest.takeWhile isPlainDigit
      if TooManyDigits.limit < digits.length then .error (.tooManyDigits ⟨digits.length⟩)
      else if digits.isEmpty || digits.length != rest.length then .error .malformed
      else .ok (signed negative (plainValue digits))

/-- The names of numbers that have no digits. -/
def numberNames : List (String × Float) :=
  [("inf", 1.0 / 0.0), ("infinity", 1.0 / 0.0), ("nan", 0.0 / 0.0)]

/-- The exponent that `s` writes; nothing stands for zero. -/
def exponentNumeral? : List Char → Option Int
  | [] => some 0
  | c :: s =>
      if c == 'e' || c == 'E' then
        let (negative, digits) := cutSign s
        if digits.isEmpty || !digits.all isPlainDigit then none
        else some (signed negative (plainValue digits))
      else none

/-- The floating-point number that digits with an optional fraction and exponent
    write. -/
def decimalNumeral? (negative : Bool) (s : List Char) : Option Float :=
  let whole := s.takeWhile isPlainDigit
  let afterWhole := s.dropWhile isPlainDigit
  let (places, afterPlaces) :=
    match afterWhole with
    | '.' :: t => (t.takeWhile isPlainDigit, t.dropWhile isPlainDigit)
    | t => ([], t)
  if whole.isEmpty && places.isEmpty then none
  else
    (exponentNumeral? afterPlaces).map fun e =>
      Decimal.nearestSigned negative (plainValue (whole ++ places)) (e - places.length)

/-- The floating-point number that `s` writes. -/
def floatNumeral? (s : List Char) : Option Float :=
  (numeralBody? s).bind fun body =>
    let (negative, rest) := cutSign body
    match numberNames.lookup (String.ofList (rest.map Char.toLower)) with
    | some x => some (if negative then -x else x)
    | none => decimalNumeral? negative rest

example : (wholeNumeral " -1_000 ".toList).toOption = some (-1000) := by decide

example : (wholeNumeral "1__0".toList).toOption = none := by decide

end MessageBody.Text
