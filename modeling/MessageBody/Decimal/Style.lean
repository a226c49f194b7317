import MessageBody.Decimal.Shortest

/-! # How decimals are laid out

    A number is written positionally while the exponent of its leading digit is
    from -4 to 15, always with a point and a digit after it; otherwise with an
    exponent of at least two digits and its sign.  Zero keeps its sign.  The two
    places where numbers are written differ in the names of what is not
    finite. -/

namespace MessageBody.Decimal

/-- How the numbers that are not finite are named. -/
structure Style where
  nan : String
  infinity : String

/-- The names in running text. -/
def Style.plain : Style where
  nan := "nan"
  infinity := "inf"

/-- The names in stored data. -/
def Style.stored : Style where
  nan := "NaN"
  infinity := "Infinity"

/-- The exponents of a leading digit that are written positionally. -/
def isPositional (e : Int) : Bool :=
  -4 ≤ e && e ≤ 15

/-- The digits of a positive decimal without the zeros it ends with, and the
    exponent of its leading digit. -/
def leading (d : Scientific) : List Char × Int :=
  let digits := Nat.toDigits 10 d.digits
  let kept := (digits.reverse.dropWhile (· == '0')).reverse
  (kept, d.exponent + digits.length - 1)

/-- The text of a positive decimal. -/
def magnitudeText (d : Scientific) : List Char :=
  let (digits, e) := leading d
  if isPositional e then
    if e < 0 then '0' :: '.' :: List.replicate (-e - 1).toNat '0' ++ digits
    else
      let whole := e.toNat + 1
      let padded := digits ++ List.replicate (whole - digits.length) '0'
      let fraction := padded.drop whole
      padded.take whole ++ '.' :: (if fraction.isEmpty then ['0'] else fraction)
  else
    let mantissa :=
      match digits with
      | [] => ['0']
      | [c] => [c]
      | c :: cs => c :: '.' :: cs
    let exponent := Nat.toDigits 10 e.natAbs
    mantissa ++ 'e' :: (if e < 0 then '-' else '+')
      :: List.replicate (2 - exponent.length) '0' ++ exponent

/-- The text of the number `x`. -/
def Style.text (style : Style) (x : Float) : String :=
  let sign := if isNegative x then "-" else ""
  match Binary.ofFloat? x with
  | none => if x.isNaN then style.nan else sign ++ style.infinity
  | some b =>
      if b.mantissa = 0 then sign ++ "0.0"
      else sign ++ String.ofList (magnitudeText (shortest b))

end MessageBody.Decimal
