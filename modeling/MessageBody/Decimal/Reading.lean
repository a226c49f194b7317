/-! # Reading decimals

    A decimal reads as the nearest floating-point number; beyond the largest it
    reads as infinity, and below the smallest as zero.  A whole number beyond the
    largest is refused instead. -/

namespace MessageBody.Decimal

/-- The number of decimal digits of `n`. -/
def digitCount (n : Nat) : Nat :=
  (Nat.toDigits 10 n).length

/-- The floating-point number nearest to `mantissa * 10 ^ exponent`. -/
def nearest (mantissa : Nat) (exponent : Int) : Float :=
  let top := (digitCount mantissa : Int) + exponent
  if mantissa = 0 || top < -330 then 0.0
  else if 310 < top then 1.0 / 0.0
  else if exponent < 0 then Float.ofScientific mantissa true exponent.natAbs
  else Float.ofScientific mantissa false exponent.natAbs

/-- As `nearest`, with a sign in front. -/
def nearestSigned (negative : Bool) (mantissa : Nat) (exponent : Int) : Float :=
  if negative then -nearest mantissa exponent else nearest mantissa exponent

/-- The refusal of a whole number because it is beyond the floating-point
    numbers. -/
structure BeyondFloats where
  deriving DecidableEq

/-- The text of the refusal. -/
def BeyondFloats.message (_ : BeyondFloats) : String :=
  "int too large to convert to float"

/-- The least magnitude beyond the floating-point numbers.  It lies halfway
    between the largest of them and the power of two after it, and of those two
    that power would be the even one. -/
def overflow : Nat := (1 <<< 1024) - (1 <<< 970)

/-- The floating-point number nearest to a whole number. -/
def ofWhole (n : Int) : Except BeyondFloats Float :=
  if overflow ≤ n.natAbs then .error ⟨⟩ else .ok (nearestSigned (n < 0) n.natAbs 0)

/-- A whole number below the limit is rounded to a float. -/
theorem ofWhole_of_lt {n : Int} (h : n.natAbs < overflow) :
    ofWhole n = .ok (nearestSigned (n < 0) n.natAbs 0) :=
  if_neg (Nat.not_le.2 h)

end MessageBody.Decimal
