/-! # Floating-point numbers as exact values

    A finite floating-point number is `mantissa * 2 ^ exponent`, up to its sign.
    The functions here take it apart and compare it with whole numbers without
    rounding. -/

namespace MessageBody.Decimal

/-- The magnitude `mantissa * 2 ^ exponent` of a finite number. -/
structure Binary where
  mantissa : Nat
  exponent : Int
  /-- Whether the next smaller number is only half as far away as the next
      larger one. -/
  narrowBelow : Bool

/-- The sign bit of `x`. -/
def isNegative (x : Float) : Bool :=
  x.toBits >>> 63 == 1

/-- The magnitude of `x`, nothing when `x` is not finite. -/
def Binary.ofFloat? (x : Float) : Option Binary :=
  let bits := x.toBits.toNat
  let field : Nat := (bits >>> 52) % 0x800
  let fraction : Nat := bits % 0x10000000000000
  if field = 0x7FF then none
  else if field = 0 then some ⟨fraction, -1074, false⟩
  else some ⟨0x10000000000000 + fraction, (field : Int) - 1075, fraction = 0 && field ≠ 1⟩

/-- The magnitude with its fraction cut off. -/
def Binary.floor (b : Binary) : Nat :=
  if 0 ≤ b.exponent then b.mantissa <<< b.exponent.toNat
  else b.mantissa >>> (-b.exponent).toNat

/-- The whole number next to `x` on the side of zero, nothing when `x` is not
    finite. -/
def truncate? (x : Float) : Option Int :=
  (Binary.ofFloat? x).map fun b =>
    if isNegative x then -(b.floor : Int) else b.floor

/-- How the finite number `x` compares with the whole number `n`. -/
def compareWhole? (x : Float) (n : Int) : Option Ordering :=
  (Binary.ofFloat? x).map fun b =>
    let shift := (-b.exponent).toNat
    let scaled : Int := (b.mantissa <<< b.exponent.toNat : Nat)
    compare (if isNegative x then -scaled else scaled) (n * (1 <<< shift : Nat))

end MessageBody.Decimal
