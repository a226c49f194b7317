import MessageBody.Decimal.Binary

/-! # The shortest decimal that reads back

    Among the decimals that lie between a floating-point number and the
    midpoints to its neighbours, `shortest` takes one of fewest digits, of those
    the nearest, and of two equally near the one with an even last digit.  On
    each grid of decimals only the two neighbours of the number have to be
    tried. -/

namespace MessageBody.Decimal

/-- The decimal `digits * 10 ^ exponent`. -/
structure Scientific where
  digits : Nat
  exponent : Int

/-- The fraction `x.1 / x.2` is below `y.1 / y.2`, or equal to it when `closed`. -/
def below (closed : Bool) (x y : Nat × Nat) : Bool :=
  if closed then x.1 * y.2 ≤ y.1 * x.2 else x.1 * y.2 < y.1 * x.2

/-- The fraction `n * base ^ e`. -/
def scaled (n base : Nat) (e : Int) : Nat × Nat :=
  (n * Nat.pow base e.toNat, Nat.pow base (-e).toNat)

/-- The exponent of the leading decimal digit of `b`, which is not zero. -/
def leadingExponent (b : Binary) : Int :=
  let value := scaled b.mantissa 2 b.exponent
  let guess := ((Nat.log2 b.mantissa : Int) + b.exponent) * 30103 / 100000
  if below true (scaled 1 10 (guess + 1)) value then guess + 1
  else if below false value (scaled 1 10 guess) then guess - 1
  else guess

/-- `c * 10 ^ k` lies among the reals that round to `b`. -/
def readsBack (b : Binary) (c : Nat) (k : Int) : Bool :=
  let closed := b.mantissa % 2 == 0
  let low := scaled (4 * b.mantissa - if b.narrowBelow then 1 else 2) 2 (b.exponent - 2)
  let high := scaled (4 * b.mantissa + 2) 2 (b.exponent - 2)
  let x := scaled c 10 k
  below closed low x && below closed x high

/-- The better of the two neighbours of `b` on the grid of multiples of
    `10 ^ k`, if one reads back. -/
def onGrid? (b : Binary) (k : Int) : Option Scientific :=
  let (n, d) := scaled b.mantissa 2 b.exponent
  let (gn, gd) := scaled 1 10 k
  let c := n * gd / (d * gn)
  let rest := n * gd % (d * gn)
  match readsBack b c k && c != 0, readsBack b (c + 1) k with
  | true, true =>
      if 2 * rest < d * gn || (2 * rest == d * gn && c % 2 == 0) then some ⟨c, k⟩
      else some ⟨c + 1, k⟩
  | true, false => some ⟨c, k⟩
  | false, true => some ⟨c + 1, k⟩
  | false, false => none

/-- The shortest decimal that reads back as the magnitude `b`, which is not
    zero.  Seventeen digits always suffice. -/
def shortest (b : Binary) : Scientific :=
  let e := leadingExponent b
  let grids := (List.range 17).map fun (p : Nat) => e - p
  (grids.findSome? (onGrid? b)).getD ⟨b.floor, 0⟩

end MessageBody.Decimal
