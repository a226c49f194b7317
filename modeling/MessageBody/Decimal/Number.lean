import MessageBody.Decimal.Binary
import MessageBody.Decimal.Reading

/-! # Numbers of either kind

    A number is whole, of any size, or floating-point.  Two numbers compare by
    their exact values, whatever their kinds; what is not a number compares with
    none. -/

namespace MessageBody

/-- A number of either kind. -/
inductive Number where
  | whole (n : Int)
  | float (x : Float)

namespace Number

/-- How a floating-point number compares with a whole one, without rounding. -/
def compareWhole? (x : Float) (n : Int) : Option Ordering :=
  match Decimal.compareWhole? x n with
  | some order => some order
  | none => if x.isNaN then none else if Decimal.isNegative x then some .lt else some .gt

/-- How two numbers compare. -/
def compare? : Number → Number → Option Ordering
  | .whole m, .whole n => some (compare m n)
  | .float x, .whole n => compareWhole? x n
  | .whole m, .float y => (compareWhole? y m).map Ordering.swap
  | .float x, .float y =>
      if x < y then some .lt else if y < x then some .gt else if x == y then some .eq else none

/-- The first number is below the second. -/
def below (x y : Number) : Bool :=
  x.compare? y == some .lt

instance : LT Number := ⟨fun x y => x.below y = true⟩

instance : DecidableLT Number := fun x y => inferInstanceAs (Decidable (x.below y = true))

/-- The number as a floating-point one. -/
def toFloat : Number → Except Decimal.BeyondFloats Float
  | .whole n => Decimal.ofWhole n
  | .float x => .ok x

theorem lt_def {x y : Number} : x < y ↔ x.below y = true := Iff.rfl

@[simp] theorem whole_lt_whole {m n : Int} : Number.whole m < .whole n ↔ m < n := by
  simp [lt_def, below, compare?, Int.compare_eq_lt]

@[simp] theorem toFloat_float (x : Float) : (Number.float x).toFloat = .ok x := rfl

end Number

end MessageBody
