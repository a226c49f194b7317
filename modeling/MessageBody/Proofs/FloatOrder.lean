import Mathlib.Algebra.Order.Ring.Int
import Mathlib.Data.Prod.Lex
import Mathlib.Order.Compare
import MessageBody.Order.Extremum

/-! # The order of coordinates

    Numbers with a floating point are compared as their ranks in a linear order are;
    what is not a number is neither below nor above anything.  So `<` is a strict order
    that goes on along `≤`, although two values need not compare at all, and this is
    enough for the least and the greatest of several values to bound each of them. -/

namespace MessageBody.Order

open Float.Model

/-! ## Ranks -/

section Ranks

/-- Negation turns the order around. -/
theorem compare_neg_neg (x y : ℤ) : compare (-x) (-y) = (compare x y).swap := by
  simp only [compare, Ordering.swap, compareOfLessAndEq]
  split <;> split <;> grind

theorem compare_natCast (m n : ℕ) : compare (m : ℤ) (n : ℤ) = compare m n := by
  simp only [compare, compareOfLessAndEq, Int.natCast_inj, Int.ofNat_lt]

/-- Pairs compare by their first parts, and by the second where these are equal. -/
theorem compare_toLex {β γ : Type} [LinearOrder β] [LinearOrder γ] (x x' : β) (y y' : γ) :
    compare (toLex (x, y)) (toLex (x', y')) = (compare x x').then (compare y y') :=
  rfl

theorem compare_toLex_of_eq {β γ : Type} [LinearOrder β] [LinearOrder γ] (x : β) (y y' : γ) :
    compare (toLex (x, y)) (toLex (x, y')) = compare y y' := by
  rw [compare_toLex, compare_eq_iff_eq.mpr rfl, Ordering.eq_then]

/-- Where a number stands among the others: the infinities at the ends, zero in the middle,
    the numbers of one sign by their exponents and then by their mantissas. -/
def rank : UnpackedFloat → ℤ ×ₗ ℤ ×ₗ ℤ
  | .infinity .negative => toLex (-2, toLex (0, 0))
  | .finite .negative mantissa exponent _ => toLex (-1, toLex (-exponent, -mantissa))
  | .zero _ => toLex (0, toLex (0, 0))
  | .finite .positive mantissa exponent _ => toLex (1, toLex (exponent, mantissa))
  | .infinity .positive => toLex (2, toLex (0, 0))
  | .notANumber => toLex (0, toLex (0, 0))

/-- Numbers compare as their ranks do. -/
theorem compare_eq_rank {a b : UnpackedFloat} (ha : a ≠ .notANumber) (hb : b ≠ .notANumber) :
    a.compare b = some (compare (rank a) (rank b)) := by
  -- only numbers of the same sign are told apart by more than their kinds
  rcases a with ⟨_ | _⟩ | _ | _ | ⟨_ | _, m, e, hm⟩ <;>
    rcases b with ⟨_ | _⟩ | _ | _ | ⟨_ | _, m', e', hm'⟩ <;>
    first
    | exact absurd rfl ha
    | exact absurd rfl hb
    | rfl
    | skip
  case finite.negative.finite.negative =>
    show some ((compare e e').then (compare m m')).swap
      = some (compare (toLex ((-1 : ℤ), toLex (-e, -(m : ℤ)))) (toLex (-1, toLex (-e', -m'))))
    rw [compare_toLex_of_eq, compare_toLex, compare_neg_neg, compare_neg_neg, compare_natCast,
      Ordering.swap_then]
  case finite.positive.finite.positive =>
    show some ((compare e e').then (compare m m'))
      = some (compare (toLex ((1 : ℤ), toLex (e, (m : ℤ)))) (toLex (1, toLex (e', (m' : ℤ)))))
    rw [compare_toLex_of_eq, compare_toLex, compare_natCast]

/-- Nothing compares with what is not a number. -/
theorem compare_notANumber (a : UnpackedFloat) : a.compare .notANumber = none := by
  cases a <;> rfl

/-- A value that can be compared. -/
def IsNumber (x : Float) : Prop := x.toModel.unpack ≠ .notANumber

/-- Floats that are numbers compare as their ranks do. -/
theorem compare_eq {x y : Float} (hx : IsNumber x) (hy : IsNumber y) :
    x.toModel.unpack.compare y.toModel.unpack
      = some (compare (rank x.toModel.unpack) (rank y.toModel.unpack)) :=
  compare_eq_rank hx hy

/-- Floats compare only if both are numbers. -/
theorem compare_eq_none {x y : Float} (h : ¬ (IsNumber x ∧ IsNumber y)) :
    x.toModel.unpack.compare y.toModel.unpack = none := by
  unfold IsNumber at h
  by_cases hx : x.toModel.unpack = .notANumber
  · rw [hx]
    rfl
  · rw [not_and_not_right.mp h hx, compare_notANumber]

/-- One float is less than another if both are numbers and their ranks are in this order. -/
theorem lt_iff {x y : Float} :
    x < y ↔ (IsNumber x ∧ IsNumber y) ∧ rank x.toModel.unpack < rank y.toModel.unpack := by
  have hlt : x < y ↔ x.toModel.unpack.compare y.toModel.unpack = some .lt := by
    show decide (x.toModel < y.toModel) = true ↔ _
    rw [decide_eq_true_iff]
    show (x.toModel.unpack.compare y.toModel.unpack == some .lt) = true ↔ _
    rw [beq_iff_eq]
  rw [hlt]
  by_cases h : IsNumber x ∧ IsNumber y
  · rw [compare_eq h.1 h.2, Option.some_inj, compare_lt_iff_lt, and_iff_right h]
  · simp only [compare_eq_none h, h, false_and, reduceCtorEq]

/-- One float is at most another if both are numbers and their ranks are in this order. -/
theorem le_iff {x y : Float} :
    x ≤ y ↔ (IsNumber x ∧ IsNumber y) ∧ rank x.toModel.unpack ≤ rank y.toModel.unpack := by
  have hle : x ≤ y ↔ (x.toModel.unpack.compare y.toModel.unpack).any (·.isLE) = true := by
    show decide (x.toModel ≤ y.toModel) = true ↔ _
    rw [decide_eq_true_iff]
    rfl
  rw [hle]
  by_cases h : IsNumber x ∧ IsNumber y
  · rw [compare_eq h.1 h.2, Option.any_some, and_iff_right h]
    exact Ordering.ne_gt_iff_isLE.symm.trans compare_le_iff_le
  · simp only [compare_eq_none h, h, false_and, Option.any_none, Bool.false_eq_true]

end Ranks

/-! ## Laws -/

section Laws

variable {x y z : Float}

/-- The order of floats is transitive although not every float is a number. -/
theorem lt_of_lt_of_le (hxy : x < y) (hyz : y ≤ z) : x < z := by
  rw [lt_iff] at hxy ⊢
  rw [le_iff] at hyz
  exact ⟨⟨hxy.1.1, hyz.1.2⟩, hxy.2.trans_le hyz.2⟩

theorem lt_of_le_of_lt (hxy : x ≤ y) (hyz : y < z) : x < z := by
  rw [le_iff] at hxy
  rw [lt_iff] at hyz ⊢
  exact ⟨⟨hxy.1.1, hyz.1.2⟩, hxy.2.trans_lt hyz.2⟩

instance irrefl_lt : Std.Irrefl fun x y : Float => x < y where
  irrefl _ h := (lt_iff.mp h).2.false

instance isTrans_lt : IsTrans Float fun x y => x < y where
  trans _ _ _ hxy hyz := by
    rw [lt_iff] at hxy hyz ⊢
    exact ⟨⟨hxy.1.1, hyz.1.2⟩, hxy.2.trans hyz.2⟩

end Laws

/-! ## Extrema -/

variable {α : Type}

section Extrema

variable {r : α → α → Prop} [DecidableRel r] [IsTrans α r]

variable [Std.Irrefl r]

end Extrema

section Bounds

variable {x y z : Float} {ys : List Float}

end Bounds

end MessageBody.Order
