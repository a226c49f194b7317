import MessageBody.Annotated.Directive
import MessageBody.Annotated.Tag

/-! # Ranges

    A range attaches an item to the half-open interval from `start` to `stop` of
    a text.  Positions count characters. -/

namespace MessageBody

/-- What a range attaches to its text. -/
inductive Item where
  /-- What the markup said; the tag tells how to read the payload. -/
  | note (tag : Tag) (payload : String)
  /-- What the text looks like or does. -/
  | directive (d : Directive)

namespace Item

/-- The tag of an annotation. -/
def tag? : Item → Option Tag
  | .note tag _ => some tag
  | .directive _ => none

/-- The kind of a directive. -/
def kind? : Item → Option DirectiveKind
  | .note _ _ => none
  | .directive d => some d.kind

/-- Whether the item is an annotation. -/
def isNote (item : Item) : Bool :=
  item.tag?.isSome

end Item

/-- An item on the interval from `start` to `stop`. -/
structure Range where
  item : Item
  start : Nat
  stop : Nat

/-- Why bounds do not fit. -/
inductive RangeError where
  /-- A range starts before the text or ends before it starts. -/
  | bounds (start stop : Int)
  /-- A range ends after the text. -/
  | beyond (start stop length : Nat)
  /-- A window does not lie in the text. -/
  | window (start stop : Int) (length : Nat)
  deriving DecidableEq

/-- An interval as messages show it. -/
def intervalText (start stop : String) : String :=
  "[" ++ start ++ ", " ++ stop ++ ")"

/-- The text of the error. -/
def RangeError.message : RangeError → String
  | .bounds start stop => "invalid range bounds " ++ intervalText (toString start) (toString stop)
  | .beyond start stop length =>
      "range " ++ intervalText (toString start) (toString stop) ++ " exceeds text length "
        ++ toString length
  | .window start stop length =>
      "invalid window " ++ intervalText (toString start) (toString stop) ++ " for length "
        ++ toString length

namespace Range

/-- The range with the given bounds, if they are in order. -/
def make (item : Item) (start stop : Int) : Except RangeError Range :=
  if start < 0 ∨ stop < start then .error (.bounds start stop)
  else .ok ⟨item, start.toNat, stop.toNat⟩

/-- Whether the range covers position `p`. -/
def covers (r : Range) (p : Nat) : Bool :=
  r.start ≤ p && p < r.stop

/-- A range covers the positions from its start to before its end. -/
theorem covers_iff {r : Range} {p : Nat} : r.covers p = true ↔ r.start ≤ p ∧ p < r.stop := by
  simp only [covers, Bool.and_eq_true, decide_eq_true_eq]

/-- A position that a range does not cover is in front of its start or not before its end. -/
theorem covers_eq_false_iff {r : Range} {p : Nat} :
    r.covers p = false ↔ ¬ (r.start ≤ p ∧ p < r.stop) := by
  rw [← Bool.not_eq_true, covers_iff]

/-- Whether the range covers nothing. -/
def isEmpty (r : Range) : Bool :=
  r.start == r.stop

/-- Whether two ranges are the same annotation at the same place.  A directive is not
    the same as any annotation. -/
def isSameNote (r s : Range) : Bool :=
  match r.item, s.item with
  | .note tag payload, .note tag' payload' =>
      tag = tag' && payload = payload' && r.start = s.start && r.stop = s.stop
  | _, _ => false

/-- The range moved to the right. -/
def shift (n : Nat) (r : Range) : Range :=
  ⟨r.item, n + r.start, n + r.stop⟩

/-- The range moved by an offset in either direction. -/
def shifted (r : Range) (offset : Int) : Except RangeError Range :=
  make r.item (r.start + offset) (r.stop + offset)

/-- The part of the range inside the window from `start` to `stop`, with
    positions counted from the start of the window.  A range that covers nothing
    has to lie before the end of the window, or at its only position; any other
    has to share a character with it. -/
def clip (start stop : Int) (r : Range) : Option Range :=
  let isInside :=
    if r.isEmpty then
      (start ≤ r.start ∧ (r.start : Int) < stop) ∨ (start = stop ∧ stop = r.start)
    else max start r.start < min stop r.stop
  if isInside then
    some ⟨r.item, (max start r.start - start).toNat, (min stop r.stop - start).toNat⟩
  else none

@[simp] theorem shift_zero (r : Range) : r.shift 0 = r := by
  simp [shift]

/-- Two moves add up to one. -/
@[simp] theorem shift_shift (m n : Nat) (r : Range) : (r.shift m).shift n = r.shift (n + m) := by
  simp [shift, Nat.add_assoc]

end Range

end MessageBody
