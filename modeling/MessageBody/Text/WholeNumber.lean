import MessageBody.Text.DecimalDigit

/-! # Whole numbers in attributes and payloads

    A whole number is an optional sign and at least one decimal digit, of any
    script, and nothing else.  `wholeNumber` reads it within the signed 32-bit
    range; anything else reads as no number.  A number of more than 4300 digits
    is refused outright, before its size is looked at. -/

namespace MessageBody.Text

/-- The refusal of a number because it has too many digits to be read. -/
structure TooManyDigits where
  /-- How many digits the number has, leading zeros included. -/
  count : Nat
  deriving DecidableEq

namespace TooManyDigits

/-- The most digits a number may have. -/
def limit : Nat := 4300

/-- The text of the refusal. -/
def message (refusal : TooManyDigits) : String :=
  "Exceeds the limit (" ++ toString limit ++ " digits) for integer string conversion: value has "
    ++ toString refusal.count
    ++ " digits; use sys.set_int_max_str_digits() to increase the limit"

end TooManyDigits

/-- A whole number that has not too many digits to be read or written. -/
def IsShort (n : Int) : Prop :=
  (Nat.toDigits 10 n.natAbs).length ≤ TooManyDigits.limit

instance (n : Int) : Decidable (IsShort n) :=
  inferInstanceAs (Decidable (_ ≤ _))

/-- The values of the decimal digits of `s`, nothing unless all are digits. -/
def digitValues? : List Char → Option (List Nat)
  | [] => some []
  | c :: cs =>
      match digitValue? c, digitValues? cs with
      | some d, some ds => some (d :: ds)
      | _, _ => none

/-- The number that the digits `ds` write in base ten. -/
def ofDigits (ds : List Nat) : Nat :=
  ds.foldl (fun n d => 10 * n + d) 0

/-- A sign and what follows it: whether `s` begins with `-`, and `s` without its
    sign. -/
def cutSign : List Char → Bool × List Char
  | '-' :: s => (true, s)
  | '+' :: s => (false, s)
  | s => (false, s)

/-- The integer with the given sign and digits. -/
def signed (negative : Bool) (n : Nat) : Int :=
  if negative then -(n : Int) else n

/-- The whole numbers of 32 bits. -/
def isInt32 (n : Int) : Bool :=
  -2147483648 ≤ n && n ≤ 2147483647

/-- The 32-bit whole number that `s` writes, or none when it writes none. -/
def wholeNumber (s : List Char) : Except TooManyDigits (Option Int) :=
  let (negative, rest) := cutSign s
  match digitValues? rest with
  | none | some [] => .ok none
  | some ds =>
      if TooManyDigits.limit < ds.length then .error ⟨ds.length⟩
      else
        let n := signed negative (ofDigits ds)
        .ok (if isInt32 n then some n else none)

/-- Text with a character that is no digit is no number. -/
theorem wholeNumber_of_none {s : List Char} (h : digitValues? (cutSign s).2 = none) :
    wholeNumber s = .ok none := by
  rw [wholeNumber]
  simp only [h]

theorem wholeNumber_of_nil {s : List Char} (h : digitValues? (cutSign s).2 = some []) :
    wholeNumber s = .ok none := by
  rw [wholeNumber]
  simp only [h]

/-- Digits are a number unless there are too many of them. -/
theorem wholeNumber_of_cons {s : List Char} {d : Nat} {ds : List Nat}
    (h : digitValues? (cutSign s).2 = some (d :: ds)) :
    wholeNumber s =
      if TooManyDigits.limit < (d :: ds).length then .error ⟨(d :: ds).length⟩
      else
        let n := signed (cutSign s).1 (ofDigits (d :: ds))
        .ok (if isInt32 n then some n else none) := by
  rw [wholeNumber]
  simp only [h]

/-- As `wholeNumber`, where a number of too many digits reads as none too. -/
def wholeNumber? (s : List Char) : Option Int :=
  match wholeNumber s with
  | .ok n => n
  | .error _ => none

theorem wholeNumber?_of_ok {s : List Char} {n : Option Int} (h : wholeNumber s = .ok n) :
    wholeNumber? s = n := by
  simp [wholeNumber?, h]

theorem wholeNumber?_of_error {s : List Char} {e : TooManyDigits}
    (h : wholeNumber s = .error e) : wholeNumber? s = none := by
  simp [wholeNumber?, h]

example : wholeNumber? "-2147483648".toList = some (-2147483648) := by decide

example : wholeNumber? "2147483648".toList = none := by decide

end MessageBody.Text
