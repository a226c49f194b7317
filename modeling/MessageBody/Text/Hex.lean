/-! # Hexadecimal digits -/

namespace MessageBody.Text

/-- The value of an ASCII hexadecimal digit, nothing for other characters. -/
def hexValue? (c : Char) : Option Nat :=
  if '0' ≤ c ∧ c ≤ '9' then some (c.toNat - 48)
  else if 'a' ≤ c ∧ c ≤ 'f' then some (c.toNat - 87)
  else if 'A' ≤ c ∧ c ≤ 'F' then some (c.toNat - 55)
  else none

/-- The number that hexadecimal digits write, nothing unless all are digits. -/
def hexNumber? (s : List Char) : Option Nat :=
  s.foldl (fun n c => n.bind fun n => (hexValue? c).map (16 * n + ·)) (some 0)

/-- The last `width` hexadecimal digits of `n`, in lower case. -/
def hexDigits : Nat → Nat → List Char
  | 0, _ => []
  | width + 1, n => hexDigits width (n / 16) ++ [Nat.digitChar (n % 16)]

/-! ## Bounds -/

/-- A hexadecimal digit is less than 16. -/
theorem lt_of_hexValue? {c : Char} {n : Nat} (h : hexValue? c = some n) : n < 16 := by
  unfold hexValue? at h
  have hle : ∀ d : Char, c ≤ d → c.toNat ≤ d.toNat := fun d hd => hd
  split at h
  · rename_i hc
    have := hle _ hc.2
    cases h
    simp at this
    omega
  · split at h
    · rename_i hc
      have := hle _ hc.2
      cases h
      simp at this
      omega
    · split at h
      · rename_i hc
        have := hle _ hc.2
        cases h
        simp at this
        omega
      · exact nomatch h

private theorem foldl_hex_none (s : List Char) :
    s.foldl (fun n c => n.bind fun n => (hexValue? c).map (16 * n + ·)) none
      = (none : Option Nat) := by
  induction s with
  | nil => rfl
  | cons _ _ ih => exact ih

/-- Each digit makes the number at most 16 times as large. -/
private theorem lt_of_foldl_hex {s : List Char} {m n : Nat}
    (h : s.foldl (fun n c => n.bind fun n => (hexValue? c).map (16 * n + ·)) (some m)
      = some n) : n < (m + 1) * Nat.pow 16 s.length := by
  induction s generalizing m with
  | nil =>
      cases h
      simp
  | cons c s ih =>
      rw [List.foldl_cons] at h
      cases hv : hexValue? c with
      | none =>
          simp [hv, foldl_hex_none] at h
      | some v =>
          simp only [Option.bind_some, hv, Option.map_some] at h
          have hv16 := lt_of_hexValue? hv
          calc n < (16 * m + v + 1) * Nat.pow 16 s.length := ih h
            _ ≤ ((m + 1) * 16) * Nat.pow 16 s.length := Nat.mul_le_mul_right _ (by omega)
            _ = (m + 1) * (Nat.pow 16 s.length * 16) := by
              rw [Nat.mul_assoc, Nat.mul_comm 16]

/-- A number of `k` hexadecimal digits is below the `k`th power of sixteen. -/
theorem lt_of_hexNumber? {s : List Char} {n : Nat} (h : hexNumber? s = some n) :
    n < Nat.pow 16 s.length := by
  have hlt := lt_of_foldl_hex h
  omega

example : hexDigits 4 0xE9 = "00e9".toList := by decide

end MessageBody.Text
