import MessageBody.Json.Printer
import MessageBody.Json.Reader

/-! # JSON strings

    A text is read back from the JSON string that it is written as, whichever
    characters are escaped.  A character above U+FFFF is escaped by two 16-bit
    units, the halves of a pair; no other character is half of one, so an escape
    is never mistaken for the first half. -/

namespace MessageBody

namespace Text

/-- A digit is read as the number that it writes. -/
theorem hexValue?_digitChar {d : Nat} (h : d < 16) : hexValue? (Nat.digitChar d) = some d := by
  revert d
  decide

/-- A further digit counts for itself and makes the others sixteen times as large. -/
theorem hexNumber?_concat (s : List Char) (c : Char) :
    hexNumber? (s ++ [c]) = (hexNumber? s).bind fun n => (hexValue? c).map (16 * n + ·) := by
  rw [hexNumber?, List.foldl_append]
  rfl

/-- The last hexadecimal digits of a number are all of it when it has no more. -/
theorem hexNumber?_hexDigits {width n : Nat} (h : n < Nat.pow 16 width) :
    hexNumber? (hexDigits width n) = some n := by
  induction width generalizing n with
  | zero =>
      rw [Nat.lt_one_iff.mp h]
      rfl
  | succ width ih =>
      have hdiv : n / 16 < Nat.pow 16 width := by
        refine Nat.div_lt_of_lt_mul ?_
        rw [Nat.mul_comm]
        exact h
      have hmod := Nat.mod_lt n (show 0 < 16 by decide)
      rw [hexDigits, hexNumber?_concat, ih hdiv, Option.bind_some, hexValue?_digitChar hmod,
        Option.map_some, Nat.div_add_mod]

end Text

namespace Json

/-- The unit of four hexadecimal digits is read back. -/
theorem unit?_hexDigits {n : Nat} (h : n < 0x10000) (rest : List Char) :
    unit? (Text.hexDigits 4 n ++ rest) = some (n, rest) := by
  have hnumber : Text.hexNumber? (Text.hexDigits 4 n) = some n :=
    Text.hexNumber?_hexDigits h
  show (Text.hexNumber? (Text.hexDigits 4 n)).map (·, rest) = some (n, rest)
  rw [hnumber]
  rfl

/-- Characters lie below the end of the code space. -/
theorem toNat_lt (c : Char) : c.toNat < 0x110000 := by
  have := c.valid
  simp only [UInt32.isValidChar, Nat.isValidChar] at this
  show c.val.toNat < 0x110000
  omega

/-- No character is half of a pair. -/
theorem not_isHalf (c : Char) : ¬ (0xD800 ≤ c.toNat ∧ c.toNat < 0xE000) := by
  have := c.valid
  simp only [UInt32.isValidChar, Nat.isValidChar] at this
  show ¬ (0xD800 ≤ c.val.toNat ∧ c.val.toNat < 0xE000)
  omega

/-- A unit that is no half of a pair stands for its character, whatever
    follows. -/
theorem escapeAt?_unit {n : Nat} (h : n < 0x10000) (hhalf : ¬ (0xD800 ≤ n ∧ n < 0xE000))
    (rest : List Char) :
    escapeAt? ('u' :: (Text.hexDigits 4 n ++ rest)) = some (Char.ofNat n, rest) := by
  have hchar : unitChar n = Char.ofNat n := by
    rw [unitChar, if_neg hhalf]
  have hpair : ∀ low, pair? n low = none := by
    intro low
    rw [pair?, if_neg fun hlow => hhalf ⟨hlow.1, by omega⟩]
  rw [escapeAt?, unit?_hexDigits h]
  simp only [hchar, hpair]
  split
  · split <;> rfl
  · rfl

/-- Two units that form a pair stand for its character. -/
theorem escapeAt?_pair {high low : Nat} {c : Char} (hhigh : high < 0x10000)
    (hlow : low < 0x10000) (hpair : pair? high low = some c) (rest : List Char) :
    escapeAt? ('u' :: (Text.hexDigits 4 high ++ (unitEscape low ++ rest))) = some (c, rest) := by
  rw [escapeAt?, unit?_hexDigits hhigh]
  simp only [unitEscape, List.cons_append, unit?_hexDigits hlow, hpair]

/-- The halves of a character above U+FFFF form a pair. -/
theorem pair?_halves {c : Char} (h : ¬ c.toNat < 0x10000) :
    pair? (0xD800 + (c.toNat - 0x10000) / 0x400) (0xDC00 + (c.toNat - 0x10000) % 0x400)
      = some c := by
  have hlt := toNat_lt c
  have hhalves : 0xD800 ≤ 0xD800 + (c.toNat - 0x10000) / 0x400
      ∧ 0xD800 + (c.toNat - 0x10000) / 0x400 < 0xDC00
      ∧ 0xDC00 ≤ 0xDC00 + (c.toNat - 0x10000) % 0x400
      ∧ 0xDC00 + (c.toNat - 0x10000) % 0x400 < 0xE000 := by omega
  have hnumber : 0x10000 + (0xD800 + (c.toNat - 0x10000) / 0x400 - 0xD800) * 0x400
      + (0xDC00 + (c.toNat - 0x10000) % 0x400 - 0xDC00) = c.toNat := by omega
  rw [pair?, if_pos hhalves, hnumber, Char.ofNat_toNat]

/-- The escape of a character is read back, behind its backslash. -/
theorem escapeAt?_charEscape (c : Char) (rest : List Char) :
    ∃ s, charEscape c ++ rest = '\\' :: s ∧ escapeAt? s = some (c, rest) := by
  by_cases h : c.toNat < 0x10000
  · refine ⟨'u' :: (Text.hexDigits 4 c.toNat ++ rest), ?_, ?_⟩
    · simp only [charEscape, if_pos h, unitEscape, List.cons_append]
    · rw [escapeAt?_unit h (not_isHalf c), Char.ofNat_toNat]
  · have hlt := toNat_lt c
    refine ⟨_, ?_, escapeAt?_pair (by omega) (by omega) (pair?_halves h) rest⟩
    simp only [charEscape, if_neg h, unitEscape, List.cons_append, List.append_assoc]

/-- A character is read back from the way it is written in a string. -/
theorem stringFrom_escapedChar (ascii : Bool) (c : Char) (fuel : Nat) (rest : List Char) :
    stringFrom (fuel + 1) (escapedChar ascii c ++ rest)
      = (stringFrom fuel rest).map fun (cs, rest) => (c :: cs, rest) := by
  rw [escapedChar]
  by_cases hquote : c = '\x22'
  · subst hquote
    rfl
  by_cases hslash : c = '\\'
  · subst hslash
    rfl
  by_cases hn : c = '\n'
  · subst hn
    rfl
  by_cases hr : c = '\r'
  · subst hr
    rfl
  by_cases ht : c = '\t'
  · subst ht
    rfl
  by_cases hf : c = '\x0c'
  · subst hf
    rfl
  by_cases hb : c = '\x08'
  · subst hb
    rfl
  -- no character with a short escape is left
  simp only [beq_iff_eq, hquote, hslash, hn, hr, ht, hf, hb, if_false]
  split
  · obtain ⟨s, hs, hescape⟩ := escapeAt?_charEscape c rest
    rw [hs, stringFrom]
    simp only [beq_iff_eq, hescape]
    rfl
  · rename_i hplain
    have hcontrol : ¬ c.toNat < 0x20 := by
      intro hlt
      simp [hlt] at hplain
    rw [List.singleton_append, stringFrom]
    simp only [beq_iff_eq, hquote, hslash, hcontrol, if_false]

/-- The characters of a string are read back up to its closing quotation
    mark. -/
theorem stringFrom_flatMap (ascii : Bool) (s rest : List Char) {fuel : Nat}
    (h : s.length < fuel) :
    stringFrom fuel (s.flatMap (escapedChar ascii) ++ '\x22' :: rest) = some (s, rest) := by
  induction s generalizing fuel with
  | nil =>
      obtain ⟨fuel, rfl⟩ := Nat.exists_eq_add_one_of_ne_zero (Nat.ne_of_gt h)
      rfl
  | cons c s ih =>
      obtain ⟨fuel, rfl⟩ := Nat.exists_eq_add_one_of_ne_zero (Nat.ne_of_gt (Nat.zero_lt_of_lt h))
      rw [List.flatMap_cons, List.append_assoc, stringFrom_escapedChar,
        ih (Nat.lt_of_succ_lt_succ h)]
      rfl

/-- Every character is written as something. -/
theorem escapedChar_ne_nil (ascii : Bool) (c : Char) : escapedChar ascii c ≠ [] := by
  intro h
  -- from no text at all, the reader would have to find `c`
  have hread := stringFrom_escapedChar ascii c 1 ['\x22']
  rw [h] at hread
  exact nomatch hread

/-- The text of a string is no shorter than the text that it writes. -/
theorem length_le_flatMap (ascii : Bool) (s : List Char) :
    s.length ≤ (s.flatMap (escapedChar ascii)).length := by
  induction s with
  | nil => exact Nat.le_refl _
  | cons c s ih =>
      have hpos := List.length_pos_iff.mpr (escapedChar_ne_nil ascii c)
      rw [List.flatMap_cons, List.length_append, List.length_cons]
      omega

/-- A text is read back from the JSON string that it is written as. -/
theorem stringAt?_stringText (ascii : Bool) (s : String) (rest : List Char) :
    stringAt? (s.toList.flatMap (escapedChar ascii) ++ '\x22' :: rest) = some (s, rest) := by
  have hlength := length_le_flatMap ascii s.toList
  have hfuel : s.toList.length
      < (s.toList.flatMap (escapedChar ascii) ++ '\x22' :: rest).length + 1 := by
    rw [List.length_append]
    omega
  rw [stringAt?, stringFrom_flatMap ascii s.toList rest hfuel, Option.map_some]
  simp only [String.ofList_toList]

end Json

end MessageBody
