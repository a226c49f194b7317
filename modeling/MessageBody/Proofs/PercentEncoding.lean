import MessageBody.Link.Percent
import MessageBody.Proofs.JsonStrings

/-! # Percent-encoding is read back

    An encoded text has only unreserved characters and percent signs in it.  So it
    can stand in a path or a query without being cut, and whatever text it was made
    from is read back: every escaped byte is one unit, and the bytes of a character
    lead the reading of UTF-8 from one character to the next. -/

namespace MessageBody.Link

/-! ## Escaped bytes -/

/-- A hexadecimal digit in upper case, as escaped bytes have it. -/
def upperDigit (d : Nat) : Char :=
  (Nat.digitChar d).toUpper

theorem hexValue?_upperDigit {d : Nat} (h : d < 16) : Text.hexValue? (upperDigit d) = some d := by
  revert d
  decide

theorem isUnreserved_upperDigit {d : Nat} (h : d < 16) : isUnreserved (upperDigit d) = true := by
  revert d
  decide

/-- A byte is escaped by two digits. -/
theorem escapedByte_eq {b : Nat} (h : b < 256) :
    escapedByte b = ['%', upperDigit (b / 16), upperDigit (b % 16)] := by
  have hhigh : b / 16 % 16 = b / 16 := Nat.mod_eq_of_lt (by omega)
  show '%' :: [upperDigit (b / 16 % 16), upperDigit (b % 16)] = _
  rw [hhigh]

/-- An escaped byte is read as one unit, whatever comes after it. -/
theorem units_escapedByte {b : Nat} (h : b < 256) (rest : List Char) :
    units (escapedByte b ++ rest) = .byte b :: units rest := by
  have hhigh := hexValue?_upperDigit (show b / 16 < 16 by omega)
  have hlow := hexValue?_upperDigit (show b % 16 < 16 by omega)
  have hbyte : 16 * (b / 16) + b % 16 = b := Nat.div_add_mod b 16
  rw [escapedByte_eq h]
  simp only [List.cons_append, List.nil_append, units, hhigh, hlow, hbyte]

/-- A character that is no percent sign stands for itself. -/
theorem units_cons_of_ne {c : Char} (h : c ≠ '%') (rest : List Char) :
    units (c :: rest) = EncodedUnit.ofChar c :: units rest := by
  rw [units]
  rintro a b rest' rfl
  exact absurd rfl h

/-- Escaped bytes are read as these bytes. -/
theorem units_escapedBytes {bs : List Nat} (h : ∀ b ∈ bs, b < 256) (rest : List Char) :
    units (bs.flatMap escapedByte ++ rest) = bs.map .byte ++ units rest := by
  induction bs with
  | nil => rfl
  | cons b bs ih =>
      obtain ⟨hb, hbs⟩ := List.forall_mem_cons.mp h
      rw [List.flatMap_cons, List.append_assoc, units_escapedByte hb, ih hbs]
      rfl

/-! ## The bytes of a character -/

/-- A character is encoded in bytes. -/
theorem utf8_lt (c : Char) : ∀ b ∈ utf8 c, b < 256 := by
  have hlt := Json.toNat_lt c
  intro b hb
  unfold utf8 at hb
  extract_lets n at hb
  split at hb
  · simp only [List.mem_singleton] at hb
    omega
  · split at hb
    · simp only [List.mem_cons, List.not_mem_nil, or_false] at hb
      omega
    · split at hb <;> simp only [List.mem_cons, List.not_mem_nil, or_false] at hb <;> omega

section Reading

variable {b code more low high : Nat} (rest : List EncodedUnit)

/-- A byte that does not complete a character is added to the bits so far. -/
theorem textFrom_within_succ (h : low ≤ b ∧ b ≤ high) :
    textFrom (.within code (more + 1) low high) (.byte b :: rest)
      = textFrom (.within (code * 64 + (b - 0x80)) more 0x80 0xBF) rest := by
  rw [textFrom, nextByte, if_pos h]
  rfl

/-- The last byte of a character completes it. -/
theorem textFrom_within_zero (h : low ≤ b ∧ b ≤ high) :
    textFrom (.within code 0 low high) (.byte b :: rest)
      = Char.ofNat (code * 64 + (b - 0x80)) :: textFrom .idle rest := by
  rw [textFrom, nextByte, if_pos h]
  rfl

/-- A byte below 128 is a character of its own. -/
theorem textFrom_ascii (h : b < 0x80) :
    textFrom .idle (.byte b :: rest) = Char.ofNat b :: textFrom .idle rest := by
  rw [textFrom, nextByte, leadByte, if_pos h]
  rfl

/-- A lead byte of two asks for one more byte. -/
theorem textFrom_lead_two (h : 0xC2 ≤ b ∧ b ≤ 0xDF) :
    textFrom .idle (.byte b :: rest) = textFrom (.within (b - 0xC0) 0 0x80 0xBF) rest := by
  rw [textFrom, nextByte, leadByte, if_neg (by omega), if_pos h]
  rfl

/-- A lead byte of three asks for two more bytes, the first of them in a narrower window at the
    ends. -/
theorem textFrom_lead_three (h : 0xE0 ≤ b ∧ b ≤ 0xEF) :
    textFrom .idle (.byte b :: rest) = textFrom (.within (b - 0xE0) 1
      (if b = 0xE0 then 0xA0 else 0x80) (if b = 0xED then 0x9F else 0xBF)) rest := by
  rw [textFrom, nextByte, leadByte, if_neg (by omega), if_neg (by omega), if_pos h]
  rfl

/-- A lead byte of four asks for three more bytes, the first of them in a narrower window at the
    ends. -/
theorem textFrom_lead_four (h : 0xF0 ≤ b ∧ b ≤ 0xF4) :
    textFrom .idle (.byte b :: rest) = textFrom (.within (b - 0xF0) 2
      (if b = 0xF0 then 0x90 else 0x80) (if b = 0xF4 then 0x8F else 0xBF)) rest := by
  rw [textFrom, nextByte, leadByte, if_neg (by omega), if_neg (by omega), if_neg (by omega),
    if_pos h]
  rfl

end Reading

/-- The bytes of a character are read as that character, and leave the reading between
    two characters. -/
theorem textFrom_utf8 (c : Char) (rest : List EncodedUnit) :
    textFrom .idle ((utf8 c).map .byte ++ rest) = c :: textFrom .idle rest := by
  have hlt := Json.toNat_lt c
  have hhalf := Json.not_isHalf c
  -- the bits that are put together are those of the character
  have hchar : ∀ n, n = c.toNat → Char.ofNat n = c := by
    rintro n rfl
    exact Char.ofNat_toNat c
  unfold utf8
  extract_lets n
  have hn : n = c.toNat := rfl
  split
  · rw [List.map_singleton, List.singleton_append, textFrom_ascii _ (by omega), hchar n hn]
  · split
    · simp only [List.map_cons, List.map_nil, List.cons_append, List.nil_append]
      rw [textFrom_lead_two _ (by omega), textFrom_within_zero _ (by omega), hchar _ (by omega)]
    · split
      · -- the first of the two bytes to come is bounded where the character is small or a half
        have hbounds : (if 0xE0 + n / 4096 = 0xE0 then 0xA0 else 0x80) ≤ 0x80 + n / 64 % 64
            ∧ 0x80 + n / 64 % 64 ≤ if 0xE0 + n / 4096 = 0xED then 0x9F else 0xBF := by
          constructor
          · split <;> omega
          · split <;> omega
        simp only [List.map_cons, List.map_nil, List.cons_append, List.nil_append]
        rw [textFrom_lead_three _ (by omega), textFrom_within_succ _ hbounds,
          textFrom_within_zero _ (by omega), hchar _ (by omega)]
      · have hbounds : (if 0xF0 + n / 262144 = 0xF0 then 0x90 else 0x80) ≤ 0x80 + n / 4096 % 64
            ∧ 0x80 + n / 4096 % 64 ≤ if 0xF0 + n / 262144 = 0xF4 then 0x8F else 0xBF := by
          constructor
          · split <;> omega
          · split <;> omega
        simp only [List.map_cons, List.map_nil, List.cons_append, List.nil_append]
        rw [textFrom_lead_four _ (by omega), textFrom_within_succ _ hbounds,
          textFrom_within_succ _ (by omega), textFrom_within_zero _ (by omega),
          hchar _ (by omega)]

/-! ## Encoded texts -/

/-- A character that need not be escaped is in ASCII and no percent sign. -/
theorem isUnreserved_bounds {c : Char} (h : isUnreserved c = true) :
    c.toNat < 0x80 ∧ c ≠ '%' := by
  constructor
  · simp only [isUnreserved, Bool.or_eq_true, Bool.and_eq_true, decide_eq_true_eq, beq_iff_eq] at h
    have hle : ∀ d : Char, c ≤ d → c.toNat ≤ d.toNat := fun d hd => hd
    rcases h with ((((((⟨-, h⟩ | ⟨-, h⟩) | ⟨-, h⟩) | rfl) | rfl) | rfl) | rfl)
    · exact Nat.lt_of_le_of_lt (hle _ h) (by decide)
    · exact Nat.lt_of_le_of_lt (hle _ h) (by decide)
    · exact Nat.lt_of_le_of_lt (hle _ h) (by decide)
    all_goals decide
  · rintro rfl
    exact absurd h (by decide)

/-- The units of an encoded text are the bytes of its characters. -/
theorem units_percentEncode (s : List Char) :
    units (percentEncode s) = (s.flatMap utf8).map .byte := by
  induction s with
  | nil => rfl
  | cons c s ih =>
      rw [percentEncode] at ih
      rw [percentEncode, List.flatMap_cons, List.flatMap_cons, List.map_append, ← ih]
      split
      · rename_i hc
        obtain ⟨hascii, hpercent⟩ := isUnreserved_bounds hc
        have hbytes : utf8 c = [c.toNat] := if_pos hascii
        rw [List.singleton_append, units_cons_of_ne hpercent, hbytes, EncodedUnit.ofChar,
          if_pos hascii]
        rfl
      · exact units_escapedBytes (utf8_lt c) _

/-- **Percent-encoding is read back**, whatever characters the text has. -/
theorem percentDecode_percentEncode (s : List Char) : percentDecode (percentEncode s) = s := by
  rw [percentDecode, units_percentEncode]
  induction s with
  | nil => rfl
  | cons c s ih =>
      rw [List.flatMap_cons, List.map_append, textFrom_utf8, ih]

/-- An encoded text has unreserved characters and percent signs in it, and no others. -/
theorem isUnreserved_or_of_mem_percentEncode {s : List Char} :
    ∀ d ∈ percentEncode s, isUnreserved d = true ∨ d = '%' := by
  intro d hd
  obtain ⟨c, -, hd⟩ := List.mem_flatMap.mp hd
  split at hd
  · rename_i hc
    rw [List.mem_singleton.mp hd]
    exact Or.inl hc
  · obtain ⟨b, hb, hd⟩ := List.mem_flatMap.mp hd
    have hlt := utf8_lt c b hb
    rw [escapedByte_eq hlt] at hd
    simp only [List.mem_cons, List.not_mem_nil, or_false] at hd
    rcases hd with rfl | rfl | rfl
    · exact Or.inr rfl
    · exact Or.inl (isUnreserved_upperDigit (by omega))
    · exact Or.inl (isUnreserved_upperDigit (by omega))

/-- A text that has characters has some when it is escaped. -/
theorem percentEncode_ne_nil {s : List Char} (h : s ≠ []) : percentEncode s ≠ [] := by
  intro hnil
  have hback := percentDecode_percentEncode s
  rw [hnil] at hback
  exact h hback.symm

end MessageBody.Link
