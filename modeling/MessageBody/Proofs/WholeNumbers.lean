import Mathlib.Data.List.Forall2
import Mathlib.Data.List.Pairwise
import Mathlib.Data.Nat.Digits.Defs
import MessageBody.Text.WholeNumber

/-! # Whole numbers and their texts

    A text is a whole number if it is an optional sign and one or more decimal digits
    (`Writes`).  The digits may be those of any scripts: the runs of ten in the table do
    not meet, so a character is a digit of one value at most.  A text is refused only for
    its number of digits; otherwise it is read as the number that it writes, if this has
    32 bits, and as none if there is no such number.  The decimal text of an integer
    writes it, so it is read as that integer or as none. -/

namespace MessageBody.Text

/-! ## Digits -/

/-- The character is the digit of value `d` in some script. -/
def IsDigitOf (c : Char) (d : Nat) : Prop :=
  ∃ z ∈ digitZeros, d ≤ 9 ∧ c.toNat = z + d

/-- The digits of one script end before those of the next begin. -/
theorem digitZeros_apart : digitZeros.Pairwise fun z z' => z + 9 < z' := by
  decide

/-- Digits of different scripts lie apart. -/
theorem eq_of_mem_digitZeros {z z' n : Nat} (hz : z ∈ digitZeros) (hz' : z' ∈ digitZeros)
    (h : z ≤ n ∧ n ≤ z + 9) (h' : z' ≤ n ∧ n ≤ z' + 9) : z = z' := by
  have hapart : digitZeros.Pairwise fun z z' => z + 9 < z' ∨ z' + 9 < z :=
    digitZeros_apart.imp Or.inl
  have : Std.Symm fun z z' : Nat => z + 9 < z' ∨ z' + 9 < z := ⟨fun _ _ => Or.symm⟩
  by_contra hne
  rcases hapart.forall hz hz' hne with hbefore | hbehind
  · omega
  · omega

/-- The value of a digit is its distance from the zero of its script. -/
theorem digitValue?_eq_some_iff {c : Char} {d : Nat} :
    digitValue? c = some d ↔ IsDigitOf c d := by
  rw [digitValue?, Option.map_eq_some_iff]
  constructor
  · rintro ⟨z, hfind, rfl⟩
    have hrun := List.find?_some hfind
    simp only [Bool.and_eq_true, decide_eq_true_eq] at hrun
    exact ⟨z, List.mem_of_find?_eq_some hfind, by omega, by omega⟩
  · rintro ⟨z, hz, hd, hc⟩
    have hrun : z ≤ c.toNat ∧ c.toNat ≤ z + 9 := by omega
    have hsome : (digitZeros.find? fun z => z ≤ c.toNat && c.toNat ≤ z + 9).isSome = true := by
      rw [List.find?_isSome]
      exact ⟨z, hz, by simpa using hrun⟩
    obtain ⟨z', hfind⟩ := Option.isSome_iff_exists.mp hsome
    have hrun' := List.find?_some hfind
    simp only [Bool.and_eq_true, decide_eq_true_eq] at hrun'
    refine ⟨z', hfind, ?_⟩
    -- the first run with the character is the one at `z`
    rw [← eq_of_mem_digitZeros hz (List.mem_of_find?_eq_some hfind) hrun hrun']
    omega

theorem digitValues?_eq_some_iff {s : List Char} {ds : List Nat} :
    digitValues? s = some ds ↔ List.Forall₂ IsDigitOf s ds := by
  induction s generalizing ds with
  | nil =>
      rw [digitValues?, Option.some.injEq, List.forall₂_nil_left_iff]
      exact eq_comm
  | cons c cs ih =>
      rw [List.forall₂_cons_left_iff, digitValues?]
      simp only [← digitValue?_eq_some_iff, ← ih]
      cases digitValue? c with
      | none => simp
      | some d =>
          cases digitValues? cs with
          | none => simp
          | some ds' => simp [eq_comm]

/-- Digits are read from the left, the last one counting least. -/
theorem ofDigits_eq (ds : List Nat) : ofDigits ds = Nat.ofDigits 10 ds.reverse := by
  rw [Nat.ofDigits_eq_foldr, List.foldr_reverse, ofDigits]
  simp only [Nat.cast_id, Nat.add_comm]

/-- A text that is read as digits has as many digits as values. -/
theorem countP_isDigit {s : List Char} {ds : List Nat} (h : digitValues? s = some ds) :
    s.countP isDigit = ds.length := by
  induction s generalizing ds with
  | nil =>
      cases h
      rfl
  | cons c cs ih =>
      have hvalues := digitValues?_eq_some_iff.mp h
      obtain ⟨d, ds', hd, hds', rfl⟩ := List.forall₂_cons_left_iff.mp hvalues
      have hdigit : isDigit c = true := by
        rw [isDigit, digitValue?_eq_some_iff.mpr hd]
        rfl
      rw [List.countP_cons_of_pos hdigit, ih (digitValues?_eq_some_iff.mpr hds'), List.length_cons]

/-! ## Texts that are numbers -/

/-- The text is one or more digits that write the number `n`, the first of them counting
    most. -/
def Denotes (s : List Char) (n : Nat) : Prop :=
  ∃ ds, s ≠ [] ∧ List.Forall₂ IsDigitOf s ds ∧ n = Nat.ofDigits 10 ds.reverse

/-- The text is an optional sign and one or more digits, and nothing else, that write the
    integer `n`. -/
inductive Writes : List Char → Int → Prop
  | unsigned {s : List Char} {n : Nat} (h : Denotes s n) : Writes s n
  | plus {s : List Char} {n : Nat} (h : Denotes s n) : Writes ('+' :: s) n
  | minus {s : List Char} {n : Nat} (h : Denotes s n) : Writes ('-' :: s) (-n)

theorem denotes_iff {s : List Char} {n : Nat} :
    Denotes s n ↔ ∃ d ds, digitValues? s = some (d :: ds) ∧ n = ofDigits (d :: ds) := by
  constructor
  · rintro ⟨ds, hs, hds, rfl⟩
    cases ds with
    | nil => exact absurd (List.forall₂_nil_right_iff.mp hds) hs
    | cons d ds => exact ⟨d, ds, digitValues?_eq_some_iff.mpr hds, (ofDigits_eq _).symm⟩
  · rintro ⟨d, ds, hds, rfl⟩
    refine ⟨d :: ds, ?_, digitValues?_eq_some_iff.mp hds, ofDigits_eq _⟩
    rintro rfl
    exact nomatch hds

/-- A text of digits does not begin with a sign. -/
theorem cutSign_of_denotes {s : List Char} {n : Nat} (h : Denotes s n) :
    cutSign s = (false, s) := by
  obtain ⟨d, ds, hds, -⟩ := denotes_iff.mp h
  have hsign : ∀ t, digitValues? ('-' :: t) = none ∧ digitValues? ('+' :: t) = none :=
    fun _ => ⟨rfl, rfl⟩
  unfold cutSign
  split
  · exact nomatch (hsign _).1.symm.trans hds
  · exact nomatch (hsign _).2.symm.trans hds
  · rfl

/-- Without its sign a text that is a number denotes the size of the number. -/
theorem writes_iff {s : List Char} {n : Int} :
    Writes s n ↔ ∃ m, Denotes (cutSign s).2 m ∧ n = signed (cutSign s).1 m := by
  constructor
  · intro h
    cases h with
    | unsigned h =>
        rw [cutSign_of_denotes h]
        exact ⟨_, h, rfl⟩
    | plus h => exact ⟨_, h, rfl⟩
    | minus h => exact ⟨_, h, rfl⟩
  · rintro ⟨m, h, rfl⟩
    unfold cutSign at h ⊢
    split at h
    · exact .minus h
    · exact .plus h
    · exact .unsigned h

/-- A text writes one number at most. -/
theorem Writes.unique {s : List Char} {m n : Int} (hm : Writes s m) (hn : Writes s n) : m = n := by
  obtain ⟨m', hm', rfl⟩ := writes_iff.mp hm
  obtain ⟨n', hn', rfl⟩ := writes_iff.mp hn
  obtain ⟨d, ds, hds, rfl⟩ := denotes_iff.mp hm'
  obtain ⟨e, es, hes, rfl⟩ := denotes_iff.mp hn'
  rw [Option.some.inj (hds.symm.trans hes)]

/-- A sign is no digit. -/
theorem countP_isDigit_cutSign (s : List Char) :
    (cutSign s).2.countP isDigit = s.countP isDigit := by
  unfold cutSign
  split
  · exact (List.countP_cons_of_neg (by decide)).symm
  · exact (List.countP_cons_of_neg (by decide)).symm
  · rfl

/-! ## Reading -/

/-- As far as `s` writes a whole number, it has no more digits than a number may
    have. -/
def FitsDigits (s : List Char) : Prop :=
  ∀ ds, digitValues? (cutSign s).2 = some ds → ds.length ≤ TooManyDigits.limit

/-- A text is read, as a number or as none, exactly when it has not too many
    digits. -/
theorem wholeNumber_ok_iff {s : List Char} : (∃ n?, wholeNumber s = .ok n?) ↔ FitsDigits s := by
  rw [FitsDigits]
  cases hds : digitValues? (cutSign s).2 with
  | none => simp [wholeNumber_of_none hds]
  | some ds =>
      cases ds with
      | nil => simp [wholeNumber_of_nil hds]
      | cons d ds =>
          rw [wholeNumber_of_cons hds]
          simp only [Option.some.injEq, forall_eq']
          -- once there are digits, only their number decides
          by_cases hlong : TooManyDigits.limit < (d :: ds).length
          · rw [if_pos hlong]
            constructor
            · rintro ⟨n?, h⟩
              exact nomatch h
            · intro h
              omega
          · rw [if_neg hlong]
            constructor
            · intro _
              omega
            · intro _
              exact ⟨_, rfl⟩

/-- A number of few digits is not refused. -/
theorem wholeNumber_eq_ok {s : List Char} (h : FitsDigits s) :
    wholeNumber s = .ok (wholeNumber? s) := by
  obtain ⟨n?, hn⟩ := wholeNumber_ok_iff.mpr h
  rw [hn, wholeNumber?_of_ok hn]

instance (s : List Char) : Decidable (FitsDigits s) :=
  match h : wholeNumber s with
  | .ok n? => isTrue (wholeNumber_ok_iff.mp ⟨n?, h⟩)
  | .error _ => isFalse fun hfits => by
      obtain ⟨n?, hn⟩ := wholeNumber_ok_iff.mpr hfits
      rw [h] at hn
      exact nomatch hn

theorem isInt32_iff {n : Int} : isInt32 n = true ↔ -2 ^ 31 ≤ n ∧ n < 2 ^ 31 := by
  simp only [isInt32, Bool.and_eq_true, decide_eq_true_eq]
  omega

/-- A text of few digits that is a number is read if the number has 32 bits. -/
theorem wholeNumber_of_writes {s : List Char} {n : Int} (h : Writes s n)
    (hfew : s.countP isDigit ≤ TooManyDigits.limit) :
    wholeNumber s = .ok (if isInt32 n then some n else none) := by
  obtain ⟨m, hm, rfl⟩ := writes_iff.mp h
  obtain ⟨d, ds, hds, rfl⟩ := denotes_iff.mp hm
  rw [← countP_isDigit_cutSign, countP_isDigit hds] at hfew
  rw [wholeNumber_of_cons hds, if_neg (Nat.not_lt.mpr hfew)]

/-- A text that is no number is read as none. -/
theorem wholeNumber_of_not_writes {s : List Char} (h : ∀ n, ¬ Writes s n) :
    wholeNumber s = .ok none := by
  cases hds : digitValues? (cutSign s).2 with
  | none => exact wholeNumber_of_none hds
  | some ds =>
      cases ds with
      | nil => exact wholeNumber_of_nil hds
      | cons d ds =>
          have hdenotes : Denotes (cutSign s).2 (ofDigits (d :: ds)) :=
            denotes_iff.mpr ⟨d, ds, hds, rfl⟩
          exact absurd (writes_iff.mpr ⟨_, hdenotes, rfl⟩) (h _)

/-! ## Decimal texts -/

theorem digitValue?_of_isDigit {c : Char} (h : c.isDigit) :
    digitValue? c = some (c.toNat - '0'.toNat) := by
  have hbounds : 48 ≤ c.toNat ∧ c.toNat ≤ 57 := by
    simpa [Char.isDigit, UInt32.le_iff_toNat_le] using h
  show (List.find? (fun z => z ≤ c.toNat && c.toNat ≤ z + 9) (0x30 :: digitZeros.tail)).map
    (c.toNat - ·) = _
  rw [List.find?_cons_of_pos (by simpa using hbounds)]
  rfl

theorem digitValues?_of_isDigit {s : List Char} (h : ∀ c ∈ s, c.isDigit) :
    digitValues? s = some (s.map fun c => c.toNat - '0'.toNat) := by
  induction s with
  | nil => rfl
  | cons c s ih =>
      rw [digitValues?, digitValue?_of_isDigit (h c (List.mem_cons_self ..)),
        ih fun c' hc' => h c' (List.mem_cons_of_mem _ hc')]
      rfl

theorem ofDigits_map (s : List Char) :
    ofDigits (s.map fun c => c.toNat - '0'.toNat) = Nat.ofDigitChars 10 s 0 := by
  rw [ofDigits, List.foldl_map, Nat.ofDigitChars_eq_foldl]

/-- The digits of a number have its value. -/
theorem ofDigits_toDigits (n : Nat) :
    ofDigits ((Nat.toDigits 10 n).map fun c => c.toNat - '0'.toNat) = n := by
  rw [ofDigits_map, Nat.ofDigitChars_ten_toDigits]

theorem isDigit_of_mem_toDigits {n : Nat} {c : Char} (h : c ∈ Nat.toDigits 10 n) : c.isDigit :=
  Nat.isDigit_of_mem_toDigits (by decide) (by decide) h

theorem toList_toString (n : Nat) : (toString n).toList = Nat.toDigits 10 n := by
  rw [Nat.toString_eq_repr, Nat.toList_repr]

/-- A text that begins with a digit has no sign. -/
theorem cutSign_of_isDigit {s : List Char} (h : ∀ c ∈ s, c.isDigit) : cutSign s = (false, s) := by
  unfold cutSign
  split
  · exact absurd (h '-' (List.mem_cons_self ..)) (by decide)
  · exact absurd (h '+' (List.mem_cons_self ..)) (by decide)
  · rfl

theorem denotes_toDigits (n : Nat) : Denotes (Nat.toDigits 10 n) n := by
  have hds := digitValues?_of_isDigit (s := Nat.toDigits 10 n) fun _ => isDigit_of_mem_toDigits
  refine ⟨_, Nat.toDigits_ne_nil, digitValues?_eq_some_iff.mp hds, ?_⟩
  rw [← ofDigits_eq, ofDigits_toDigits]

/-- A number below ten to the tenth has at most ten digits. -/
theorem countP_toDigits_le {n : Nat} (h : n < 10 ^ 10) :
    (Nat.toDigits 10 n).countP isDigit ≤ 10 :=
  Nat.le_trans List.countP_le_length
    ((Nat.length_toDigits_le_iff (by decide) (by decide)).mpr h)

/-- The decimal text of a natural number of 31 bits reads as that number. -/
theorem wholeNumber_toString {n : Nat} (h : n < 2147483648) :
    wholeNumber (toString n).toList = .ok (some (n : Int)) := by
  have hfew : (Nat.toDigits 10 n).countP isDigit ≤ TooManyDigits.limit :=
    Nat.le_trans (countP_toDigits_le (by omega)) (by decide)
  have hrange : -2 ^ 31 ≤ (n : Int) ∧ (n : Int) < 2 ^ 31 := by omega
  rw [toList_toString, wholeNumber_of_writes (.unsigned (denotes_toDigits n)) hfew,
    if_pos (isInt32_iff.mpr hrange)]

/-- A small number is read back from its decimal text. -/
theorem wholeNumber?_toString {n : Nat} (h : n < 2147483648) :
    wholeNumber? (toString n).toList = some (n : Int) :=
  wholeNumber?_of_ok (wholeNumber_toString h)

/-- The decimal text of an integer is its digits, behind a sign when it is negative. -/
theorem toList_toString_int (n : Int) :
    (toString n).toList
      = if n < 0 then '-' :: Nat.toDigits 10 n.natAbs else Nat.toDigits 10 n.natAbs := by
  rw [Int.toString_eq_repr, Int.repr_eq_if]
  by_cases hn : n < 0
  · have habs : (-n).toNat = n.natAbs := by omega
    rw [if_neg (by omega), if_pos hn, String.toList_append, Nat.toList_repr, habs]
    rfl
  · have habs : n.toNat = n.natAbs := by omega
    rw [if_pos (by omega), if_neg hn, Nat.toList_repr, habs]

/-- The decimal text of an integer writes it. -/
theorem writes_toString (n : Int) : Writes (toString n).toList n := by
  have hdigits := denotes_toDigits n.natAbs
  rw [toList_toString_int]
  by_cases hn : n < 0
  · have hvalue : n = -(n.natAbs : Int) := by omega
    rw [if_pos hn, hvalue, Int.natAbs_neg, Int.natAbs_natCast]
    exact .minus hdigits
  · have hvalue : n = (n.natAbs : Int) := by omega
    rw [if_neg hn, hvalue, Int.natAbs_natCast]
    exact .unsigned hdigits

/-- The decimal text of a number of 32 bits has few digits. -/
theorem countP_toString_le {n : Int} (h : -2 ^ 31 ≤ n ∧ n < 2 ^ 31) :
    (toString n).toList.countP isDigit ≤ TooManyDigits.limit := by
  have hcount := countP_toDigits_le (n := n.natAbs) (by omega)
  rw [toList_toString_int, TooManyDigits.limit]
  by_cases hn : n < 0
  · rw [if_pos hn, List.countP_cons_of_neg (by decide)]
    omega
  · rw [if_neg hn]
    omega

/-- **Reading is reading what is written.**  A text of at most 4300 digits is read as a
    number just in case it is an optional sign and one or more digits that write a number
    of 32 bits, and then as this number.  In particular the decimal text of an integer is
    read as the integer if it has 32 bits, and as none otherwise. -/
theorem wholeNumber_of_fewDigits :
    (∀ s : List Char, s.countP isDigit ≤ 4300 →
      ∃ n?, wholeNumber s = .ok n?
        ∧ ∀ n, n? = some n ↔ Writes s n ∧ -2 ^ 31 ≤ n ∧ n < 2 ^ 31)
    ∧ (∀ n : Int, -2 ^ 31 ≤ n → n < 2 ^ 31 → wholeNumber (toString n).toList = .ok (some n))
    ∧ ∀ n : Int, ¬ (-2 ^ 31 ≤ n ∧ n < 2 ^ 31) → (toString n).toList.countP isDigit ≤ 4300 →
      wholeNumber (toString n).toList = .ok none := by
  refine ⟨?_, ?_, ?_⟩
  · intro s hfew
    -- few digits leave only these two: a number, in or out of range, and no number at all
    by_cases hwrites : ∃ n, Writes s n
    · obtain ⟨n, hn⟩ := hwrites
      refine ⟨_, wholeNumber_of_writes hn hfew, ?_⟩
      intro m
      rw [Option.ite_none_right_eq_some, isInt32_iff]
      constructor
      · rintro ⟨hrange, ⟨⟩⟩
        exact ⟨hn, hrange⟩
      · rintro ⟨hm, hrange⟩
        cases hm.unique hn
        exact ⟨hrange, rfl⟩
    · have hnot : ∀ n, ¬ Writes s n := fun n hn => hwrites ⟨n, hn⟩
      exact ⟨none, wholeNumber_of_not_writes hnot, fun n => iff_of_false nofun fun h => hnot n h.1⟩
  · intro n hlow hhigh
    rw [wholeNumber_of_writes (writes_toString n) (countP_toString_le ⟨hlow, hhigh⟩),
      if_pos (isInt32_iff.mpr ⟨hlow, hhigh⟩)]
  · intro n hrange hfew
    rw [wholeNumber_of_writes (writes_toString n) hfew, if_neg (mt isInt32_iff.mp hrange)]

/-- Leading zeros and digits of another script behind a sign, and the numbers at either end
    of 32 bits. -/
theorem wholeNumber_of_arabicDigits :
    (∃ n?, wholeNumber "-0\u0663\u0664".toList = .ok n? ∧ n? = some (-34))
      ∧ wholeNumber (toString (-2147483648 : Int)).toList = .ok (some (-2147483648))
      ∧ wholeNumber (toString (2147483648 : Int)).toList = .ok none := by
  obtain ⟨hreads, hkept, hlost⟩ := wholeNumber_of_fewDigits
  refine ⟨?_, hkept (-2147483648) (by decide) (by decide), hlost 2147483648 (by decide) (by decide)⟩
  obtain ⟨n?, hread, hn⟩ := hreads "-0\u0663\u0664".toList (by decide)
  have hdigits : Denotes "0\u0663\u0664".toList 34 := denotes_iff.mpr ⟨0, [3, 4], by decide, rfl⟩
  exact ⟨n?, hread, (hn (-34)).mpr ⟨.minus hdigits, by decide, by decide⟩⟩

end MessageBody.Text
