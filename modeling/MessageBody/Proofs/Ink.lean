import MessageBody.Proofs.SpacedText

/-! # Ink

    What is left of a text without its blanks and without the characters that
    have no width is its ink.  Trimming, showing with single spaces and dropping
    blank stretches all leave the ink of a text as it is. -/

namespace MessageBody

namespace Text

/-- Whether a character leaves a mark: it is neither blank nor without width. -/
def isInk (c : Char) : Bool :=
  !isBlank c && !isInvisible c

/-- The characters of a text that leave a mark. -/
def ink (s : List Char) : List Char :=
  s.filter isInk

@[simp] theorem ink_nil : ink [] = [] := rfl

@[simp] theorem ink_append (s t : List Char) : ink (s ++ t) = ink s ++ ink t :=
  List.filter_append ..

theorem ink_cons (c : Char) (s : List Char) :
    ink (c :: s) = if isInk c then c :: ink s else ink s :=
  List.filter_cons

/-- Blank characters leave no ink. -/
theorem isInk_eq_false_of_isBlank {c : Char} (h : isBlank c = true) : isInk c = false := by
  rw [isInk, h]
  rfl

/-- A blank character in front leaves the ink as it is. -/
theorem ink_cons_of_isBlank {c : Char} (h : isBlank c = true) (s : List Char) :
    ink (c :: s) = ink s := by
  rw [ink_cons, isInk_eq_false_of_isBlank h]
  rfl

/-- The white space of markup is blank. -/
theorem isBlank_of_isMarkupBlank {c : Char} (h : isMarkupBlank c = true) : isBlank c = true := by
  simp only [isMarkupBlank, Bool.or_eq_true, beq_iff_eq] at h
  rcases h with (((rfl | rfl) | rfl) | rfl) | rfl <;> decide

/-- What is blank in running text is blank. -/
theorem isBlank_of_isTextBlank {c : Char} (h : isTextBlank c = true) : isBlank c = true := by
  rcases Bool.or_eq_true_iff.mp h with h | h
  · exact isBlank_of_isMarkupBlank h
  · rw [beq_iff_eq.mp h]
    decide

/-- Blank text leaves no mark. -/
theorem ink_eq_nil_of_all_isMarkupBlank {s : List Char} (h : s.all isMarkupBlank = true) :
    ink s = [] := by
  refine List.filter_eq_nil_iff.mpr fun c hc => ?_
  rw [isInk_eq_false_of_isBlank (isBlank_of_isMarkupBlank (List.all_eq_true.mp h c hc))]
  exact Bool.false_ne_true

/-! ## Spacing -/

/-- Trimming takes away no ink. -/
theorem ink_trimStart (s : List Char) : ink (trimStart isBlank s) = ink s := by
  induction s with
  | nil => rfl
  | cons c cs ih =>
      by_cases hc : isBlank c = true
      · rw [ink_cons_of_isBlank hc, ← ih, trimStart, List.dropWhile_cons_of_pos hc]
        rfl
      · rw [trimStart, List.dropWhile_cons_of_neg hc]

/-- What leaves a mark in running text is solid. -/
theorem isSolid_of_isInk {c : Char} (h : isInk c = true) : isSolid c = true := by
  rw [isInk, Bool.and_eq_true, Bool.not_eq_true', Bool.not_eq_true'] at h
  refine isSolid_iff.mpr ⟨fun hblank => ?_, fun hinvisible => ?_⟩
  · exact Bool.eq_false_iff.mp h.1 (isBlank_of_isTextBlank (isTextBlank_iff.mpr hblank))
  · exact Bool.eq_false_iff.mp h.2 (isInvisible_iff.mpr hinvisible)

/-- Characters that are not solid leave no ink. -/
theorem ink_filter_isSolid (s : List Char) : ink (s.filter isSolid) = ink s := by
  rw [ink, List.filter_filter]
  refine List.filter_congr fun c _ => ?_
  cases hc : isInk c with
  | false => rfl
  | true => rw [isSolid_of_isInk hc, Bool.and_self]

/-- Running text shows all its ink. -/
theorem ink_shown (s : List Char) : ink (shown s) = ink s := by
  rw [← ink_filter_isSolid, filter_shown, ink_filter_isSolid]

/-- Running text shows something beside blanks just when it has ink. -/
theorem hasOther_isBlank_shown (s : List Char) :
    hasOther isBlank (shown s) = !(ink s).isEmpty := by
  have hvisible : ∀ c ∈ shown s, isInvisible c = false := by
    intro c hc
    rcases (spaced_shown s).mem c hc with rfl | hsolid
    · rfl
    · exact Bool.eq_false_iff.mpr (mt isInvisible_iff.mp (isSolid_iff.mp hsolid).2)
  rw [← ink_shown s, Bool.eq_iff_iff, hasOther, List.any_eq_true]
  simp only [Bool.not_eq_true', List.isEmpty_eq_false_iff_exists_mem, ink, List.mem_filter]
  refine exists_congr fun c => and_congr_right fun hc => ?_
  simp [isInk, hvisible c hc]

end Text

end MessageBody
