import Mathlib.Data.List.Forall2
import MessageBody.Text.Spacing

/-! # The spacing of running text

    Running text is shown with single spaces between its solid characters, those that are
    neither blank nor invisible.  `Spaced` is this normal form.  Showing brings every text
    into it (`spaced_shownAfter`) and changes nothing of a text that has it
    (`shownAfter_of_spaced`).  The solid characters are kept, and there is a space in a gap
    between them just in case there is a blank in the gap, whatever invisible characters
    stand among the blanks. -/

namespace MessageBody.Text

/-- The blanks of running text. -/
def textBlanks : List Char :=
  [' ', '\t', '\n', '\x0c', '\r', '\u00a0']

/-- The characters of running text that have no width. -/
def invisibles : List Char :=
  ['\u200b', '\u00ad']

/-- Whether a character is neither blank nor without width. -/
def isSolid (c : Char) : Bool :=
  !textBlanks.contains c && !invisibles.contains c

theorem isTextBlank_iff {c : Char} : isTextBlank c = true ↔ c ∈ textBlanks := by
  simp [isTextBlank, isMarkupBlank, textBlanks, or_assoc]

/-- The white space of markup is blank in running text. -/
theorem mem_textBlanks_of_isMarkupBlank {c : Char} (h : isMarkupBlank c = true) :
    c ∈ textBlanks :=
  isTextBlank_iff.mp (Bool.or_eq_true_iff.mpr (.inl h))

theorem isInvisible_iff {c : Char} : isInvisible c = true ↔ c ∈ invisibles := by
  simp [isInvisible, invisibles]

/-- What is solid is neither blank nor invisible. -/
theorem isSolid_iff {c : Char} : isSolid c = true ↔ c ∉ textBlanks ∧ c ∉ invisibles := by
  simp [isSolid]

theorem space_mem_textBlanks : ' ' ∈ textBlanks := by
  decide

theorem not_mem_invisibles_of_mem_textBlanks {c : Char} (hc : c ∈ textBlanks) :
    c ∉ invisibles := by
  simp only [textBlanks, List.mem_cons, List.not_mem_nil, or_false] at hc
  rcases hc with rfl | rfl | rfl | rfl | rfl | rfl <;> decide

theorem not_isSolid_of_blank {c : Char} (hc : c ∈ textBlanks) : ¬ isSolid c = true :=
  fun h => (isSolid_iff.mp h).1 hc

theorem not_isSolid_of_invisible {c : Char} (hc : c ∈ invisibles) : ¬ isSolid c = true :=
  fun h => (isSolid_iff.mp h).2 hc

/-! ## Showing -/

/-- The text as it is shown behind a blank, if `inRun`, or behind another character. -/
def shownAfter (inRun : Bool) (s : List Char) : List Char :=
  squeeze isTextBlank inRun (s.filter fun c => !isInvisible c)

theorem shownAfter_invisible {c : Char} (hc : c ∈ invisibles) (inRun : Bool) (s : List Char) :
    shownAfter inRun (c :: s) = shownAfter inRun s := by
  rw [shownAfter, List.filter_cons_of_neg (by simp [isInvisible_iff.mpr hc])]
  rfl

/-- Of the blanks in a row only the first shows, as a space. -/
theorem shownAfter_blank {c : Char} (hc : c ∈ textBlanks) (inRun : Bool) (s : List Char) :
    shownAfter inRun (c :: s)
      = if inRun then shownAfter true s else ' ' :: shownAfter true s := by
  have hvisible : isInvisible c = false :=
    Bool.eq_false_iff.mpr (mt isInvisible_iff.mp (not_mem_invisibles_of_mem_textBlanks hc))
  rw [shownAfter, List.filter_cons_of_pos (by rw [hvisible]; rfl), squeeze_cons,
    if_pos (isTextBlank_iff.mpr hc)]
  rfl

theorem shownAfter_solid {c : Char} (hc : isSolid c = true) (inRun : Bool) (s : List Char) :
    shownAfter inRun (c :: s) = c :: shownAfter false s := by
  obtain ⟨hblank, hinvisible⟩ := isSolid_iff.mp hc
  have hvisible : isInvisible c = false := Bool.eq_false_iff.mpr (mt isInvisible_iff.mp hinvisible)
  have hother : isTextBlank c = false := Bool.eq_false_iff.mpr (mt isTextBlank_iff.mp hblank)
  rw [shownAfter, List.filter_cons_of_pos (by rw [hvisible]; rfl), squeeze_cons_other hother]
  rfl

/-- A text goes on with an invisible character, with a blank or with a solid character. -/
@[elab_as_elim]
theorem spacing_induction {motive : List Char → Prop} (nil : motive [])
    (invisible : ∀ c s, c ∈ invisibles → motive s → motive (c :: s))
    (blank : ∀ c s, c ∈ textBlanks → motive s → motive (c :: s))
    (solid : ∀ c s, isSolid c = true → motive s → motive (c :: s)) (s : List Char) : motive s := by
  induction s with
  | nil => exact nil
  | cons c s ih =>
      by_cases hblank : c ∈ textBlanks
      · exact blank c s hblank ih
      · by_cases hinvisible : c ∈ invisibles
        · exact invisible c s hinvisible ih
        · exact solid c s (isSolid_iff.mpr ⟨hblank, hinvisible⟩) ih

/-! ## The normal form -/

/-- A text of solid characters and single spaces, which does not begin with a space if it
    stands behind one. -/
inductive Spaced : Bool → List Char → Prop
  | nil (inRun : Bool) : Spaced inRun []
  | space {t : List Char} (h : Spaced true t) : Spaced false (' ' :: t)
  | solid {inRun : Bool} {c : Char} {t : List Char} (hc : isSolid c = true) (h : Spaced false t) :
      Spaced inRun (c :: t)

/-- What is shown has single spaces and solid characters. -/
theorem spaced_shownAfter (inRun : Bool) (s : List Char) : Spaced inRun (shownAfter inRun s) := by
  induction s using spacing_induction generalizing inRun with
  | nil => exact .nil inRun
  | invisible c s hc ih =>
      rw [shownAfter_invisible hc]
      exact ih inRun
  | blank c s hc ih =>
      rw [shownAfter_blank hc]
      cases inRun with
      | true => exact ih true
      | false => exact .space (ih true)
  | solid c s hc ih =>
      rw [shownAfter_solid hc]
      exact .solid hc (ih false)

theorem spaced_shown (s : List Char) : Spaced false (shown s) :=
  spaced_shownAfter false s

/-- A text in normal form is shown as it is. -/
theorem shownAfter_of_spaced {inRun : Bool} {t : List Char} (h : Spaced inRun t) :
    shownAfter inRun t = t := by
  induction h with
  | nil inRun => rfl
  | space _ ih =>
      rw [shownAfter_blank space_mem_textBlanks, ih]
      rfl
  | solid hc _ ih => rw [shownAfter_solid hc, ih]

theorem Spaced.mem {inRun : Bool} {t : List Char} (h : Spaced inRun t) :
    ∀ c ∈ t, c = ' ' ∨ isSolid c = true := by
  induction h with
  | nil => exact nofun
  | space _ ih => exact List.forall_mem_cons.mpr ⟨.inl rfl, ih⟩
  | solid hc _ ih => exact List.forall_mem_cons.mpr ⟨.inr hc, ih⟩

theorem ne_space_of_isSolid {c : Char} (hc : isSolid c = true) : c ≠ ' ' := by
  rintro rfl
  exact not_isSolid_of_blank space_mem_textBlanks hc

theorem Spaced.head?_ne {t : List Char} (h : Spaced true t) : t.head? ≠ some ' ' := by
  cases h with
  | nil => exact nofun
  | solid hc _ => exact fun hhead => ne_space_of_isSolid hc (Option.some.inj hhead)

/-- Spaced text never has two spaces in a row. -/
theorem Spaced.not_infix {inRun : Bool} {t : List Char} (h : Spaced inRun t) :
    ¬ [' ', ' '] <:+: t := by
  induction h with
  | nil => exact fun h => nomatch List.eq_nil_of_infix_nil h
  | space h ih =>
      rw [List.infix_cons_iff]
      rintro (hfront | hbehind)
      · obtain ⟨rest, hrest⟩ := (List.cons_prefix_cons.mp hfront).2
        exact h.head?_ne (hrest ▸ rfl)
      · exact ih hbehind
  | solid hc _ ih =>
      rw [List.infix_cons_iff]
      rintro (hfront | hbehind)
      · exact ne_space_of_isSolid hc (List.cons_prefix_cons.mp hfront).1.symm
      · exact ih hbehind

/-! ## Solid characters and the gaps between them -/

/-- Showing keeps the solid characters. -/
theorem filter_shownAfter (inRun : Bool) (s : List Char) :
    (shownAfter inRun s).filter isSolid = s.filter isSolid := by
  induction s using spacing_induction generalizing inRun with
  | nil => rfl
  | invisible c s hc ih =>
      rw [shownAfter_invisible hc, ih, List.filter_cons_of_neg (not_isSolid_of_invisible hc)]
  | blank c s hc ih =>
      rw [shownAfter_blank hc, List.filter_cons_of_neg (not_isSolid_of_blank hc)]
      -- inside a run a blank gives nothing, and the first blank of a run gives a space
      cases inRun with
      | true => exact ih true
      | false =>
          have hspace := not_isSolid_of_blank space_mem_textBlanks
          exact (List.filter_cons_of_neg hspace).trans (ih true)
  | solid c s hc ih =>
      rw [shownAfter_solid hc, List.filter_cons_of_pos hc, List.filter_cons_of_pos hc, ih]

/-- Running text shows its solid characters. -/
theorem filter_shown (s : List Char) : (shown s).filter isSolid = s.filter isSolid :=
  filter_shownAfter false s

/-- What a text begins with up to its first solid character. -/
def gap (s : List Char) : List Char :=
  s.takeWhile fun c => !isSolid c

/-- What stands behind each solid character up to the next one, or to the end. -/
def gaps : List Char → List (List Char)
  | [] => []
  | c :: s => if isSolid c then gap s :: gaps s else gaps s

theorem gap_solid {c : Char} (hc : isSolid c = true) (s : List Char) : gap (c :: s) = [] :=
  List.takeWhile_cons_of_neg (by simp [hc])

theorem gap_other {c : Char} (hc : ¬ isSolid c = true) (s : List Char) :
    gap (c :: s) = c :: gap s :=
  List.takeWhile_cons_of_pos (by simp [hc])

/-- There is a space up to the first solid character if there is a blank, unless the text
    stands behind one. -/
theorem space_mem_gap_iff (inRun : Bool) (s : List Char) :
    ' ' ∈ gap (shownAfter inRun s) ↔ inRun = false ∧ ∃ c ∈ gap s, c ∈ textBlanks := by
  induction s using spacing_induction generalizing inRun with
  | nil => exact ⟨nofun, fun ⟨_, _, h, _⟩ => nomatch h⟩
  | invisible c s hc ih =>
      have hother : c ∉ textBlanks := fun h => not_mem_invisibles_of_mem_textBlanks h hc
      rw [shownAfter_invisible hc, ih, gap_other (not_isSolid_of_invisible hc)]
      simp [hother]
  | blank c s hc ih =>
      rw [shownAfter_blank hc, gap_other (not_isSolid_of_blank hc)]
      cases inRun with
      | true => simpa using ih true
      | false =>
          -- this blank is the one that is shown as a space
          refine iff_of_true ?_ ⟨rfl, c, List.mem_cons_self, hc⟩
          rw [if_neg Bool.false_ne_true, gap_other (not_isSolid_of_blank space_mem_textBlanks)]
          exact List.mem_cons_self
  | solid c s hc ih =>
      rw [shownAfter_solid hc, gap_solid hc, gap_solid hc]
      simp

/-- There is a space in a gap just in case there is a blank in it. -/
theorem gaps_shownAfter (inRun : Bool) (s : List Char) :
    List.Forall₂ (fun g g' => ' ' ∈ g ↔ ∃ c ∈ g', c ∈ textBlanks) (gaps (shownAfter inRun s))
      (gaps s) := by
  induction s using spacing_induction generalizing inRun with
  | nil => exact .nil
  | invisible c s hc ih =>
      rw [shownAfter_invisible hc, gaps, if_neg (not_isSolid_of_invisible hc)]
      exact ih inRun
  | blank c s hc ih =>
      rw [shownAfter_blank hc, gaps, if_neg (not_isSolid_of_blank hc)]
      -- a space opens no gap, and behind it the text is shown as behind a blank
      cases inRun with
      | true => exact ih true
      | false => exact ih true
  | solid c s hc ih =>
      rw [shownAfter_solid hc, gaps, gaps, if_pos hc, if_pos hc]
      refine .cons ?_ (ih false)
      rw [space_mem_gap_iff]
      simp

/-- **Running text is shown with single spaces**: no other blank and no invisible character
    is left and no two spaces are side by side; the solid characters are those of the text,
    in their order; there is a space behind one of them, up to the next, just in case the
    text has a blank there, and in front of the first likewise; and what is shown is shown
    again as it is. -/
theorem shown_of_runningText (s : List Char) :
    (∀ c ∈ shown s, c ∉ ['\u200b', '\u00ad', '\t', '\n', '\x0c', '\r', '\u00a0'])
      ∧ ¬ [' ', ' '] <:+: shown s
      ∧ (shown s).filter (fun c => c ≠ ' ') = s.filter isSolid
      ∧ List.Forall₂ (fun g g' => ' ' ∈ g ↔ ∃ c ∈ g', c ∈ textBlanks) (gaps (shown s)) (gaps s)
      ∧ (' ' ∈ gap (shown s) ↔ ∃ c ∈ gap s, c ∈ textBlanks)
      ∧ shown (shown s) = shown s := by
  have hspaced := spaced_shown s
  refine ⟨?_, hspaced.not_infix, ?_, gaps_shownAfter false s, ?_, shownAfter_of_spaced hspaced⟩
  · intro c hc
    rcases hspaced.mem c hc with rfl | hsolid
    · decide
    · intro hmem
      simp only [List.mem_cons, List.not_mem_nil, or_false] at hmem
      rcases hmem with rfl | rfl | rfl | rfl | rfl | rfl | rfl <;> exact nomatch hsolid
  · rw [← filter_shown]
    refine List.filter_congr fun c hc => ?_
    rcases hspaced.mem c hc with rfl | hsolid
    · rfl
    · simp [hsolid, ne_space_of_isSolid hsolid]
  · exact (space_mem_gap_iff false s).trans (and_iff_right rfl)

example : shown "a \u200b\u00a0b".toList = "a b".toList := by decide

end MessageBody.Text
