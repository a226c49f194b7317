import Mathlib.Data.List.Chain
import MessageBody.Proofs.Replacement
import MessageBody.Text.Spacing

/-! # Dropped spaces

    Compressing the source of markup first makes one space of each run of blanks and then
    only takes spaces away.  Taking spaces away keeps all other characters in their order,
    and where the only blanks are single spaces it brings no two of them together
    (`IsSpaced.of_dropsSpaces`), wherever the spaces are taken. -/

namespace MessageBody.Text

/-- The characters of markup source that are not blank. -/
def nonblank (s : List Char) : List Char :=
  s.filter fun c => !isSourceBlank c

@[simp] theorem nonblank_append (s t : List Char) : nonblank (s ++ t) = nonblank s ++ nonblank t :=
  List.filter_append ..

theorem nonblank_cons (c : Char) (s : List Char) :
    nonblank (c :: s) = if isSourceBlank c then nonblank s else c :: nonblank s := by
  rw [nonblank, List.filter_cons]
  cases isSourceBlank c <;> rfl

/-- Where a character that is not blank stands behind the same other ones, it is the same
    one. -/
theorem eq_of_nonblank_eq {c : Char} (hc : isSourceBlank c = false) {s s' t t' : List Char}
    (h : s ++ c :: t = s' ++ c :: t') (hnonblank : nonblank s = nonblank s') : s = s' := by
  have hnil : ∀ {r u u' : List Char}, c :: u = r ++ c :: u' → nonblank r = [] → r = [] := by
    intro r u u' heq hr
    cases r with
    | nil => rfl
    | cons d ds =>
        obtain ⟨rfl, -⟩ := List.cons.inj heq
        rw [nonblank_cons, hc] at hr
        exact nomatch hr
  rcases List.append_eq_append_iff.mp h with ⟨r, rfl, hr⟩ | ⟨r, rfl, hr⟩
  · rw [nonblank_append] at hnonblank
    rw [hnil hr (List.append_right_eq_self.mp hnonblank.symm), List.append_nil]
  · rw [nonblank_append] at hnonblank
    rw [hnil hr (List.append_right_eq_self.mp hnonblank), List.append_nil]

/-- The second text is the first without some of its spaces. -/
inductive DropsSpaces : List Char → List Char → Prop
  | nil : DropsSpaces [] []
  | keep (c : Char) {s t : List Char} : DropsSpaces s t → DropsSpaces (c :: s) (c :: t)
  | drop {s t : List Char} : DropsSpaces s t → DropsSpaces (' ' :: s) t

namespace DropsSpaces

variable {s t u : List Char}

theorem refl (s : List Char) : DropsSpaces s s := by
  induction s with
  | nil => exact .nil
  | cons c cs ih => exact .keep c ih

/-- Spaces can be dropped from both parts of a text. -/
theorem append {s' t' : List Char} (h : DropsSpaces s t) (h' : DropsSpaces s' t') :
    DropsSpaces (s ++ s') (t ++ t') := by
  induction h with
  | nil => exact h'
  | keep c _ ih => exact .keep c ih
  | drop _ ih => exact .drop ih

theorem trans (h : DropsSpaces s t) (h' : DropsSpaces t u) : DropsSpaces s u := by
  induction h generalizing u with
  | nil => exact h'
  | @keep c s t _ ih =>
      cases h' with
      | keep _ h' => exact .keep c (ih h')
      | drop h' => exact .drop (ih h')
  | drop _ ih => exact .drop (ih h')

/-- Spaces can all be dropped. -/
theorem of_spaces (h : ∀ c ∈ s, c = ' ') : DropsSpaces s [] := by
  induction s with
  | nil => exact .nil
  | cons c cs ih =>
      obtain ⟨rfl, hcs⟩ := List.forall_mem_cons.mp h
      exact .drop (ih hcs)

/-- Dropping spaces keeps the characters that are not blank. -/
theorem nonblank_eq (h : DropsSpaces s t) : nonblank t = nonblank s := by
  induction h with
  | nil => rfl
  | keep c _ ih => rw [nonblank_cons, nonblank_cons, ih]
  | drop _ ih =>
      rw [nonblank_cons, ih]
      rfl

/-- Dropping spaces brings no new characters. -/
theorem mem (h : DropsSpaces s t) : ∀ c ∈ t, c ∈ s := by
  induction h with
  | nil => exact nofun
  | keep c _ ih =>
      refine List.forall_mem_cons.mpr ⟨List.mem_cons_self, fun d hd => ?_⟩
      exact List.mem_cons_of_mem c (ih d hd)
  | drop _ ih => exact fun d hd => List.mem_cons_of_mem ' ' (ih d hd)

/-- Dropping spaces makes no text longer. -/
theorem length_le (h : DropsSpaces s t) : t.length ≤ s.length := by
  induction h with
  | nil => exact Nat.le_refl _
  | keep c _ ih => exact Nat.succ_le_succ ih
  | drop _ ih => exact Nat.le_succ_of_le ih

/-- A text that does not begin with a space keeps its first character. -/
theorem head?_eq (h : DropsSpaces s t) (hs : s.head? ≠ some ' ') : t.head? = s.head? := by
  cases h with
  | nil => rfl
  | keep c _ => rfl
  | drop _ => exact absurd rfl hs

end DropsSpaces

/-! ## Single spaces -/

/-- The only blanks are spaces, and no two of them are side by side. -/
def IsSpaced (s : List Char) : Prop :=
  (∀ c ∈ s, isSourceBlank c = true → c = ' ') ∧ s.IsChain fun c d => ¬ (c = ' ' ∧ d = ' ')

/-- A text is spaced if its first character is no blank but a single space and the rest is spaced.
    -/
theorem isSpaced_cons_iff {c : Char} {s : List Char} :
    IsSpaced (c :: s) ↔ (isSourceBlank c = true → c = ' ')
      ∧ (c = ' ' → s.head? ≠ some ' ') ∧ IsSpaced s := by
  rw [IsSpaced, List.forall_mem_cons, List.isChain_cons, IsSpaced]
  constructor
  · rintro ⟨⟨hc, hs⟩, hhead, hchain⟩
    exact ⟨hc, fun h hspace => hhead ' ' hspace ⟨h, rfl⟩, hs, hchain⟩
  · rintro ⟨hc, hhead, hs, hchain⟩
    refine ⟨⟨hc, hs⟩, fun d hd => ?_, hchain⟩
    rintro ⟨h, rfl⟩
    exact hhead h hd

/-- Taking spaces away brings no two spaces together. -/
theorem IsSpaced.of_dropsSpaces {s t : List Char} (hs : IsSpaced s) (h : DropsSpaces s t) :
    IsSpaced t := by
  induction h with
  | nil => exact hs
  | keep c h ih =>
      obtain ⟨hc, hhead, hrest⟩ := isSpaced_cons_iff.mp hs
      refine isSpaced_cons_iff.mpr ⟨hc, fun hspace => ?_, ih hrest⟩
      rw [h.head?_eq (hhead hspace)]
      exact hhead hspace
  | drop _ ih => exact ih (isSpaced_cons_iff.mp hs).2.2

/-- Squeezed source has single spaces for blanks; behind a blank it does not begin with
    one. -/
theorem isSpaced_squeeze (inRun : Bool) (s : List Char) :
    IsSpaced (squeeze isSourceBlank inRun s)
      ∧ (inRun = true → (squeeze isSourceBlank inRun s).head? ≠ some ' ') := by
  -- the second part carries the induction: inside a run no space can come next
  induction s generalizing inRun with
  | nil => exact ⟨⟨nofun, .nil⟩, fun _ => nofun⟩
  | cons c cs ih =>
      rw [squeeze_cons]
      by_cases hc : isSourceBlank c = true
      · rw [if_pos hc]
        cases inRun with
        | true => exact ih true
        | false =>
            refine ⟨isSpaced_cons_iff.mpr ⟨fun _ => rfl, fun _ => ?_, (ih true).1⟩, nofun⟩
            exact (ih true).2 rfl
      · rw [if_neg hc]
        have hne : c ≠ ' ' := by
          rintro rfl
          exact hc rfl
        refine ⟨isSpaced_cons_iff.mpr ⟨fun h => absurd h hc, fun h => absurd h hne, (ih false).1⟩,
          fun _ h => hne (Option.some.inj h)⟩

/-- Squeezing takes away blanks only. -/
theorem nonblank_squeeze (inRun : Bool) (s : List Char) :
    nonblank (squeeze isSourceBlank inRun s) = nonblank s := by
  induction s generalizing inRun with
  | nil => rfl
  | cons c cs ih =>
      rw [squeeze_cons, nonblank_cons]
      split
      · split
        · exact ih true
        · rw [nonblank_cons, ih true]
          rfl
      · rename_i hc
        rw [nonblank_cons, if_neg hc, ih false]

/-! ## Trimming -/

/-- Trimming the start of a text stops at the latest where its second part begins with a
    character outside the class. -/
theorem trimStart_append {p : Char → Bool} {c : Char} (hc : p c = false) (s : List Char)
    {t : List Char} (ht : t.head? = some c) : trimStart p (s ++ t) = trimStart p s ++ t := by
  obtain ⟨cs, rfl⟩ := List.head?_eq_some_iff.mp ht
  rw [trimStart, trimStart, List.dropWhile_append]
  split
  · rename_i hempty
    rw [List.isEmpty_iff.mp hempty, List.dropWhile_cons_of_neg (Bool.eq_false_iff.mp hc)]
    rfl
  · rfl

/-- Trimming the end of a text stops at the latest where its first part ends with a
    character outside the class. -/
theorem trimEnd_append {p : Char → Bool} {c : Char} (hc : p c = false) {s : List Char}
    (hs : s.getLast? = some c) (t : List Char) : trimEnd p (s ++ t) = s ++ trimEnd p t := by
  have hhead : s.reverse.head? = some c := by
    rw [List.head?_reverse, hs]
  have hstart := trimStart_append hc t.reverse hhead
  rw [trimStart, trimStart] at hstart
  rw [trimEnd, trimEnd, List.reverse_append, hstart, List.reverse_append, List.reverse_reverse]

/-- What is trimmed off the end belongs to the class. -/
theorem exists_trimEnd (p : Char → Bool) (s : List Char) :
    ∃ tail, s = trimEnd p s ++ tail ∧ ∀ c ∈ tail, p c = true := by
  refine ⟨(s.reverse.takeWhile p).reverse, ?_, fun c hc => ?_⟩
  · rw [trimEnd, ← List.reverse_append, List.takeWhile_append_dropWhile, List.reverse_reverse]
  · exact List.all_eq_true.mp List.all_takeWhile c (List.mem_reverse.mp hc)

/-- Trimming drops spaces where the class has no other characters of the text. -/
theorem dropsSpaces_trimEnd {p : Char → Bool} {s : List Char}
    (h : ∀ c ∈ s, p c = true → c = ' ') : DropsSpaces s (trimEnd p s) := by
  obtain ⟨tail, hs, htail⟩ := exists_trimEnd p s
  have hspaces : ∀ c ∈ tail, c = ' ' := fun c hc =>
    h c (hs ▸ List.mem_append_right _ hc) (htail c hc)
  have hdrops := (DropsSpaces.refl (trimEnd p s)).append (.of_spaces hspaces)
  rwa [← hs, List.append_nil] at hdrops

/-- The second text is the first without some of the spaces at its ends. -/
def Trimmed (s t : List Char) : Prop :=
  ∃ before after, s = before ++ t ++ after ∧ (∀ c ∈ before, c = ' ') ∧ ∀ c ∈ after, c = ' '

namespace Trimmed

variable {s t : List Char}

theorem refl (s : List Char) : Trimmed s s :=
  ⟨[], [], (List.append_nil s).symm, nofun, nofun⟩

/-- A trimmed text can be trimmed further in front. -/
theorem trimStart (h : Trimmed s t) : Trimmed s (trimStart (· == ' ') t) := by
  obtain ⟨before, after, rfl, hbefore, hafter⟩ := h
  refine ⟨before ++ t.takeWhile (· == ' '), after, ?_, fun c hc => ?_, hafter⟩
  · rw [Text.trimStart, List.append_assoc before (t.takeWhile _),
      List.takeWhile_append_dropWhile]
  · rcases List.mem_append.mp hc with hc | hc
    · exact hbefore c hc
    · exact beq_iff_eq.mp (List.all_eq_true.mp List.all_takeWhile c hc)

/-- A trimmed text can be trimmed further behind. -/
theorem trimEnd (h : Trimmed s t) : Trimmed s (trimEnd (· == ' ') t) := by
  obtain ⟨before, after, rfl, hbefore, hafter⟩ := h
  obtain ⟨tail, ht, htail⟩ := exists_trimEnd (· == ' ') t
  refine ⟨before, tail ++ after, ?_, hbefore, fun c hc => ?_⟩
  · rw [← List.append_assoc, List.append_assoc before (Text.trimEnd _ t), ← ht]
  · rcases List.mem_append.mp hc with hc | hc
    · exact beq_iff_eq.mp (htail c hc)
    · exact hafter c hc

/-- Trimming drops spaces. -/
theorem dropsSpaces (h : Trimmed s t) : DropsSpaces s t := by
  obtain ⟨before, after, rfl, hbefore, hafter⟩ := h
  have hdrops := ((DropsSpaces.of_spaces hbefore).append (.refl t)).append (.of_spaces hafter)
  rwa [List.nil_append, List.append_nil] at hdrops

end Trimmed

/-! ## Replacing -/

/-- Replacing a tag and the space behind it by the tag drops spaces. -/
theorem dropsSpaces_replace (tag s : List Char) : DropsSpaces s (replace (tag ++ [' ']) tag s) := by
  have hpat : tag ++ [' '] ≠ [] := List.append_ne_nil_of_right_ne_nil tag (List.cons_ne_nil _ _)
  induction s using replace_induction hpat with
  | nil => exact .nil
  | occurrence s ih =>
      rw [replace_occurrence hpat, List.append_assoc]
      exact (DropsSpaces.refl tag).append (.drop ih)
  | other c cs hother ih =>
      rw [replace_cons tag hother]
      exact .keep c ih

end MessageBody.Text
