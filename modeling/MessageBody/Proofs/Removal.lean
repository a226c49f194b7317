import Mathlib.Data.List.Basic
import MessageBody.Display.Collapse
import MessageBody.Proofs.WholeNumbers

/-! # What collapsing takes out of a text

    Among the hideable ranges in the order of their starts, collapsing takes out
    those that are collapsed and do not start inside content that is taken out
    already: `removedFrom`.  What stays are the windows between them.
    `Removal t expanded gone` says what these ranges are without going through
    the scan, and `removal_removed` that the scan finds such ranges, however the
    hideable ranges overlap. -/

namespace MessageBody.Collapse

/-- The id in the payload of a range, if it can be read. -/
def idOf? (r : Range) : Option Int :=
  match r.item with
  | .note _ payload => Text.wholeNumber? payload.toList
  | .directive _ => none

/-- A range has an id that is not among those expanded. -/
def isCollapsed (expanded : IdSet) (r : Range) : Bool :=
  match idOf? r with
  | some id => id ∉ expanded
  | none => false

/-- The payload of a range has no more digits than a number may have. -/
def HasReadableId (r : Range) : Prop :=
  match r.item with
  | .note _ payload => Text.FitsDigits payload.toList
  | .directive _ => True

instance (r : Range) : Decidable (HasReadableId r) := by
  unfold HasReadableId
  split <;> infer_instance

/-- The payloads of hideable ranges have no more digits than a number may
    have. -/
def HasReadableIds (t : AnnotatedText) : Prop :=
  ∀ r ∈ t.tagged .detailsContent, HasReadableId r

instance (t : AnnotatedText) : Decidable (HasReadableIds t) :=
  inferInstanceAs (Decidable (∀ r ∈ t.tagged .detailsContent, HasReadableId r))

/-- The ranges that are taken out from position `index` on, where the content
    before is settled. -/
def removedFrom (expanded : IdSet) : Nat → List Range → List Range
  | _, [] => []
  | index, r :: rs =>
      if isCollapsed expanded r && index ≤ r.start then r :: removedFrom expanded r.stop rs
      else removedFrom expanded index rs

/-- The ranges that collapsing takes out of a text. -/
def removed (t : AnnotatedText) (expanded : IdSet) : List Range :=
  removedFrom expanded 0 (hideable t)

/-- The windows from position `index` on between ranges that are taken out of a
    text of the given length. -/
def between (length : Nat) : Nat → List Range → List Window
  | index, [] => [⟨index, length⟩]
  | index, r :: rs => ⟨index, r.start⟩ :: between length r.stop rs

/-! ## The scan -/

/-- The scan finds the windows between the ranges that are taken out. -/
theorem windowsFrom_outcome (expanded : IdSet) (length : Nat) {rs : List Range}
    (hread : ∀ r ∈ rs, HasReadableId r) (index : Nat) :
    (windowsFrom expanded length index rs).outcome
      = .ok (between length index (removedFrom expanded index rs)) := by
  induction rs generalizing index with
  | nil => rfl
  | cons r rs ih =>
      have ih := ih fun r' hr' => hread r' (List.mem_cons_of_mem _ hr')
      rw [windowsFrom, removedFrom]
      cases hitem : r.item with
      | directive d =>
          have hfalse : isCollapsed expanded r = false := by
            simp only [isCollapsed, idOf?, hitem]
          rw [hfalse]
          exact ih index
      | note tag payload =>
          have hfits := hread r (List.mem_cons_self ..)
          rw [HasReadableId, hitem] at hfits
          have hnumber := Text.wholeNumber_eq_ok hfits
          have hid : idOf? r = Text.wholeNumber? payload.toList := by
            simp only [idOf?, hitem]
          simp only [hnumber, isCollapsed, hid]
          cases Text.wholeNumber? payload.toList with
          | none =>
              -- without an id, the range is passed over with a warning
              simp only [Logged.outcome_bind, Logged.outcome_record]
              exact ih index
          | some id =>
              by_cases hmem : id ∈ expanded
              · simp only [hmem, if_true, not_true_eq_false, decide_false, Bool.false_and,
                  Bool.false_eq_true, if_false]
                exact ih index
              · by_cases hstart : r.start < index
                · -- it starts inside content that is taken out already
                  have hle : ¬ index ≤ r.start := by omega
                  simp only [hmem, if_false, hstart, if_true, hle, decide_false, Bool.and_false,
                    Bool.false_eq_true, Logged.outcome_bind, Logged.outcome_record]
                  exact ih index
                · have hle : index ≤ r.start := by omega
                  simp only [hmem, if_false, hstart, hle, decide_true, not_false_eq_true,
                    Bool.and_self, if_true, Logged.outcome_bind, ih r.stop]
                  rfl

/-! ## The ranges that are taken out -/

/-- Ranges from position `index` on, one after the other, that end in a text of
    the given length. -/
def InOrder (length : Nat) : Nat → List Range → Prop
  | index, [] => index ≤ length
  | index, r :: rs => index ≤ r.start ∧ r.start ≤ r.stop ∧ InOrder length r.stop rs

/-- Where ranges are in order, the index lies in the text. -/
theorem InOrder.index_le {length index : Nat} {rs : List Range} (h : InOrder length index rs) :
    index ≤ length := by
  induction rs generalizing index with
  | nil => exact h
  | cons r rs ih =>
      obtain ⟨hstart, hstop, hrest⟩ := h
      have := ih hrest
      omega

/-- Ranges in order begin behind the index. -/
theorem InOrder.le_start {length index : Nat} {rs : List Range} (h : InOrder length index rs) :
    ∀ r ∈ rs, index ≤ r.start := by
  induction rs generalizing index with
  | nil => exact fun _ hr => nomatch hr
  | cons r rs ih =>
      obtain ⟨hstart, hstop, hrest⟩ := h
      intro r' hr'
      rcases List.mem_cons.mp hr' with rfl | hr'
      · exact hstart
      · have := ih hrest r' hr'
        omega

/-- What is removed lies in order, for each next one begins behind the last. -/
theorem removedFrom_inOrder (expanded : IdSet) {length : Nat} {rs : List Range}
    (hrs : ∀ r ∈ rs, r.start ≤ r.stop ∧ r.stop ≤ length) {index : Nat} (hindex : index ≤ length) :
    InOrder length index (removedFrom expanded index rs) := by
  induction rs generalizing index with
  | nil => exact hindex
  | cons r rs ih =>
      have ih := @ih fun r' hr' => hrs r' (List.mem_cons_of_mem _ hr')
      obtain ⟨hstop, hlength⟩ := hrs r (List.mem_cons_self ..)
      rw [removedFrom]
      split
      · rename_i h
        simp only [Bool.and_eq_true, decide_eq_true_eq] at h
        exact ⟨h.2, hstop, ih hlength⟩
      · exact ih hindex

/-- Removed ranges are some of the ranges, in their order. -/
theorem removedFrom_sublist (expanded : IdSet) (index : Nat) (rs : List Range) :
    (removedFrom expanded index rs).Sublist rs := by
  induction rs generalizing index with
  | nil => exact .slnil
  | cons r rs ih =>
      rw [removedFrom]
      split
      · exact (ih r.stop).cons_cons r
      · exact (ih index).cons r

/-- Where nothing is collapsed, nothing is taken out. -/
theorem removedFrom_eq_nil {expanded : IdSet} {rs : List Range}
    (h : ∀ r ∈ rs, isCollapsed expanded r = false) (index : Nat) :
    removedFrom expanded index rs = [] := by
  induction rs with
  | nil => rfl
  | cons r rs ih =>
      rw [removedFrom, h r (List.mem_cons_self ..), Bool.false_and]
      exact ih fun r' hr' => h r' (List.mem_cons_of_mem _ hr')

/-- Only collapsed contents are removed. -/
theorem isCollapsed_of_mem_removedFrom {expanded : IdSet} {index : Nat} {rs : List Range}
    {r : Range} (h : r ∈ removedFrom expanded index rs) : isCollapsed expanded r = true := by
  induction rs generalizing index with
  | nil => exact nomatch h
  | cons r' rs ih =>
      rw [removedFrom] at h
      split at h
      · rename_i hc
        rcases List.mem_cons.mp h with rfl | h
        · exact (Bool.and_eq_true_iff.mp hc).1
        · exact ih h
      · exact ih h

/-- A collapsed range that is not taken out starts before the position where the
    scan begins, or before the end of a range that the scan took out earlier. -/
theorem removedFrom_complete {expanded : IdSet} {index : Nat} {rs : List Range} {r : Range}
    (hr : r ∈ rs) (hc : isCollapsed expanded r = true) :
    r ∈ removedFrom expanded index rs ∨ r.start < index ∨
      ∃ s ∈ removedFrom expanded index rs, [s, r].Sublist rs ∧ r.start < s.stop := by
  induction rs generalizing index with
  | nil => exact nomatch hr
  | cons r' rs ih =>
      rw [removedFrom]
      split
      · -- `r'` is taken out: what starts before its end is missed because of it
        rename_i hr'
        rcases List.mem_cons.mp hr with rfl | hr
        · exact Or.inl (List.mem_cons_self ..)
        · rcases @ih r'.stop hr with h | h | ⟨s, hs, hsub, hlt⟩
          · exact Or.inl (List.mem_cons_of_mem _ h)
          · refine Or.inr (Or.inr ⟨r', List.mem_cons_self .., ?_, h⟩)
            exact (List.singleton_sublist.mpr hr).cons_cons r'
          · exact Or.inr (Or.inr ⟨s, List.mem_cons_of_mem _ hs, hsub.cons r', hlt⟩)
      · -- `r'` stays, so a collapsed `r'` starts before `index`
        rename_i hnot
        rcases List.mem_cons.mp hr with rfl | hr
        · refine Or.inr (Or.inl ?_)
          by_contra hge
          exact hnot (by simp [hc, Nat.le_of_not_lt hge])
        · rcases @ih index hr with h | h | ⟨s, hs, hsub, hlt⟩
          · exact Or.inl h
          · exact Or.inr (Or.inl h)
          · exact Or.inr (Or.inr ⟨s, hs, hsub.cons r', hlt⟩)

/-- The ranges `gone` are what collapsing takes out of a text: they are collapsed,
    lie in the text one after the other, and a collapsed range that is not among
    them starts before the end of one of them that comes earlier in the order of
    the starts. -/
structure Removal (t : AnnotatedText) (expanded : IdSet) (gone : List Range) : Prop where
  collapsed : ∀ r ∈ gone, r ∈ t.tagged .detailsContent ∧ isCollapsed expanded r = true
  inOrder : InOrder t.length 0 gone
  complete : ∀ r ∈ t.tagged .detailsContent, isCollapsed expanded r = true →
    r ∈ gone ∨ ∃ s ∈ gone, [s, r].Sublist (hideable t) ∧ r.start < s.stop

/-- What can be hidden are the hidden contents. -/
theorem mem_hideable {t : AnnotatedText} {r : Range} :
    r ∈ hideable t ↔ r ∈ t.tagged .detailsContent :=
  Order.mem_sort

/-- A tagged range is one of the ranges. -/
theorem mem_ranges_of_mem_tagged {t : AnnotatedText} {tag : Tag} {r : Range}
    (h : r ∈ t.tagged tag) : r ∈ t.ranges :=
  (List.mem_filter.mp h).1

/-- The scan takes out what collapsing takes out. -/
theorem removal_removed {t : AnnotatedText} (ht : t.WellFormed) (expanded : IdSet) :
    Removal t expanded (removed t expanded) where
  collapsed := by
    intro r hr
    have hmem := (removedFrom_sublist expanded 0 (hideable t)).subset hr
    exact ⟨mem_hideable.mp hmem, isCollapsed_of_mem_removedFrom hr⟩
  inOrder := by
    refine removedFrom_inOrder expanded ?_ (Nat.zero_le _)
    intro r hr
    exact ht r (mem_ranges_of_mem_tagged (mem_hideable.mp hr))
  complete := by
    intro r hr hc
    rcases removedFrom_complete (mem_hideable.mpr hr) hc with h | h | h
    · exact Or.inl h
    · exact absurd h (Nat.not_lt_zero _)
    · exact Or.inr h

/-- The windows of a text are those between the ranges that are taken out. -/
theorem windows_outcome {t : AnnotatedText} (hread : HasReadableIds t) (expanded : IdSet) :
    (windows t expanded).outcome = .ok (between t.length 0 (removed t expanded)) :=
  windowsFrom_outcome expanded t.length (fun r hr => hread r (mem_hideable.mp hr)) 0

end MessageBody.Collapse
