import Mathlib.Data.List.Basic
import Mathlib.Data.List.TakeWhile
import MessageBody.Proofs.Styling

/-! # Nesting depth by a plain scan

    The sweep finds the depth at all boundaries in one pass, and drops a range
    that has ended only when it comes to the front.  `deepest` looks at every range
    instead.  Both agree at every position: at a boundary by an invariant of the
    sweep (`Sweep.Tracks`), and elsewhere because no range starts or ends between
    one boundary and the next. -/

namespace MessageBody.Nesting

/-- The depth of the deepest range that covers position `p`, zero when none
    does. -/
def deepest (rs : List DepthRange) (p : Int) : Int :=
  ((rs.filter fun r => r.covers p).map DepthRange.depth).max?.getD 0

section Scan

variable {rs : List DepthRange} {p : Int}

/-- A range covers the positions from its start to before its end. -/
theorem covers_iff {r : DepthRange} : r.covers p = true ↔ (r.start : Int) ≤ p ∧ p < r.stop := by
  simp only [DepthRange.covers, Bool.and_eq_true, decide_eq_true_eq]

/-- Where nothing covers a position, the depth is zero. -/
theorem deepest_of_none (h : ∀ r ∈ rs, r.covers p = false) : deepest rs p = 0 := by
  have hnone : (rs.filter fun r => r.covers p) = [] := by
    refine List.filter_eq_nil_iff.mpr fun r hr => ?_
    rw [h r hr]
    exact Bool.false_ne_true
  rw [deepest, hnone]
  rfl

/-- The deepest range that covers a position gives its depth. -/
theorem deepest_of_mem {r : DepthRange} (hr : r ∈ rs) (hcovers : r.covers p = true)
    (h : ∀ q ∈ rs, q.covers p = true → q.depth ≤ r.depth) : deepest rs p = r.depth := by
  have hmax : ((rs.filter fun r => r.covers p).map DepthRange.depth).max? = some r.depth := by
    rw [List.max?_eq_some_iff]
    refine ⟨List.mem_map_of_mem (List.mem_filter.mpr ⟨hr, hcovers⟩), ?_⟩
    intro depth hdepth
    obtain ⟨q, hq, rfl⟩ := List.mem_map.mp hdepth
    exact h q (List.mem_filter.mp hq).1 (List.mem_filter.mp hq).2
  rw [deepest, hmax]
  rfl

/-- Only the ranges that cover a position matter. -/
theorem deepest_congr {p' : Int} (h : ∀ r ∈ rs, r.covers p = r.covers p') :
    deepest rs p = deepest rs p' := by
  rw [deepest, List.filter_congr h, deepest]

end Scan

/-! ## The sweep -/

/-- Ranges are sorted by their starts. -/
theorem startsFirst_sort (rs : List DepthRange) :
    (Order.sort startsFirst rs).Pairwise fun r q => startsFirst r q = true := by
  refine Order.pairwise_sort ?_ ?_ rs
  · simp only [startsFirst, decide_eq_true_eq]
    omega
  · simp only [startsFirst, decide_eq_true_eq]
    omega

/-- Started ranges stay sorted by their depths as more are started. -/
theorem deeper_foldl_insert (rs : List DepthRange) {started : List DepthRange}
    (h : started.Pairwise fun r q => deeper r q = true) :
    (rs.foldl (fun started r => Order.insert deeper r started) started).Pairwise
      fun r q => deeper r q = true := by
  induction rs generalizing started with
  | nil => exact h
  | cons r rs ih =>
      refine ih (Order.pairwise_insert ?_ ?_ h)
      · simp only [deeper, decide_eq_true_eq]
        omega
      · simp only [deeper, decide_eq_true_eq]
        omega

/-- Starting ranges adds these and no others. -/
theorem mem_foldl_insert {rs started : List DepthRange} {r : DepthRange} :
    r ∈ rs.foldl (fun started r => Order.insert deeper r started) started
      ↔ r ∈ rs ∨ r ∈ started := by
  induction rs generalizing started with
  | nil => simp
  | cons q rs ih =>
      rw [List.foldl_cons, ih, (Order.insert_perm deeper q started).mem_iff, List.mem_cons,
        List.mem_cons, or_left_comm, or_assoc]

/-- What is dropped from the front of a list satisfies the condition, and what stays
    does so in front at most. -/
theorem mem_dropWhile_or {α : Type} {P : α → Bool} {xs : List α} {x : α} (h : x ∈ xs) :
    x ∈ xs.dropWhile P ∨ P x = true := by
  rw [← List.takeWhile_append_dropWhile (p := P) (l := xs)] at h
  rcases List.mem_append.mp h with h | h
  · exact Or.inr (List.mem_takeWhile_imp h)
  · exact Or.inl h

/-- At position `b` the sweep knows the ranges `rs`: each of them is still to come,
    has started, or has ended. -/
structure Sweep.Tracks (rs : List DepthRange) (b : Nat) (s : Sweep) : Prop where
  coming_sorted : s.coming.Pairwise fun r q => startsFirst r q = true
  started_sorted : s.started.Pairwise fun r q => deeper r q = true
  coming_mem : ∀ r ∈ s.coming, r ∈ rs
  started_mem : ∀ r ∈ s.started, r ∈ rs ∧ r.start ≤ b
  complete : ∀ r ∈ rs, r ∈ s.coming ∨ r ∈ s.started ∨ r.stop ≤ b

/-- Nothing has started in front of the first boundary. -/
theorem tracks_start (rs : List DepthRange) (b : Nat) :
    Sweep.Tracks rs b ⟨Order.sort startsFirst rs, []⟩ where
  coming_sorted := startsFirst_sort rs
  started_sorted := .nil
  coming_mem := fun _ hr => Order.mem_sort.mp hr
  started_mem := fun _ hr => nomatch hr
  complete := fun _ hr => Or.inl (Order.mem_sort.mpr hr)

namespace Sweep.Tracks

variable {rs : List DepthRange} {b b' : Nat} {s : Sweep}

/-- What is still to come after a boundary starts behind it. -/
theorem lt_start_of_coming (h : s.Tracks rs b) {r : DepthRange}
    (hr : r ∈ (s.advance b').coming) : b' < r.start := by
  -- the first range that is left starts behind the boundary, the others not before it
  have hsorted := h.coming_sorted.sublist (List.dropWhile_sublist fun r => decide (r.start ≤ b'))
  have hfirst := List.head?_dropWhile_not (fun r => decide (r.start ≤ b')) s.coming
  rw [advance] at hr
  cases hcoming : s.coming.dropWhile fun r => decide (r.start ≤ b') with
  | nil =>
      simp only [hcoming] at hr
      exact nomatch hr
  | cons q qs =>
      simp only [hcoming] at hr
      rw [hcoming] at hfirst hsorted
      have hq : b' < q.start := Nat.lt_of_not_le (of_decide_eq_false hfirst)
      rcases List.mem_cons.mp hr with rfl | hr
      · exact hq
      · have hle : q.start ≤ r.start :=
          of_decide_eq_true ((List.pairwise_cons.mp hsorted).1 r hr)
        omega

/-- The sweep still knows the ranges after the next boundary. -/
theorem advance (h : s.Tracks rs b) (hle : b ≤ b') : (s.advance b').Tracks rs b' where
  coming_sorted := h.coming_sorted.sublist (List.dropWhile_sublist _)
  started_sorted := (deeper_foldl_insert _ h.started_sorted).sublist (List.dropWhile_sublist _)
  coming_mem := fun r hr => h.coming_mem r ((List.dropWhile_sublist _).subset hr)
  started_mem := by
    intro r hr
    rcases mem_foldl_insert.mp ((List.dropWhile_sublist _).subset hr) with hr | hr
    · have hstart : decide (r.start ≤ b') = true :=
        List.mem_takeWhile_imp (p := fun r : DepthRange => decide (r.start ≤ b')) hr
      exact ⟨h.coming_mem r ((List.takeWhile_sublist _).subset hr), of_decide_eq_true hstart⟩
    · obtain ⟨hmem, hstart⟩ := h.started_mem r hr
      exact ⟨hmem, Nat.le_trans hstart hle⟩
  complete := by
    intro r hr
    -- a range that has started stays, unless it is dropped for having ended
    have hstarted : r ∈ (s.coming.takeWhile fun r => decide (r.start ≤ b')).foldl
        (fun started r => Order.insert deeper r started) s.started →
        r ∈ (s.advance b').started ∨ r.stop ≤ b' := fun hr =>
      (mem_dropWhile_or hr).imp_right of_decide_eq_true
    rcases h.complete r hr with hr | hr | hr
    · rw [← List.takeWhile_append_dropWhile (p := fun r => decide (r.start ≤ b'))
        (l := s.coming)] at hr
      rcases List.mem_append.mp hr with hr | hr
      · exact Or.inr (hstarted (mem_foldl_insert.mpr (Or.inl hr)))
      · exact Or.inl hr
    · exact Or.inr (hstarted (mem_foldl_insert.mpr (Or.inr hr)))
    · exact Or.inr (Or.inr (Nat.le_trans hr hle))

/-- After a boundary the deepest range that covers it is in front. -/
theorem frontDepth_advance (h : s.Tracks rs b) (hle : b ≤ b') :
    frontDepth (s.advance b').started = deepest rs b' := by
  have hnext := h.advance hle
  -- a range that covers the boundary is neither to come nor ended
  have hcovering : ∀ r ∈ rs, r.covers b' = true → r ∈ (s.advance b').started := by
    intro r hr hcovers
    obtain ⟨hstart, hstop⟩ := covers_iff.mp hcovers
    rcases hnext.complete r hr with hr | hr | hr
    · have := h.lt_start_of_coming hr
      omega
    · exact hr
    · omega
  have hfront := List.head?_dropWhile_not (fun r => decide (r.stop ≤ b'))
    ((s.coming.takeWhile fun r => decide (r.start ≤ b')).foldl
      (fun started r => Order.insert deeper r started) s.started)
  cases hstarted : (s.advance b').started with
  | nil =>
      rw [hstarted] at hcovering
      refine (deepest_of_none fun r hr => ?_).symm
      exact Bool.eq_false_iff.mpr fun hcovers => nomatch hcovering r hr hcovers
  | cons r started =>
      rw [show List.dropWhile _ _ = r :: started from hstarted] at hfront
      have hsorted := hnext.started_sorted
      rw [hstarted] at hcovering hsorted
      obtain ⟨hmem, hstart⟩ := hnext.started_mem r (hstarted ▸ List.mem_cons_self ..)
      have hstop : b' < r.stop := Nat.lt_of_not_le (of_decide_eq_false hfront)
      refine (deepest_of_mem hmem (covers_iff.mpr ⟨by omega, by omega⟩) ?_).symm
      intro q hq hcovers
      rcases List.mem_cons.mp (hcovering q hq hcovers) with rfl | hq
      · exact Int.le_refl _
      · exact of_decide_eq_true ((List.pairwise_cons.mp hsorted).1 q hq)

/-- The sweep finds the depth at each of the boundaries ahead. -/
theorem stepsFrom_eq (h : s.Tracks rs b) {bs : List Nat} (hbs : (b :: bs).Pairwise (· ≤ ·)) :
    stepsFrom s bs = bs.map fun b : Nat => (b, deepest rs b) := by
  induction bs generalizing s b with
  | nil => rfl
  | cons b' bs ih =>
      obtain ⟨hle, hrest⟩ := List.pairwise_cons.mp hbs
      have hle := hle b' (List.mem_cons_self ..)
      rw [stepsFrom, List.map_cons, h.frontDepth_advance hle, ih (h.advance hle) hrest]

end Sweep.Tracks

/-! ## Boundaries -/

/-- Dropping repeated positions drops no position. -/
theorem mem_dropRepeated {p : Nat} {ps : List Nat} : p ∈ dropRepeated ps ↔ p ∈ ps := by
  fun_induction dropRepeated ps with
  | case1 => rfl
  | case2 => rfl
  | case3 q ps ih => rw [ih]; simp
  | case4 q q' ps hne ih => rw [List.mem_cons, ih, List.mem_cons (a := p) (b := q)]

/-- Without repetitions, positions in order are in strict order. -/
theorem pairwise_dropRepeated {ps : List Nat} (h : ps.Pairwise (· ≤ ·)) :
    (dropRepeated ps).Pairwise (· < ·) := by
  fun_induction dropRepeated ps with
  | case1 => exact .nil
  | case2 p => exact List.pairwise_singleton _ p
  | case3 p ps ih => exact ih (List.pairwise_cons.mp h).2
  | case4 p q ps hne ih =>
      obtain ⟨hp, hrest⟩ := List.pairwise_cons.mp h
      refine List.pairwise_cons.mpr ⟨?_, ih hrest⟩
      intro q' hq'
      have hpq := hp q (List.mem_cons_self ..)
      rcases List.mem_cons.mp (mem_dropRepeated.mp hq') with rfl | hq'
      · omega
      · have := (List.pairwise_cons.mp hrest).1 q' hq'
        omega

/-- Each range has its two ends among the boundaries. -/
theorem mem_boundaries {rs : List DepthRange} {r : DepthRange} (hr : r ∈ rs) :
    r.start ∈ boundaries rs ∧ r.stop ∈ boundaries rs := by
  simp only [boundaries, mem_dropRepeated, Order.mem_sort, List.mem_flatMap]
  exact ⟨⟨r, hr, by simp⟩, ⟨r, hr, by simp⟩⟩

/-- The boundaries come in strict order. -/
theorem pairwise_boundaries (rs : List DepthRange) : (boundaries rs).Pairwise (· < ·) := by
  refine pairwise_dropRepeated ((Order.pairwise_sort ?_ ?_ _).imp of_decide_eq_true)
  · simp only [decide_eq_true_eq]
    omega
  · simp only [decide_eq_true_eq]
    omega

/-- Of steps with increasing boundaries, a position takes the last whose boundary is
    not after it. -/
theorem depthIn_map (g : Nat → Int) {bs : List Nat} (hbs : bs.Pairwise (· < ·)) (p : Int) :
    (∀ b ∈ bs, p < b) ∧ depthIn p (bs.map fun b => (b, g b)) = 0
      ∨ ∃ b ∈ bs, (b : Int) ≤ p ∧ (∀ b' ∈ bs, (b' : Int) ≤ p → b' ≤ b)
        ∧ depthIn p (bs.map fun b => (b, g b)) = g b := by
  induction bs with
  | nil => exact Or.inl ⟨fun _ hb => (nomatch hb), rfl⟩
  | cons b bs ih =>
      obtain ⟨hfirst, hrest⟩ := List.pairwise_cons.mp hbs
      rw [List.map_cons, depthIn.eq_def]
      simp only
      by_cases hp : p < b
      · -- the position is before every boundary
        refine Or.inl ⟨?_, if_pos hp⟩
        intro b' hb'
        rcases List.mem_cons.mp hb' with rfl | hb'
        · exact hp
        · have := hfirst b' hb'
          omega
      · rw [if_neg hp]
        cases bs with
        | nil =>
            refine Or.inr ⟨b, List.mem_cons_self .., by omega, ?_, rfl⟩
            intro b' hb' _
            rw [List.mem_singleton.mp hb']
        | cons next bs =>
            rw [List.map_cons]
            simp only
            by_cases hnext : p < next
            · -- the position is between the first boundary and the second
              refine Or.inr ⟨b, List.mem_cons_self .., by omega, ?_, if_pos hnext⟩
              intro b' hb' hle
              rcases List.mem_cons.mp hb' with rfl | hb'
              · exact Nat.le_refl _
              · rcases List.mem_cons.mp hb' with rfl | hb'
                · omega
                · have := (List.pairwise_cons.mp hrest).1 b' hb'
                  omega
            · rw [if_neg hnext]
              rcases ih hrest with ⟨hnone, -⟩ | ⟨last, hlast, hle, hgreatest, hdepth⟩
              · exact absurd (hnone next (List.mem_cons_self ..)) hnext
              · refine Or.inr ⟨last, List.mem_cons_of_mem _ hlast, hle, ?_, hdepth⟩
                intro b' hb' hle'
                rcases List.mem_cons.mp hb' with rfl | hb'
                · exact Nat.le_of_lt (hfirst last hlast)
                · exact hgreatest b' hb' hle'

/-- The sweep finds the depth at every position. -/
theorem depthIn_stepsOf (rs : List DepthRange) (p : Int) :
    depthIn p (stepsOf rs) = deepest rs p := by
  have hsteps : stepsOf rs = (boundaries rs).map fun b : Nat => (b, deepest rs b) := by
    refine (tracks_start rs 0).stepsFrom_eq (List.pairwise_cons.mpr ⟨fun b _ => Nat.zero_le b, ?_⟩)
    exact (pairwise_boundaries rs).imp Nat.le_of_lt
  rw [hsteps]
  rcases depthIn_map (fun b => deepest rs b) (pairwise_boundaries rs) p with
    ⟨hnone, hdepth⟩ | ⟨b, hb, hle, hlast, hdepth⟩
  · rw [hdepth]
    refine (deepest_of_none fun r hr => ?_).symm
    refine Bool.eq_false_iff.mpr fun hcovers => ?_
    have := hnone r.start (mem_boundaries hr).1
    have := covers_iff.mp hcovers
    omega
  · rw [hdepth]
    -- between the boundary and the position no range starts or ends
    refine deepest_congr fun r hr => ?_
    rw [Bool.eq_iff_iff, covers_iff, covers_iff]
    have hstart := hlast r.start (mem_boundaries hr).1
    have hstop := hlast r.stop (mem_boundaries hr).2
    omega

/-! ## Texts -/

/-- The depth of a quote or a list item, if its payload is a number. -/
def depthOf? (r : Range) : Option Int :=
  match r.item with
  | .note tag payload => if tag.indents then Text.wholeNumber? payload.toList else none
  | .directive _ => none

/-- The payload of a quote or a list item has no more digits than a number may
    have. -/
def HasReadableDepth (r : Range) : Prop :=
  match r.item with
  | .note tag payload => tag.indents = true → Text.FitsDigits payload.toList
  | .directive _ => True

instance : (r : Range) → Decidable (HasReadableDepth r)
  | ⟨.note tag payload, _, _⟩ =>
      inferInstanceAs (Decidable (tag.indents = true → Text.FitsDigits payload.toList))
  | ⟨.directive _, _, _⟩ => isTrue trivial

/-- The depths of the quotes and list items of a text that cover position `p`. -/
def depthsAt (t : AnnotatedText) (p : Int) : List Int :=
  (t.ranges.filter fun r => r.start ≤ p && p < r.stop).filterMap depthOf?

/-- A range with a depth that can be read is one with this depth. -/
theorem depthRange?_eq {r : Range} (h : HasReadableDepth r) :
    depthRange? r = .ok ((depthOf? r).map fun depth => ⟨r.start, r.stop, depth⟩) := by
  rw [depthRange?, depthOf?]
  rw [HasReadableDepth] at h
  cases hitem : r.item with
  | directive d => rfl
  | note tag payload =>
      rw [hitem] at h
      simp only
      by_cases htag : tag.indents = true
      · rw [if_pos htag, if_pos htag, Text.wholeNumber_eq_ok (h htag)]
        rfl
      · rw [if_neg htag, if_neg htag]
        rfl

/-- Where every depth can be read, the ranges that have one are found. -/
theorem depthRanges_eq {rs : List Range} (h : ∀ r ∈ rs, HasReadableDepth r) :
    depthRanges rs
      = .ok (rs.filterMap fun r => (depthOf? r).map fun depth => ⟨r.start, r.stop, depth⟩) := by
  induction rs with
  | nil => rfl
  | cons r rs ih =>
      obtain ⟨hr, hrs⟩ := List.forall_mem_cons.mp h
      rw [depthRanges_cons, depthRange?_eq hr, ih hrs, List.filterMap_cons]
      cases depthOf? r <;> rfl

/-- The ranges that the sweep is made of have the depths of the text. -/
theorem deepest_depthRanges (t : AnnotatedText) (p : Int) :
    deepest (t.ranges.filterMap fun r => (depthOf? r).map fun depth => ⟨r.start, r.stop, depth⟩) p
      = (depthsAt t p).max?.getD 0 := by
  rw [deepest, depthsAt, List.filter_filterMap, List.map_filterMap, List.filterMap_filter]
  congr 2
  refine List.filterMap_congr fun r _ => ?_
  cases depthOf? r with
  | none => simp
  | some depth =>
      rw [Option.map_some, Option.filter_some]
      show Option.map DepthRange.depth (if (decide ((r.start : Int) ≤ p) && decide (p < r.stop))
        then some _ else none) = _
      split <;> rfl

/-- **The nesting depth is that of a plain scan**: however quotes and list items
    overlap, and whatever their payloads, the depth at every position is the
    greatest of those that cover it and have a number, and zero where there is
    none. -/
theorem depthAt_eq_scan (t : AnnotatedText) (h : ∀ r ∈ t.ranges, HasReadableDepth r) (p : Int) :
    ∃ nesting, ofText t = .ok nesting ∧ nesting.depthAt p = (depthsAt t p).max?.getD 0 := by
  refine ⟨⟨stepsOf _⟩, by rw [ofText, depthRanges_eq h]; rfl, ?_⟩
  rw [depthAt, depthIn_stepsOf, deepest_depthRanges]

/-- Quotes and list items that overlap; one is empty, one is less than zero deep,
    one has no number, and two are the same. -/
def overlappingItems : AnnotatedText :=
  ⟨"abcdefgh".toList,
    [⟨.note .blockQuote "1", 0, 5⟩, ⟨.note .orderedListItem "3", 1, 3⟩,
     ⟨.note .unorderedListItem "9", 2, 2⟩, ⟨.note .blockQuote "-4", 4, 8⟩,
     ⟨.note .blockQuote "-4", 4, 8⟩, ⟨.note .orderedListItem "x", 0, 8⟩,
     ⟨.note .detailsContent "7", 0, 8⟩]⟩

/-- The deepest item counts where items overlap, and a negative depth where it is the only one. -/
theorem depthAt_overlappingItems :
    ∃ nesting, ofText overlappingItems = .ok nesting
      ∧ [-1, 0, 2, 3, 4, 5, 7, 8].map nesting.depthAt = [0, 1, 3, 1, 1, -4, -4, 0] := by
  have hread : ∀ r ∈ overlappingItems.ranges, HasReadableDepth r := by decide +kernel
  have hdepth : ∀ p : Int, ∀ nesting, ofText overlappingItems = .ok nesting →
      nesting.depthAt p = (depthsAt overlappingItems p).max?.getD 0 := by
    intro p nesting hnesting
    obtain ⟨nesting', hnesting', hp⟩ := depthAt_eq_scan overlappingItems hread p
    rw [hnesting] at hnesting'
    cases hnesting'
    exact hp
  obtain ⟨nesting, hnesting, -⟩ := depthAt_eq_scan overlappingItems hread 0
  refine ⟨nesting, hnesting, ?_⟩
  simp only [List.map_cons, List.map_nil, hdepth _ nesting hnesting]
  decide

end MessageBody.Nesting
