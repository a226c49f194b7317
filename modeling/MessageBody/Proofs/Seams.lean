import MessageBody.Proofs.Rebasing

/-! # Collapsing where nothing is hidden

    When no character lies in collapsed content, all collapsed content covers
    nothing.  The scan takes it out all the same, and the windows meet where it
    stood: at the seams.  The text keeps all its characters, but a range that goes
    across a seam comes out in two pieces.  So collapsing gives the text back just
    when no range goes across a seam. -/

namespace MessageBody.Collapse

/-! ## What is left of a text -/

/-- No character of the text lies in content that is collapsed. -/
def NothingHidden (t : AnnotatedText) (expanded : IdSet) : Prop :=
  ∀ r ∈ t.tagged .detailsContent, isCollapsed expanded r = true →
    ∀ p < t.length, r.covers p = false

instance (t : AnnotatedText) (expanded : IdSet) : Decidable (NothingHidden t expanded) :=
  inferInstanceAs (Decidable (∀ r ∈ t.tagged .detailsContent, isCollapsed expanded r = true →
    ∀ p < t.length, r.covers p = false))

/-- The starts of collapsed contents, in order. -/
def seams (t : AnnotatedText) (expanded : IdSet) : List Nat :=
  ((hideable t).filter (isCollapsed expanded)).map Range.start

/-- A range goes across a position: the position lies strictly inside it. -/
def GoesAcross (r : Range) (p : Nat) : Prop :=
  r.start < p ∧ p < r.stop

instance (r : Range) (p : Nat) : Decidable (GoesAcross r p) :=
  inferInstanceAs (Decidable (_ ∧ _))

/-- The pieces of a range that is cut at those of the positions that it goes
    across, which are in order. -/
def cutAt : List Nat → Range → List Range
  | [], r => [r]
  | p :: ps, r =>
      if GoesAcross r p then ⟨r.item, r.start, p⟩ :: cutAt ps ⟨r.item, p, r.stop⟩ else cutAt ps r

/-! ## Cutting -/

/-- A range that goes across no seam stays one. -/
theorem cutAt_eq_singleton {ps : List Nat} {r : Range} (h : ∀ p ∈ ps, ¬ GoesAcross r p) :
    cutAt ps r = [r] := by
  induction ps with
  | nil => rfl
  | cons p ps ih =>
      obtain ⟨hp, hps⟩ := List.forall_mem_cons.mp h
      rw [cutAt, if_neg hp, ih hps]

/-- A range that is cut leaves at least one part. -/
theorem length_cutAt_pos (ps : List Nat) (r : Range) : 0 < (cutAt ps r).length := by
  induction ps generalizing r with
  | nil => exact Nat.one_pos
  | cons p ps ih =>
      rw [cutAt]
      split
      · exact Nat.succ_pos _
      · exact ih r

/-- A range stays whole just when it goes across none of the positions. -/
theorem length_cutAt_eq_one_iff {ps : List Nat} {r : Range} :
    (cutAt ps r).length = 1 ↔ ∀ p ∈ ps, ¬ GoesAcross r p := by
  constructor
  · intro h
    induction ps with
    | nil => exact fun _ hp => nomatch hp
    | cons p ps ih =>
        rw [cutAt] at h
        split at h
        · have := length_cutAt_pos ps ⟨r.item, p, r.stop⟩
          rw [List.length_cons] at h
          omega
        · rename_i hp
          exact List.forall_mem_cons.mpr ⟨hp, ih h⟩
  · intro h
    rw [cutAt_eq_singleton h]
    rfl

/-- Cutting makes no fewer ranges. -/
theorem length_le_flatMap_cutAt (ps : List Nat) (rs : List Range) :
    rs.length ≤ (rs.flatMap (cutAt ps)).length := by
  induction rs with
  | nil => exact Nat.le_refl _
  | cons r rs ih =>
      have := length_cutAt_pos ps r
      rw [List.flatMap_cons, List.length_append, List.length_cons]
      omega

/-- Ranges stay as they are just when none of them goes across a position. -/
theorem flatMap_cutAt_eq_self_iff {ps : List Nat} {rs : List Range} :
    rs.flatMap (cutAt ps) = rs ↔ ∀ r ∈ rs, ∀ p ∈ ps, ¬ GoesAcross r p := by
  constructor
  · intro h
    -- no range is lost, so one that is cut makes the list longer
    replace h := congrArg List.length h
    induction rs with
    | nil => exact fun _ hr => nomatch hr
    | cons r rs ih =>
        rw [List.flatMap_cons, List.length_append, List.length_cons] at h
        have hfirst := length_cutAt_pos ps r
        have hrest := length_le_flatMap_cutAt ps rs
        exact List.forall_mem_cons.mpr
          ⟨length_cutAt_eq_one_iff.mp (by omega), ih (by omega)⟩
  · intro h
    rw [List.flatMap_congr fun r hr => cutAt_eq_singleton (h r hr), List.flatMap_singleton']

/-! ## The windows meet at the seams -/

/-- All of the ranges cover nothing. -/
def AllEmpty (gone : List Range) : Prop :=
  ∀ g ∈ gone, g.start = g.stop

/-- Empty ranges take no position away. -/
theorem AllEmpty.isKept {gone : List Range} (h : AllEmpty gone) (p : Nat) :
    isKept gone p = true := by
  rw [isKept_iff]
  intro g hg
  have := h g hg
  omega

/-- Empty ranges move no position. -/
theorem AllEmpty.image_eq {gone : List Range} (h : AllEmpty gone) (p : Nat) :
    image gone p = p :=
  keptFrom_of_all fun q _ _ => h.isKept q

/-- In windows that meet, the pieces of a range are those between the seams. -/
theorem piecesIn_eq_cutAt {length index : Nat} {gone : List Range}
    (h : InOrder length index gone) (hgone : AllEmpty gone) {r : Range} (hlt : r.start < r.stop)
    (hindex : index < r.stop) (hstop : r.stop ≤ length) :
    piecesIn r index (between length index gone)
      = cutAt (gone.map Range.start) ⟨r.item, max index r.start, r.stop⟩ := by
  induction gone generalizing index with
  | nil =>
      have hshared : max index r.start < min length r.stop := by omega
      rw [between, piecesIn, piecesIn, Window.piece?, if_pos hshared,
        show index + (max index r.start - index) = max index r.start by omega,
        show index + (min length r.stop - index) = r.stop by omega]
      rfl
  | cons g gone ih =>
      obtain ⟨hfirst, hrest⟩ := List.forall_mem_cons.mp hgone
      obtain ⟨hstart, -, hinOrder⟩ := h
      rw [← hfirst] at hinOrder
      have hlength : (⟨index, g.start⟩ : Window).length = g.start - index := rfl
      rw [between, piecesIn, List.map_cons, cutAt, ← hfirst, hlength,
        Nat.add_sub_cancel' hstart]
      by_cases hbehind : r.stop ≤ g.start
      · -- the range ends in front of the seam
        have hshared : max index r.start < min g.start r.stop := by omega
        have hnone : ¬ GoesAcross ⟨r.item, max index r.start, r.stop⟩ g.start := fun hcross =>
          absurd hcross.2 (Nat.not_lt.mpr hbehind)
        have hlater : ∀ p ∈ gone.map Range.start,
            ¬ GoesAcross ⟨r.item, max index r.start, r.stop⟩ p := by
          rintro p hp ⟨-, hcross⟩
          obtain ⟨g', hg', rfl⟩ := List.mem_map.mp hp
          have := hinOrder.le_start g' hg'
          simp only at hcross
          omega
        rw [piecesIn_of_stop_le hinOrder hbehind, if_neg hnone, cutAt_eq_singleton hlater,
          Window.piece?, if_pos hshared,
          show index + (max index r.start - index) = max index r.start by omega,
          show index + (min g.start r.stop - index) = r.stop by omega]
        rfl
      · have ih := ih hinOrder hrest (Nat.lt_of_not_le hbehind)
        by_cases hcross : max index r.start < g.start
        · -- the range goes across the seam
          have hshared : max index r.start < min g.start r.stop := by omega
          have hinside : GoesAcross ⟨r.item, max index r.start, r.stop⟩ g.start :=
            ⟨hcross, Nat.lt_of_not_le hbehind⟩
          rw [ih, if_pos hinside, Window.piece?, if_pos hshared,
            show max g.start r.start = g.start by omega,
            show index + (max index r.start - index) = max index r.start by omega,
            show index + (min g.start r.stop - index) = g.start by omega]
          rfl
        · -- the range starts at the seam or behind it
          have hnone : ¬ max index r.start < min g.start r.stop := by omega
          have houtside : ¬ GoesAcross ⟨r.item, max index r.start, r.stop⟩ g.start := fun h =>
            hcross h.1
          rw [ih, if_neg houtside, Window.piece?, if_neg hnone,
            show max g.start r.start = max index r.start by omega]
          rfl

/-- In windows that meet, a range is cut where it goes across a seam. -/
theorem rebase_eq_cutAt {length : Nat} {gone : List Range} (h : InOrder length 0 gone)
    (hgone : AllEmpty gone) {r : Range} (hr : r.start ≤ r.stop) (hstop : r.stop ≤ length) :
    rebase (between length 0 gone) r = cutAt (gone.map Range.start) r := by
  by_cases hempty : r.start = r.stop
  · -- an empty range has no inside, so no seam lies in it
    have hinside : strictlyInside gone r.start = false := by
      rw [strictlyInside, List.any_eq_false]
      intro g hg
      have := hgone g hg
      simp only [Bool.and_eq_true, decide_eq_true_eq]
      omega
    have hwhole : ∀ p ∈ gone.map Range.start, ¬ GoesAcross r p := by
      rintro p - ⟨hlow, hhigh⟩
      omega
    rw [rebase_of_eq h hempty (by omega), hinside, hgone.image_eq, cutAt_eq_singleton hwhole]
    cases r
    cases hempty
    rfl
  · rw [rebase_of_lt h (by omega), piecesIn_eq_cutAt h hgone (by omega) (by omega) hstop,
      Nat.zero_max]

/-! ## What the scan takes out -/

/-- Of ranges in the order of their starts the scan takes out all that are
    collapsed, if these cover nothing. -/
theorem removedFrom_eq_filter {expanded : IdSet} {rs : List Range}
    (hsorted : rs.Pairwise fun r s => startsFirst r s = true)
    (hempty : ∀ r ∈ rs, isCollapsed expanded r = true → r.start = r.stop) {index : Nat}
    (hindex : ∀ r ∈ rs, index ≤ r.start) :
    removedFrom expanded index rs = rs.filter (isCollapsed expanded) := by
  induction rs generalizing index with
  | nil => rfl
  | cons r rs ih =>
      obtain ⟨hbehind, hsorted⟩ := List.pairwise_cons.mp hsorted
      obtain ⟨hfirst, hrest⟩ := List.forall_mem_cons.mp hempty
      obtain ⟨hle, hindex⟩ := List.forall_mem_cons.mp hindex
      rw [removedFrom]
      cases hcollapsed : isCollapsed expanded r with
      | false =>
          rw [Bool.false_and, if_neg Bool.false_ne_true, ih hsorted hrest hindex,
            List.filter_cons_of_neg (by rw [hcollapsed]; exact Bool.false_ne_true)]
      | true =>
          -- what is taken out here is empty, so nothing behind it is skipped
          have hnext : ∀ s ∈ rs, r.stop ≤ s.start := by
            intro s hs
            rw [← hfirst hcollapsed]
            exact of_decide_eq_true (hbehind s hs)
          rw [if_pos (by simpa using hle), ih hsorted hrest hnext,
            List.filter_cons_of_pos hcollapsed]

/-- The hideable ranges are in the order of their starts. -/
theorem hideable_sorted (t : AnnotatedText) :
    (hideable t).Pairwise fun r s => startsFirst r s = true := by
  refine Order.pairwise_sort ?_ ?_ _
  · simp only [startsFirst, decide_eq_true_eq]
    omega
  · simp only [startsFirst, decide_eq_true_eq]
    omega

/-- Where nothing is hidden, what is collapsed covers nothing. -/
theorem NothingHidden.start_eq_stop {t : AnnotatedText} {expanded : IdSet}
    (h : NothingHidden t expanded) (ht : t.WellFormed) {r : Range}
    (hr : r ∈ t.tagged .detailsContent) (hcollapsed : isCollapsed expanded r = true) :
    r.start = r.stop := by
  obtain ⟨hle, hstop⟩ := ht r (mem_ranges_of_mem_tagged hr)
  by_contra hne
  have hstart := h r hr hcollapsed r.start (by omega)
  rw [Range.covers_eq_false_iff] at hstart
  omega

/-- Where nothing is hidden, the scan takes out all that is collapsed. -/
theorem removed_of_nothingHidden {t : AnnotatedText} {expanded : IdSet} (ht : t.WellFormed)
    (h : NothingHidden t expanded) :
    AllEmpty (removed t expanded) ∧ (removed t expanded).map Range.start = seams t expanded := by
  have hempty : ∀ r ∈ hideable t, isCollapsed expanded r = true → r.start = r.stop :=
    fun r hr => h.start_eq_stop ht (mem_hideable.mp hr)
  have hremoved : removed t expanded = (hideable t).filter (isCollapsed expanded) :=
    removedFrom_eq_filter (hideable_sorted t) hempty fun r _ => Nat.zero_le _
  rw [hremoved]
  refine ⟨fun r hr => ?_, rfl⟩
  obtain ⟨hmem, hcollapsed⟩ := List.mem_filter.mp hr
  exact hempty r hmem hcollapsed

/-- The scan fails on an id of too many digits. -/
theorem hasReadableId_of_windowsFrom {expanded : IdSet} {length index : Nat} {rs : List Range}
    {ws : List Window} (h : (windowsFrom expanded length index rs).outcome = .ok ws) :
    ∀ r ∈ rs, HasReadableId r := by
  induction rs generalizing index ws with
  | nil => exact fun _ hr => nomatch hr
  | cons r rs ih =>
      rw [windowsFrom] at h
      cases hitem : r.item with
      | directive d =>
          simp only [hitem] at h
          exact List.forall_mem_cons.mpr ⟨by simp only [HasReadableId, hitem], ih h⟩
      | note tag payload =>
          simp only [hitem] at h
          have hread : ∀ id?, Text.wholeNumber payload.toList = .ok id? → HasReadableId r := by
            intro id? hid
            rw [HasReadableId, hitem]
            exact (Text.wholeNumber_ok_iff).mp ⟨id?, hid⟩
          cases hnumber : Text.wholeNumber payload.toList with
          | error refusal =>
              simp only [hnumber] at h
              cases h
          | ok id? =>
              simp only [hnumber] at h
              refine List.forall_mem_cons.mpr ⟨hread id? hnumber, ?_⟩
              cases id? with
              | none =>
                  obtain ⟨-, -, h⟩ := Logged.outcome_bind_eq_ok h
                  exact ih h
              | some id =>
                  simp only at h
                  split at h
                  · exact ih h
                  · split at h
                    · obtain ⟨-, -, h⟩ := Logged.outcome_bind_eq_ok h
                      exact ih h
                    · obtain ⟨rest, hrest, -⟩ := Logged.outcome_bind_eq_ok h
                      exact ih hrest

/-- Collapsing comes to a text just when the ids have no more digits than a number
    may have. -/
theorem collapse_ok_iff {t : AnnotatedText} (ht : t.WellFormed) (expanded : IdSet) :
    (∃ u, (t.collapse expanded).outcome = .ok u) ↔ HasReadableIds t := by
  constructor
  · rintro ⟨u, hu⟩ r hr
    obtain ⟨ws, hws, -⟩ := Logged.outcome_bind_eq_ok hu
    exact hasReadableId_of_windowsFrom hws r (mem_hideable.mpr hr)
  · exact fun hread => ⟨_, collapse_outcome ht hread expanded⟩

/-- **Collapsing where nothing is hidden** keeps the characters, and cuts each range
    at the seams that it goes across.  So it gives the text back just when no range
    goes across a seam. -/
theorem collapse_of_nothingHidden (t : AnnotatedText) (expanded : IdSet) (ht : t.WellFormed)
    (hhidden : NothingHidden t expanded) :
    ((∃ u, (t.collapse expanded).outcome = .ok u) ↔ HasReadableIds t)
      ∧ ∀ u, (t.collapse expanded).outcome = .ok u →
        u.text = t.text ∧ u.ranges = t.ranges.flatMap (cutAt (seams t expanded))
          ∧ (u = t ↔ ∀ r ∈ t.ranges, ∀ p ∈ seams t expanded, ¬ GoesAcross r p) := by
  refine ⟨collapse_ok_iff ht expanded, fun u hu => ?_⟩
  have hread := (collapse_ok_iff ht expanded).mp ⟨u, hu⟩
  have hinOrder := (removal_removed ht expanded).inOrder
  obtain ⟨hempty, hseams⟩ := removed_of_nothingHidden ht hhidden
  obtain rfl : restrict t (between t.length 0 (removed t expanded)) = u :=
    Except.ok.inj ((collapse_outcome ht hread expanded).symm.trans hu)
  have htext : slices t.text (between t.length 0 (removed t expanded)) = t.text := by
    rw [AnnotatedText.length, slices_between hinOrder,
      keptChars_of_all fun p _ _ => hempty.isKept p, List.drop_zero]
  have hranges : t.ranges.flatMap (rebase (between t.length 0 (removed t expanded)))
      = t.ranges.flatMap (cutAt (seams t expanded)) := by
    refine List.flatMap_congr fun r hr => ?_
    obtain ⟨hle, hstop⟩ := ht r hr
    rw [rebase_eq_cutAt hinOrder hempty hle hstop, hseams]
  refine ⟨htext, hranges, ?_⟩
  rw [restrict, htext, hranges, ← flatMap_cutAt_eq_self_iff]
  exact ⟨congrArg AnnotatedText.ranges, fun h => by rw [h]⟩

/-- A heading with the empty content of a closed details element in it. -/
def seamInHeading : AnnotatedText where
  text := "abcd".toList
  ranges := [⟨.note .heading "h1", 1, 3⟩, ⟨.note .detailsContent "1", 2, 2⟩]

/-- The heading comes out as two. -/
theorem collapse_seamInHeading :
    seamInHeading.WellFormed ∧ NothingHidden seamInHeading .empty
      ∧ ∃ u, (seamInHeading.collapse .empty).outcome = .ok u ∧ u.text = seamInHeading.text
        ∧ u.ranges.map (fun r => (r.item.tag?, r.start, r.stop))
          = [(some .heading, 1, 2), (some .heading, 2, 3), (some .detailsContent, 2, 2)]
        ∧ u ≠ seamInHeading := by
  have ht : seamInHeading.WellFormed := by decide
  have hhidden : NothingHidden seamInHeading .empty := by decide
  obtain ⟨hok, hcollapse⟩ := collapse_of_nothingHidden seamInHeading .empty ht hhidden
  obtain ⟨u, hu⟩ := hok.mpr (by decide)
  obtain ⟨htext, hranges, heq⟩ := hcollapse u hu
  refine ⟨ht, hhidden, u, hu, htext, ?_, fun h => ?_⟩
  · rw [hranges]
    decide
  · exact absurd (heq.mp h) (by decide)

end MessageBody.Collapse
