import MessageBody.Proofs.KeptPositions

/-! # Moving ranges into the shortened text

    Each range of a text is cut into pieces in the windows that stay.  The
    search for the first window and the early end of the cutting leave out
    windows that give no piece (`pieces_seek`); the pieces cover the images of
    the kept positions that the range covers (`piecesIn_covers`).  A range that
    covers nothing moves to the image of its position, unless it lies strictly
    inside what is taken out (`position?_seek`).  `Shows gone t u` says all of it
    of whole texts. -/

namespace MessageBody

namespace Window

/-- A range that lies beside a window has no piece in it. -/
theorem piece?_eq_none {w : Window} {r : Range} (h : r.stop ≤ w.start ∨ w.stop ≤ r.start)
    (offset : Nat) : w.piece? offset r = none := by
  have hle : ¬ max w.start r.start < min w.stop r.stop := by omega
  rw [piece?, if_neg hle]

/-- A piece has the item of its range and lies in its window. -/
theorem piece?_eq_some {w : Window} {offset : Nat} {r q : Range}
    (h : w.piece? offset r = some q) :
    q.item = r.item ∧ offset ≤ q.start ∧ q.start < q.stop ∧ q.stop ≤ offset + w.length := by
  rw [piece?] at h
  split at h
  · rename_i hlt
    obtain rfl := Option.some.inj h
    refine ⟨rfl, Nat.le_add_right .., ?_, ?_⟩
    · simp only
      omega
    · simp only [length]
      omega
  · cases h

/-- A piece covers the positions of its window that its range covers. -/
theorem piece?_covers {w : Window} {p : Nat} (hstart : w.start ≤ p) (hstop : p < w.stop)
    (offset : Nat) (r : Range) :
    ((w.piece? offset r).toList.filter fun q => q.covers (offset + (p - w.start))).map Range.item
      = if r.covers p then [r.item] else [] := by
  by_cases hcovers : r.covers p = true
  · have hbounds := Range.covers_iff.mp hcovers
    have hlt : max w.start r.start < min w.stop r.stop := by omega
    have hpiece : offset + (max w.start r.start - w.start) ≤ offset + (p - w.start)
        ∧ offset + (p - w.start) < offset + (min w.stop r.stop - w.start) := by omega
    rw [piece?, if_pos hlt, Option.toList_some, if_pos hcovers, List.filter_cons_of_pos]
    · rfl
    · exact Range.covers_iff.mpr hpiece
  · have hbounds : ¬ (r.start ≤ p ∧ p < r.stop) := fun h => hcovers (Range.covers_iff.mpr h)
    rw [if_neg hcovers, List.map_eq_nil_iff, List.filter_eq_nil_iff]
    intro q hq
    rw [Option.mem_toList, piece?] at hq
    split at hq
    · obtain rfl := Option.some.inj hq
      rw [Range.covers_iff]
      simp only
      omega
    · cases hq

end Window

namespace Collapse

/-! ## All pieces of a range -/

/-- The pieces of a range in all of the windows, put together from `offset`
    on. -/
def piecesIn (r : Range) : Nat → List Window → List Range
  | _, [] => []
  | offset, w :: ws => (w.piece? offset r).toList ++ piecesIn r (offset + w.length) ws

/-- A range has no piece in windows behind it. -/
theorem piecesIn_of_stop_le {length index : Nat} {gone : List Range}
    (h : InOrder length index gone) {r : Range} (hstop : r.stop ≤ index) (offset : Nat) :
    piecesIn r offset (between length index gone) = [] := by
  induction gone generalizing index offset with
  | nil =>
      rw [between, piecesIn, Window.piece?_eq_none (Or.inl hstop)]
      rfl
  | cons g gone ih =>
      obtain ⟨hstart, hle, hrest⟩ := h
      rw [between, piecesIn, Window.piece?_eq_none (Or.inl hstop), ih hrest (by omega)]
      rfl

/-- The cutting may end at the first window behind the range. -/
theorem pieces_between {length index : Nat} {gone : List Range}
    (h : InOrder length index gone) (r : Range) (offset : Nat) :
    pieces r offset (between length index gone) = piecesIn r offset (between length index gone) := by
  by_cases hstop : index < r.stop
  · induction gone generalizing index offset with
    | nil =>
        rw [between, pieces, if_pos hstop]
        rfl
    | cons g gone ih =>
        obtain ⟨-, -, hrest⟩ := h
        rw [between, pieces, if_pos hstop, piecesIn]
        congr 1
        -- the cutting ends here if the next window is behind the range
        by_cases hstop' : g.stop < r.stop
        · exact ih hrest _ hstop'
        · rw [piecesIn_of_stop_le hrest (by omega)]
          cases gone with
          | nil => rw [between, pieces, if_neg hstop']
          | cons g' gone => rw [between, pieces, if_neg hstop']
  · rw [piecesIn_of_stop_le h (by omega)]
    cases gone with
    | nil => rw [between, pieces, if_neg hstop]
    | cons g gone => rw [between, pieces, if_neg hstop]

/-- The search goes on while the next range that is taken out ends at the
    position or before. -/
theorem seek_between (p offset length index : Nat) (g : Range) (gone : List Range) :
    seek p offset (between length index (g :: gone))
      = if g.stop ≤ p then seek p (offset + (g.start - index)) (between length g.stop gone)
        else (offset, between length index (g :: gone)) := by
  cases gone with
  | nil => rfl
  | cons g' gone => rfl

/-- The search for the first window passes over windows that give no piece. -/
theorem pieces_seek {length index : Nat} {gone : List Range}
    (h : InOrder length index gone) (r : Range) (offset : Nat) :
    pieces r (seek r.start offset (between length index gone)).1
        (seek r.start offset (between length index gone)).2
      = piecesIn r offset (between length index gone) := by
  induction gone generalizing index offset with
  | nil => exact pieces_between h r offset
  | cons g gone ih =>
      rw [seek_between]
      split
      · rename_i hpassed
        obtain ⟨-, hle, hrest⟩ := h
        -- the range starts behind the window, so the search may pass that by
        have hnone : (⟨index, g.start⟩ : Window).piece? offset r = none :=
          Window.piece?_eq_none (Or.inr (Nat.le_trans hle hpassed)) offset
        rw [ih hrest, between, piecesIn, hnone]
        rfl
      · exact pieces_between h r offset

/-- The pieces have the item of the range and lie in the shortened text. -/
theorem mem_piecesIn {length index : Nat} {gone : List Range}
    (h : InOrder length index gone) {r q : Range} {offset : Nat}
    (hq : q ∈ piecesIn r offset (between length index gone)) :
    q.item = r.item ∧ offset ≤ q.start ∧ q.start < q.stop
      ∧ q.stop ≤ offset + keptFrom gone index (length - index) := by
  induction gone generalizing index offset with
  | nil =>
      rw [between, piecesIn, piecesIn, List.append_nil, Option.mem_toList] at hq
      rw [keptFrom_of_all fun p _ _ => isKept_nil p]
      exact Window.piece?_eq_some hq
  | cons g gone ih =>
      have hrest := h.2.2
      rw [h.keptFrom_behind hrest.index_le]
      rw [between, piecesIn, List.mem_append, Option.mem_toList] at hq
      rcases hq with hq | hq
      · obtain ⟨hitem, hstart, hlt, hstop⟩ := Window.piece?_eq_some hq
        have hlength : (⟨index, g.start⟩ : Window).length = g.start - index := rfl
        exact ⟨hitem, hstart, hlt, by omega⟩
      · obtain ⟨hitem, hstart, hlt, hstop⟩ := ih hrest hq
        have hlength : (⟨index, g.start⟩ : Window).length = g.start - index := rfl
        exact ⟨hitem, by omega, hlt, by omega⟩

/-! ## What the pieces cover -/

/-- The pieces cover the image of a kept position if their range covers the
    position, and then one of them does. -/
theorem piecesIn_covers {length index p : Nat} {gone : List Range}
    (h : InOrder length index gone) (hindex : index ≤ p) (hlength : p < length)
    (hkept : isKept gone p = true) (r : Range) (offset : Nat) :
    ((piecesIn r offset (between length index gone)).filter fun q =>
        q.covers (offset + keptFrom gone index (p - index))).map Range.item
      = if r.covers p then [r.item] else [] := by
  induction gone generalizing index offset with
  | nil =>
      rw [between, piecesIn, piecesIn, List.append_nil,
        keptFrom_of_all fun p _ _ => isKept_nil p]
      exact @Window.piece?_covers ⟨index, length⟩ p hindex hlength offset r
  | cons g gone ih =>
      obtain ⟨hstart, hle, hrest⟩ := id h
      have hwindow : (⟨index, g.start⟩ : Window).length = g.start - index := rfl
      rw [between, piecesIn, List.filter_append, List.map_append]
      by_cases hp : p < g.start
      · -- the first window shows the position, and the others come behind it
        have hbehind : (piecesIn r (offset + (g.start - index)) (between length g.stop gone)).filter
            (fun q => q.covers (offset + (p - index))) = [] := by
          rw [List.filter_eq_nil_iff]
          intro q hq
          obtain ⟨-, hq, -, -⟩ := mem_piecesIn hrest hq
          rw [Range.covers_iff]
          omega
        rw [h.keptFrom_before (Nat.le_of_lt hp), hwindow, hbehind, List.map_nil, List.append_nil]
        exact @Window.piece?_covers ⟨index, g.start⟩ p hindex hp offset r
      · -- the position is not taken out, so it lies behind the first range
        have hstop : g.stop ≤ p := by
          have := isKept_iff.mp hkept g (List.mem_cons_self ..)
          omega
        have hbefore : ((⟨index, g.start⟩ : Window).piece? offset r).toList.filter
            (fun q => q.covers (offset + ((g.start - index) + keptFrom gone g.stop (p - g.stop))))
            = [] := by
          rw [List.filter_eq_nil_iff]
          intro q hq
          obtain ⟨-, -, -, hq⟩ := Window.piece?_eq_some (Option.mem_toList.mp hq)
          rw [Range.covers_iff]
          omega
        rw [isKept_cons_of_stop_le hstop] at hkept
        rw [h.keptFrom_behind hstop, hbefore, List.map_nil, List.nil_append, ← Nat.add_assoc,
          hwindow]
        exact ih hrest hstop hkept _

/-! ## Ranges that cover nothing -/

/-- Nothing that goes lies around a position in front of it. -/
theorem InOrder.strictlyInside_eq_false {length index p : Nat} {gone : List Range}
    (h : InOrder length index gone) (hp : p ≤ index) : strictlyInside gone p = false := by
  rw [strictlyInside, List.any_eq_false]
  intro r hr
  have := h.le_start r hr
  simp only [Bool.and_eq_true, decide_eq_true_eq]
  omega

/-- A position is shown at its image, unless it lies strictly inside what is
    taken out. -/
theorem position?_seek {length index p : Nat} {gone : List Range}
    (h : InOrder length index gone) (hindex : index ≤ p) (hlength : p ≤ length) (offset : Nat) :
    position? p (seek p offset (between length index gone)).1
        (seek p offset (between length index gone)).2
      = if strictlyInside gone p then none
        else some (offset + keptFrom gone index (p - index)) := by
  induction gone generalizing index offset with
  | nil =>
      have hshown : index ≤ p ∧ p ≤ length := ⟨hindex, hlength⟩
      rw [keptFrom_of_all fun p _ _ => isKept_nil p]
      exact if_pos hshown
  | cons g gone ih =>
      obtain ⟨hstart, hle, hrest⟩ := id h
      rw [seek_between]
      by_cases hstop : g.stop ≤ p
      · -- the position is behind the first range, and the search goes on
        have hinside : strictlyInside (g :: gone) p = strictlyInside gone p := by
          have : ¬ p < g.stop := by omega
          simp only [strictlyInside, List.any_cons, this, decide_false, Bool.and_false,
            Bool.false_or]
        rw [if_pos hstop, ih hrest hstop, hinside, h.keptFrom_behind hstop, Nat.add_assoc]
      · -- the search ends at the window before the first range
        rw [if_neg hstop, between, position?]
        have hbehind : strictlyInside gone p = false :=
          hrest.strictlyInside_eq_false (by omega)
        by_cases hp : p ≤ g.start
        · have hinside : strictlyInside (g :: gone) p = false := by
            have : ¬ g.start < p := by omega
            rw [strictlyInside] at hbehind ⊢
            simp only [List.any_cons, this, decide_false, Bool.false_and, hbehind, Bool.or_self]
          rw [if_pos ⟨hindex, hp⟩, hinside, h.keptFrom_before hp]
          rfl
        · have hinside : strictlyInside (g :: gone) p = true := by
            simp only [strictlyInside, List.any_cons, Bool.or_eq_true, Bool.and_eq_true,
              decide_eq_true_eq]
            exact Or.inl ⟨by omega, by omega⟩
          rw [if_neg fun hshown => hp hshown.2, hinside]
          rfl

/-! ## Whole texts -/

/-- A range that covers something is rebased to its pieces in the windows. -/
theorem rebase_of_lt {length : Nat} {gone : List Range} (h : InOrder length 0 gone) {r : Range}
    (hr : r.start < r.stop) :
    rebase (between length 0 gone) r = piecesIn r 0 (between length 0 gone) := by
  have hfull : r.isEmpty = false := by
    rw [Range.isEmpty, beq_eq_false_iff_ne]
    omega
  rw [rebase, hfull, ← pieces_seek h r 0]
  rfl

/-- A range that covers nothing is kept unless it lies inside what goes. -/
theorem rebase_of_eq {length : Nat} {gone : List Range} (h : InOrder length 0 gone) {r : Range}
    (hr : r.start = r.stop) (hlength : r.start ≤ length) :
    rebase (between length 0 gone) r
      = if strictlyInside gone r.start then []
        else [⟨r.item, image gone r.start, image gone r.start⟩] := by
  have hempty : r.isEmpty = true := by
    rw [Range.isEmpty, beq_iff_eq]
    exact hr
  have hposition := position?_seek h (Nat.zero_le _) hlength 0
  rw [Nat.zero_add, Nat.sub_zero] at hposition
  rw [rebase, hempty]
  simp only [if_true, hposition, image]
  split
  · rfl
  · rfl

/-- The windows of a text with nothing taken out show the text as it is. -/
theorem restrict_whole {t : AnnotatedText} (ht : t.WellFormed) :
    restrict t (between t.length 0 []) = t := by
  have hinOrder : InOrder t.length 0 [] := Nat.zero_le _
  have hrange : ∀ r ∈ t.ranges, rebase (between t.length 0 []) r = [r] := by
    intro r hr
    obtain ⟨hstart, hstop⟩ := ht r hr
    by_cases hr : r.start = r.stop
    · rw [rebase_of_eq hinOrder hr (by omega), image, keptFrom_of_all fun p _ _ => isKept_nil p]
      cases r
      cases hr
      rfl
    · have hlt : max 0 r.start < min t.length r.stop := by omega
      rw [rebase_of_lt hinOrder (by omega), between, piecesIn, piecesIn, Window.piece?,
        if_pos hlt, Nat.zero_max, Nat.min_eq_right hstop]
      simp only [Nat.sub_zero, Nat.zero_add]
      rfl
  have htext : slices t.text (between t.length 0 []) = t.text := by
    rw [AnnotatedText.length, slices_between (Nat.zero_le _), keptChars_of_all fun p _ _ =>
      isKept_nil p, List.drop_zero]
  have hranges : t.ranges.flatMap (rebase (between t.length 0 [])) = t.ranges := by
    rw [List.flatMap_congr hrange, List.flatMap_singleton']
  rw [restrict, htext, hranges]

/-- Collapsing shows the windows between what is taken out. -/
theorem collapse_outcome {t : AnnotatedText} (ht : t.WellFormed) (hread : HasReadableIds t)
    (expanded : IdSet) :
    (t.collapse expanded).outcome
      = .ok (restrict t (between t.length 0 (removed t expanded))) := by
  rw [AnnotatedText.collapse, Logged.outcome_bind, windows_outcome hread]
  show Logged.outcome (if _ then _ else _) = _
  split
  · rename_i hwhole
    rw [hwhole]
    exact congrArg Except.ok (restrict_whole ht).symm
  · rfl

/-- The text `u` is `t` without the ranges `gone`, and its ranges are those of
    `t` moved with their characters. -/
structure Shows (gone : List Range) (t u : AnnotatedText) : Prop where
  /-- The characters at kept positions are left. -/
  text : u.text = keptChars gone 0 t.text
  /-- Each of them comes to lie at the image of its position. -/
  char : ∀ p, p < t.length → isKept gone p = true → u.text[image gone p]? = t.text[p]?
  /-- There it is covered by the same items in the same order. -/
  items : ∀ p, p < t.length → isKept gone p = true → u.itemsAt (image gone p) = t.itemsAt p
  ranges : u.ranges = t.ranges.flatMap (rebase (between t.length 0 gone))
  /-- What is made of a range that covers something covers something. -/
  pieces : ∀ r ∈ t.ranges, r.start < r.stop → ∀ q ∈ rebase (between t.length 0 gone) r,
    q.item = r.item ∧ q.start < q.stop ∧ q.stop ≤ u.length
  /-- A range that covers nothing is dropped strictly inside what is taken out,
      and stays before the same kept position otherwise. -/
  empties : ∀ r ∈ t.ranges, r.start = r.stop → rebase (between t.length 0 gone) r
    = if strictlyInside gone r.start then []
      else [⟨r.item, image gone r.start, image gone r.start⟩]

/-- The pieces of any range that cover the image of a kept position. -/
theorem rebase_covers {length p : Nat} {gone : List Range} (h : InOrder length 0 gone)
    (hp : p < length) (hkept : isKept gone p = true) {r : Range} (hr : r.start ≤ r.stop)
    (hstop : r.stop ≤ length) :
    ((rebase (between length 0 gone) r).filter fun q => q.covers (image gone p)).map Range.item
      = if r.covers p then [r.item] else [] := by
  by_cases hempty : r.start = r.stop
  · have hcovers : r.covers p = false := by
      rw [Range.covers_eq_false_iff]
      omega
    rw [rebase_of_eq h hempty (by omega), hcovers]
    split
    · rfl
    · rw [List.filter_cons_of_neg]
      · rfl
      · rw [Range.covers_iff]
        simp only
        omega
  · have hcovers := piecesIn_covers h (Nat.zero_le p) hp hkept r 0
    rw [Nat.zero_add, Nat.sub_zero] at hcovers
    rw [rebase_of_lt h (by omega)]
    exact hcovers

/-- A position that is kept has the items that it had. -/
theorem itemsAt_restrict {t : AnnotatedText} (ht : t.WellFormed) {gone : List Range}
    (h : InOrder t.length 0 gone) {p : Nat} (hp : p < t.length) (hkept : isKept gone p = true) :
    (restrict t (between t.length 0 gone)).itemsAt (image gone p) = t.itemsAt p := by
  -- range by range, in the order of the list
  have hranges : ∀ rs : List Range, (∀ r ∈ rs, r.start ≤ r.stop ∧ r.stop ≤ t.length) →
      ((rs.flatMap (rebase (between t.length 0 gone))).filter
          fun q => q.covers (image gone p)).map Range.item
        = (rs.filter fun r => r.covers p).map Range.item := by
    intro rs hrs
    induction rs with
    | nil => rfl
    | cons r rs ih =>
        obtain ⟨hr, hstop⟩ := hrs r (List.mem_cons_self ..)
        rw [List.flatMap_cons, List.filter_append, List.map_append,
          rebase_covers h hp hkept hr hstop, ih fun r hr => hrs r (List.mem_cons_of_mem _ hr),
          List.filter_cons]
        cases r.covers p
        · rfl
        · rfl
  exact hranges t.ranges ht

/-- What is kept of a text shows the text without what goes. -/
theorem shows_restrict {t : AnnotatedText} (ht : t.WellFormed) {gone : List Range}
    (h : InOrder t.length 0 gone) : Shows gone t (restrict t (between t.length 0 gone)) := by
  have htext : (restrict t (between t.length 0 gone)).text = keptChars gone 0 t.text :=
    slices_between h
  have hlength : (restrict t (between t.length 0 gone)).length = keptFrom gone 0 t.length := by
    rw [AnnotatedText.length, htext, length_keptChars]
    rfl
  refine ⟨htext, ?_, fun p hp hkept => itemsAt_restrict ht h hp hkept, rfl, ?_, ?_⟩
  · intro p hp hkept
    rw [htext]
    refine keptChars_getElem? hp ?_
    rw [Nat.zero_add]
    exact hkept
  · intro r hr hlt q hq
    rw [rebase_of_lt h hlt] at hq
    obtain ⟨hitem, -, hlt, hstop⟩ := mem_piecesIn h hq
    rw [Nat.zero_add, Nat.sub_zero] at hstop
    exact ⟨hitem, hlt, by rw [hlength]; exact hstop⟩
  · intro r hr heq
    obtain ⟨-, hstop⟩ := ht r hr
    exact rebase_of_eq h heq (by omega)

/-- **Collapsing re-bases faithfully.**  From any well-formed text, however its
    ranges overlap, collapsing takes out collapsed contents and shows the rest
    with each range moved to the characters it covers. -/
theorem collapse_shows (t : AnnotatedText) (expanded : IdSet) (ht : t.WellFormed)
    (hread : HasReadableIds t) :
    ∃ u, (t.collapse expanded).outcome = .ok u ∧ Removal t expanded (removed t expanded)
      ∧ Shows (removed t expanded) t u := by
  have hremoval := removal_removed ht expanded
  exact ⟨_, collapse_outcome ht hread expanded, hremoval, shows_restrict ht hremoval.inOrder⟩

/-- Two contents that overlap, one range twice, and ranges that cover nothing. -/
def overlapping : AnnotatedText where
  text := "abcdefgh".toList
  ranges :=
    [⟨.note .heading "h1", 1, 6⟩, ⟨.note .detailsContent "1", 2, 5⟩,
     ⟨.note .detailsContent "2", 4, 7⟩, ⟨.note .heading "h1", 1, 6⟩,
     ⟨.note .roomMention "", 2, 2⟩, ⟨.note .roomMention "", 3, 3⟩, ⟨.note .roomMention "", 5, 5⟩]

/-- The second content starts inside the first, which is taken out, so it stays. -/
theorem collapse_overlapping :
    ∃ u, (overlapping.collapse .empty).outcome = .ok u ∧ u.text = "abfgh".toList
      ∧ u.ranges.map (fun r => (r.item.tag?, r.start, r.stop))
        = [(some .heading, 1, 2), (some .heading, 2, 3), (some .detailsContent, 2, 4),
          (some .heading, 1, 2), (some .heading, 2, 3), (some .roomMention, 2, 2),
          (some .roomMention, 2, 2)] := by
  obtain ⟨u, hu, -, hshows⟩ := collapse_shows overlapping .empty (by decide) (by decide)
  refine ⟨u, hu, hshows.text.trans (by decide), ?_⟩
  rw [hshows.ranges]
  decide

end Collapse

end MessageBody
