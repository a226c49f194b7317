import Mathlib.Data.List.Basic
import MessageBody.Annotated.Text

/-! # Windows of a text

    A window of an annotated text has the characters from one position to another,
    with the parts of the ranges that lie between them.  A range is in a window that is
    not empty if it starts before the window stops, and either starts or stops behind
    the start of the window (`clip_of_lt`).  In this form the rules for ranges that
    cover something and for those that cover nothing are the same, and a window of a
    window is a matter of adding positions (`clip_clip`). -/

namespace MessageBody

namespace Range

variable {r r' : Range} {s e : Nat}

/-- The part of a range in a window, with the two rules for being inside. -/
theorem clip_eq (s e : Nat) (r : Range) :
    r.clip s e
      = if (r.start = r.stop ∧ (s ≤ r.start ∧ r.start < e ∨ s = e ∧ e = r.start))
          ∨ (r.start ≠ r.stop ∧ max s r.start < min e r.stop) then
          some ⟨r.item, r.start - s, min e r.stop - s⟩
        else none := by
  have hstart : (max (s : Int) r.start - s).toNat = r.start - s := by omega
  have hstop : (min (e : Int) r.stop - s).toNat = min e r.stop - s := by omega
  rw [clip, hstart, hstop]
  refine if_congr ?_ rfl rfl
  -- an empty range is kept for its place, any other one for what it shares with the window
  by_cases hempty : r.isEmpty = true
  · have hbounds : r.start = r.stop := beq_iff_eq.mp hempty
    rw [if_pos hempty]
    omega
  · have hbounds : r.start ≠ r.stop := fun h => hempty (beq_iff_eq.mpr h)
    rw [if_neg hempty]
    omega

/-- In a window that is not empty the two rules come to the same. -/
theorem clip_of_lt (hwindow : s < e) (hr : r.start ≤ r.stop) :
    r.clip s e
      = if r.start < e ∧ (s ≤ r.start ∨ s < r.stop) then
          some ⟨r.item, r.start - s, min e r.stop - s⟩
        else none := by
  rw [clip_eq]
  refine if_congr ?_ rfl rfl
  omega

/-- An empty window has only the ranges that cover nothing at its position. -/
theorem clip_self (s : Nat) (r : Range) :
    r.clip s s = if r.start = s ∧ r.stop = s then some ⟨r.item, 0, 0⟩ else none := by
  rw [clip_eq]
  by_cases hat : r.start = s ∧ r.stop = s
  · have hstart : r.start - s = 0 := by omega
    have hstop : min s r.stop - s = 0 := by omega
    rw [if_pos hat, if_pos (by omega), hstart, hstop]
  · rw [if_neg hat, if_neg (by omega)]

/-- What a window has of a range lies in the window. -/
theorem bounds_of_clip (hwindow : s ≤ e) (hr : r.start ≤ r.stop) (h : r.clip s e = some r') :
    r'.start ≤ r'.stop ∧ r'.stop ≤ e - s := by
  rcases Nat.lt_or_eq_of_le hwindow with hlt | rfl
  · rw [clip_of_lt hlt hr] at h
    obtain ⟨hin, hpart⟩ := Option.ite_none_right_eq_some.mp h
    cases hpart
    show r.start - s ≤ min e r.stop - s ∧ min e r.stop - s ≤ e - s
    omega
  · rw [clip_self] at h
    obtain ⟨-, hpart⟩ := Option.ite_none_right_eq_some.mp h
    cases hpart
    exact ⟨Nat.le_refl 0, Nat.zero_le _⟩

/-- The item of a range, if the range covers position `p`. -/
def itemAt? (p : Nat) (r : Range) : Option Item :=
  if r.covers p then some r.item else none

/-- What a window has of a range covers in the window what the range covers there. -/
theorem itemAt?_clip {p : Nat} (hs : s ≤ p) (he : p < e) (hr : r.start ≤ r.stop) :
    (r.clip s e).bind (itemAt? (p - s)) = r.itemAt? p := by
  rw [clip_of_lt (Nat.lt_of_le_of_lt hs he) hr]
  by_cases hin : r.start < e ∧ (s ≤ r.start ∨ s < r.stop)
  · rw [if_pos hin]
    show (if covers ⟨r.item, r.start - s, min e r.stop - s⟩ (p - s) then some r.item else none)
      = if r.covers p then some r.item else none
    refine if_congr ?_ rfl rfl
    rw [covers_iff, covers_iff]
    show r.start - s ≤ p - s ∧ p - s < min e r.stop - s ↔ _
    omega
  · -- a range that is not in the window covers no position of it
    have hnot : ¬ r.covers p = true := by
      rw [covers_iff]
      omega
    rw [if_neg hin, itemAt?, if_neg hnot]
    rfl

/-- **A window of a window is a window**, as far as one range goes. -/
theorem clip_clip {a b : Nat} (hab : a < b) (hb : b ≤ e - s) (hr : r.start ≤ r.stop) :
    (r.clip s e).bind (clip a b) = r.clip ((s + a : Nat) : Int) ((s + b : Nat) : Int) := by
  have houter : s < e := by omega
  have htogether : s + a < s + b := by omega
  rw [clip_of_lt houter hr, clip_of_lt htogether hr]
  by_cases hin : r.start < e ∧ (s ≤ r.start ∨ s < r.stop)
  · rw [if_pos hin]
    have hpart : r.start - s ≤ min e r.stop - s := by omega
    show clip a b ⟨r.item, r.start - s, min e r.stop - s⟩ = _
    rw [clip_of_lt hab hpart]
    have hstart : r.start - s - a = r.start - (s + a) := by omega
    have hstop : min b (min e r.stop - s) - a = min (s + b) r.stop - (s + a) := by omega
    show (if r.start - s < b ∧ (a ≤ r.start - s ∨ a < min e r.stop - s) then
      some (⟨r.item, r.start - s - a, min b (min e r.stop - s) - a⟩ : Range) else none) = _
    rw [hstart, hstop]
    -- a range from in front of the outer window stands at its start, and `hin` says that it
    -- reaches into it
    refine if_congr ?_ rfl rfl
    omega
  · -- what is not in the outer window is in no window inside
    rw [if_neg hin, if_neg (by omega)]
    rfl

end Range

namespace AnnotatedText

theorem itemsAt_eq (t : AnnotatedText) (p : Nat) :
    t.itemsAt p = t.ranges.filterMap (Range.itemAt? p) := by
  rw [itemsAt, ← List.filterMap_eq_filter, ← List.filterMap_eq_map, List.filterMap_filterMap]
  refine List.filterMap_congr fun r _ => ?_
  by_cases hcovers : r.covers p = true
  · simp [Range.itemAt?, hcovers]
  · simp [Range.itemAt?, hcovers]

/-- The text in a window, with the parts of the ranges there. -/
def window (t : AnnotatedText) (s e : Nat) : AnnotatedText :=
  ⟨(t.text.drop s).take (e - s), t.ranges.filterMap (Range.clip s e)⟩

variable {t : AnnotatedText} {s e : Nat}

theorem length_window (he : e ≤ t.length) : (t.window s e).length = e - s := by
  rw [length] at he
  show ((t.text.drop s).take (e - s)).length = e - s
  rw [List.length_take, List.length_drop]
  omega

/-- The ranges of a window lie in it. -/
theorem wellFormed_window (ht : t.WellFormed) (hse : s ≤ e) (he : e ≤ t.length) :
    (t.window s e).WellFormed := by
  intro r' hr'
  obtain ⟨r, hr, hclip⟩ := List.mem_filterMap.mp hr'
  rw [length_window he]
  exact Range.bounds_of_clip hse (ht r hr).1 hclip

/-- Every window of a text can be taken. -/
theorem subsequence_eq_ok (ht : t.WellFormed) (hse : s ≤ e) (he : e ≤ t.length) :
    t.subsequence s e = .ok (t.window s e) := by
  have hbounds : ¬ ((s : Int) < 0 ∨ (t.length : Int) < e ∨ (e : Int) < s) := by omega
  have hlength : ((e : Int) - s).toNat = e - s := by omega
  rw [subsequence, if_neg hbounds, hlength, Int.toNat_natCast]
  exact make_eq_ok fun r hr => (wellFormed_window ht hse he r hr).2

/-- In a window every position has the items that it has in the text. -/
theorem itemsAt_window (ht : t.WellFormed) {p : Nat} (hs : s ≤ p) (he : p < e) :
    (t.window s e).itemsAt (p - s) = t.itemsAt p := by
  rw [itemsAt_eq, itemsAt_eq]
  show (t.ranges.filterMap (Range.clip s e)).filterMap _ = _
  rw [List.filterMap_filterMap]
  exact List.filterMap_congr fun r hr => Range.itemAt?_clip hs he (ht r hr).1

/-- A window of a window is a window of the text. -/
theorem window_window (ht : t.WellFormed) {a b : Nat} (hab : a < b) (hb : b ≤ e - s) :
    (t.window s e).window a b = t.window (s + a) (s + b) := by
  have htext : (((t.text.drop s).take (e - s)).drop a).take (b - a)
      = (t.text.drop (s + a)).take (s + b - (s + a)) := by
    rw [List.drop_take, List.drop_drop, List.take_take]
    congr 1
    omega
  have hranges : (t.ranges.filterMap (Range.clip s e)).filterMap (Range.clip a b)
      = t.ranges.filterMap (Range.clip ((s + a : Nat) : Int) ((s + b : Nat) : Int)) := by
    rw [List.filterMap_filterMap]
    exact List.filterMap_congr fun r hr => Range.clip_clip hab hb (ht r hr).1
  rw [window, window, window]
  show AnnotatedText.mk _ _ = _
  rw [htext, hranges]

/-- **A window shows what the text has there, and windows compose**: every window of a
    text can be taken, with all its ranges inside; each of its positions has the items
    that it has in the text, in their order; and a window of it that is not empty is the
    window of the text at the positions together.  An empty window where a window ends is
    left out here: it misses the ranges of the text that cover nothing there. -/
theorem subsequence_of_wellFormed (ht : t.WellFormed) (hse : s ≤ e) (he : e ≤ t.length) :
    ∃ u, t.subsequence s e = .ok u ∧ u.text = (t.text.drop s).take (e - s) ∧ u.WellFormed
      ∧ (∀ p, s ≤ p → p < e → u.itemsAt (p - s) = t.itemsAt p)
      ∧ ∀ a b : Nat, a < b → b ≤ e - s → u.subsequence a b = t.subsequence (s + a) (s + b) := by
  have hwindow := wellFormed_window ht hse he
  refine ⟨t.window s e, subsequence_eq_ok ht hse he, rfl, hwindow, ?_, ?_⟩
  · intro p hs he
    exact itemsAt_window ht hs he
  · intro a b hab hb
    have hinner : b ≤ (t.window s e).length := by
      rw [length_window he]
      exact hb
    have houter := subsequence_eq_ok ht (by omega : s + a ≤ s + b) (by omega : s + b ≤ t.length)
    rw [subsequence_eq_ok hwindow (Nat.le_of_lt hab) hinner, window_window ht hab hb, ← houter,
      Int.natCast_add, Int.natCast_add]

/-- Ranges that touch a window from either side, and ranges that cover nothing at its
    start, inside it and at its end. -/
def touchingRanges : AnnotatedText where
  text := "abcdef".toList
  ranges :=
    [⟨.note .heading "h1", 0, 2⟩, ⟨.note .blockQuote "1", 1, 6⟩, ⟨.note .roomMention "", 2, 2⟩,
     ⟨.note .inlineCode "", 3, 4⟩, ⟨.note .roomMention "", 4, 4⟩, ⟨.note .roomMention "", 5, 5⟩,
     ⟨.note .heading "h2", 5, 6⟩]

/-- Ranges that touch the ends of the window are kept or cut as they cover a character of it. -/
theorem subsequence_of_touchingRanges :
    touchingRanges.WellFormed ∧ 2 ≤ 5 ∧ 5 ≤ touchingRanges.length
      ∧ ∃ u, touchingRanges.subsequence 2 5 = .ok u ∧ u.text = "cde".toList ∧ u.WellFormed
        ∧ u.itemsAt 1 = touchingRanges.itemsAt 3
        ∧ u.subsequence 1 3 = touchingRanges.subsequence 3 5 := by
  have hwell : touchingRanges.WellFormed := by decide
  have hlength : 5 ≤ touchingRanges.length := by decide
  obtain ⟨u, hu, htext, hinside, hitems, hwindows⟩ :=
    subsequence_of_wellFormed hwell (s := 2) (by decide) hlength
  exact ⟨hwell, by decide, hlength, u, hu, htext, hinside, hitems 3 (by decide) (by decide),
    hwindows 1 3 (by decide) (by decide)⟩

end AnnotatedText

end MessageBody
