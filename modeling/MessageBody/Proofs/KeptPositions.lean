import MessageBody.Proofs.Removal

/-! # Moving ranges into the shortened text

    What is taken out of a text moves what is behind it to the left.  The image
    of a position is the number of positions before it that are kept; the
    shortened text shows each kept character at its image, and each range is cut
    into pieces that cover the images of the kept positions it covers.  A range
    that covers nothing moves to the image of its position, unless it lies
    strictly inside what is taken out. -/

namespace MessageBody.Collapse

/-- Position `p` is in none of the ranges that are taken out. -/
def isKept (gone : List Range) (p : Nat) : Bool :=
  !gone.any fun r => r.covers p

/-- How many of the `n` positions from `a` on are kept. -/
def keptFrom (gone : List Range) (a n : Nat) : Nat :=
  (List.range' a n).countP (isKept gone)

/-- Where a position comes to lie: the number of kept positions before it. -/
def image (gone : List Range) (p : Nat) : Nat :=
  keptFrom gone 0 p

/-- The characters of `s`, which begins at position `a`, at kept positions. -/
def keptChars (gone : List Range) (a : Nat) (s : List Char) : List Char :=
  ((s.zipIdx a).filter fun x => isKept gone x.2).map Prod.fst

/-- Position `p` lies strictly inside one of the ranges. -/
def strictlyInside (gone : List Range) (p : Nat) : Bool :=
  gone.any fun r => r.start < p && p < r.stop

/-! ## Kept positions -/

/-- A position is kept if no range that goes covers it. -/
theorem isKept_iff {gone : List Range} {p : Nat} :
    isKept gone p = true ↔ ∀ r ∈ gone, ¬ (r.start ≤ p ∧ p < r.stop) := by
  simp only [isKept, Bool.not_eq_true', List.any_eq_false, Range.covers_iff]

theorem isKept_nil (p : Nat) : isKept [] p = true := rfl

/-- A range that ends in front of a position does not matter for it. -/
theorem isKept_cons_of_stop_le {r : Range} {p : Nat} (h : r.stop ≤ p) (gone : List Range) :
    isKept (r :: gone) p = isKept gone p := by
  have hcover : r.covers p = false := by
    rw [Range.covers_eq_false_iff]
    omega
  simp only [isKept, List.any_cons, hcover, Bool.false_or]

/-- A position before the first range is kept. -/
theorem InOrder.isKept_of_lt {length index p : Nat} {gone : List Range}
    (h : InOrder length index gone) (hp : p < index) : isKept gone p = true := by
  rw [isKept_iff]
  intro r hr
  have := h.le_start r hr
  omega

/-- What lies in front of the first range that goes is kept. -/
theorem InOrder.isKept_of_lt_start {length index p : Nat} {r : Range} {gone : List Range}
    (h : InOrder length index (r :: gone)) (hp : p < r.start) : isKept (r :: gone) p = true := by
  have hfirst : InOrder length r.start (r :: gone) := ⟨Nat.le_refl _, h.2⟩
  exact hfirst.isKept_of_lt hp

/-- A position that a range covers goes with it. -/
theorem not_isKept_of_covers {r : Range} {p : Nat} (hstart : r.start ≤ p) (hstop : p < r.stop)
    (gone : List Range) : isKept (r :: gone) p = false := by
  rw [← Bool.not_eq_true, isKept_iff]
  intro h
  exact h r (List.mem_cons_self ..) ⟨hstart, hstop⟩

/-! ## Counting kept positions -/

/-- The kept positions of two parts add up. -/
theorem keptFrom_add (gone : List Range) (a m n : Nat) :
    keptFrom gone a (m + n) = keptFrom gone a m + keptFrom gone (a + m) n := by
  rw [keptFrom, keptFrom, keptFrom, ← List.countP_append, List.range'_append_1]

/-- Where all positions are kept, each counts. -/
theorem keptFrom_of_all {gone : List Range} {a n : Nat}
    (h : ∀ p, a ≤ p → p < a + n → isKept gone p = true) : keptFrom gone a n = n := by
  have hall : (List.range' a n).countP (isKept gone) = (List.range' a n).length := by
    rw [List.countP_eq_length]
    intro p hp
    rw [List.mem_range'_1] at hp
    exact h p hp.1 hp.2
  rw [keptFrom, hall, List.length_range']

theorem keptFrom_of_none {gone : List Range} {a n : Nat}
    (h : ∀ p, a ≤ p → p < a + n → isKept gone p = false) : keptFrom gone a n = 0 := by
  rw [keptFrom, List.countP_eq_zero]
  intro p hp
  rw [List.mem_range'_1] at hp
  rw [h p hp.1 hp.2]
  exact Bool.false_ne_true

/-- The count depends only on which positions are kept. -/
theorem keptFrom_congr {gone gone' : List Range} {a n : Nat}
    (h : ∀ p, a ≤ p → p < a + n → isKept gone p = isKept gone' p) :
    keptFrom gone a n = keptFrom gone' a n := by
  refine List.countP_congr ?_
  intro p hp
  rw [List.mem_range'_1] at hp
  rw [h p hp.1 hp.2]

/-- Up to the start of the first range all positions are kept. -/
theorem InOrder.keptFrom_before {length index p : Nat} {r : Range} {gone : List Range}
    (h : InOrder length index (r :: gone)) (hp : p ≤ r.start) :
    keptFrom (r :: gone) index (p - index) = p - index := by
  refine keptFrom_of_all fun q _ hq => h.isKept_of_lt_start ?_
  have := h.1
  omega

/-- Behind the first range, the kept positions are those before it and those
    behind it. -/
theorem InOrder.keptFrom_behind {length index p : Nat} {r : Range} {gone : List Range}
    (h : InOrder length index (r :: gone)) (hp : r.stop ≤ p) :
    keptFrom (r :: gone) index (p - index)
      = (r.start - index) + keptFrom gone r.stop (p - r.stop) := by
  obtain ⟨hstart, hstop, -⟩ := id h
  -- the positions in front of `p` lie before the range, in it or behind it
  have hsplit : p - index = (r.start - index) + ((r.stop - r.start) + (p - r.stop)) := by omega
  have hin : keptFrom (r :: gone) r.start (r.stop - r.start) = 0 := by
    refine keptFrom_of_none fun q hq hq' => not_isKept_of_covers hq ?_ gone
    omega
  have hbehind : keptFrom (r :: gone) r.stop (p - r.stop) = keptFrom gone r.stop (p - r.stop) :=
    keptFrom_congr fun q hq _ => isKept_cons_of_stop_le hq gone
  calc keptFrom (r :: gone) index (p - index)
      = keptFrom (r :: gone) index (r.start - index)
        + (keptFrom (r :: gone) r.start (r.stop - r.start)
          + keptFrom (r :: gone) r.stop (p - r.stop)) := by
        rw [hsplit, keptFrom_add, keptFrom_add, show index + (r.start - index) = r.start by omega,
          show r.start + (r.stop - r.start) = r.stop by omega]
    _ = (r.start - index) + keptFrom gone r.stop (p - r.stop) := by
        rw [h.keptFrom_before (Nat.le_refl _), hin, hbehind, Nat.zero_add]

/-! ## The text of the windows -/

/-- The kept characters of two parts come one after the other. -/
theorem keptChars_append (gone : List Range) (a : Nat) (s t : List Char) :
    keptChars gone a (s ++ t) = keptChars gone a s ++ keptChars gone (a + s.length) t := by
  rw [keptChars, List.zipIdx_append, List.filter_append, List.map_append]
  rfl

/-- Where all positions are kept, so are the characters. -/
theorem keptChars_of_all {gone : List Range} {a : Nat} {s : List Char}
    (h : ∀ p, a ≤ p → p < a + s.length → isKept gone p = true) : keptChars gone a s = s := by
  have hall : (s.zipIdx a).filter (fun x => isKept gone x.2) = s.zipIdx a := by
    rw [List.filter_eq_self]
    intro x hx
    exact h x.2 (List.le_snd_of_mem_zipIdx hx) (List.snd_lt_add_of_mem_zipIdx hx)
  rw [keptChars, hall, List.zipIdx_map_fst]

theorem keptChars_of_none {gone : List Range} {a : Nat} {s : List Char}
    (h : ∀ p, a ≤ p → p < a + s.length → isKept gone p = false) : keptChars gone a s = [] := by
  have hnone : (s.zipIdx a).filter (fun x => isKept gone x.2) = [] := by
    rw [List.filter_eq_nil_iff]
    intro x hx
    rw [h x.2 (List.le_snd_of_mem_zipIdx hx) (List.snd_lt_add_of_mem_zipIdx hx)]
    exact Bool.false_ne_true
  rw [keptChars, hnone, List.map_nil]

/-- The kept characters depend only on which positions are kept. -/
theorem keptChars_congr {gone gone' : List Range} {a : Nat} {s : List Char}
    (h : ∀ p, a ≤ p → isKept gone p = isKept gone' p) :
    keptChars gone a s = keptChars gone' a s := by
  have heq : (s.zipIdx a).filter (fun x => isKept gone x.2)
      = (s.zipIdx a).filter (fun x => isKept gone' x.2) :=
    List.filter_congr fun x hx => h x.2 (List.le_snd_of_mem_zipIdx hx)
  rw [keptChars, heq, keptChars]

/-- The windows between the ranges that are taken out show the kept
    characters. -/
theorem slices_between {s : List Char} {gone : List Range} {index : Nat}
    (h : InOrder s.length index gone) :
    slices s (between s.length index gone) = keptChars gone index (s.drop index) := by
  induction gone generalizing index with
  | nil =>
      rw [keptChars_of_all fun _ _ _ => isKept_nil _]
      simp [slices, between, Window.slice, Window.length, List.take_of_length_le]
  | cons r gone ih =>
      obtain ⟨hstart, hstop, hrest⟩ := id h
      have hlength := hrest.index_le
      have hdrop : ∀ {m n : Nat}, m ≤ n → s.drop n = (s.drop m).drop (n - m) := by
        intro m n hle
        rw [List.drop_drop, Nat.add_sub_cancel' hle]
      -- the text from `index` on: what is shown, what is taken out, and the rest
      have hsplit : s.drop index = (s.drop index).take (r.start - index)
          ++ ((s.drop r.start).take (r.stop - r.start) ++ s.drop r.stop) := by
        rw [hdrop hstop, List.take_append_drop, hdrop hstart, List.take_append_drop]
      have hshown : ((s.drop index).take (r.start - index)).length = r.start - index := by
        rw [List.length_take, List.length_drop]
        omega
      have hgone : ((s.drop r.start).take (r.stop - r.start)).length = r.stop - r.start := by
        rw [List.length_take, List.length_drop]
        omega
      rw [between, slices, List.flatMap_cons, hsplit, keptChars_append, keptChars_append, hshown,
        hgone, show index + (r.start - index) = r.start by omega,
        show r.start + (r.stop - r.start) = r.stop by omega]
      have hall : keptChars (r :: gone) index ((s.drop index).take (r.start - index))
          = (s.drop index).take (r.start - index) := by
        refine keptChars_of_all fun p _ hp => h.isKept_of_lt_start ?_
        omega
      have hnone : keptChars (r :: gone) r.start ((s.drop r.start).take (r.stop - r.start)) = [] := by
        refine keptChars_of_none fun p hp hp' => not_isKept_of_covers hp ?_ gone
        omega
      have hbehind : keptChars (r :: gone) r.stop (s.drop r.stop)
          = keptChars gone r.stop (s.drop r.stop) :=
        keptChars_congr fun p hp => isKept_cons_of_stop_le hp gone
      rw [hall, hnone, hbehind, ← ih hrest]
      rfl

/-- There are as many kept characters as kept positions. -/
theorem length_keptChars (gone : List Range) (a : Nat) (s : List Char) :
    (keptChars gone a s).length = keptFrom gone a s.length := by
  rw [keptChars, List.length_map, ← List.countP_eq_length_filter, keptFrom,
    ← List.zipIdx_map_snd a s, List.countP_map]
  rfl

/-- A kept character stands at the number of kept positions before it. -/
theorem keptChars_getElem? {gone : List Range} {a p : Nat} {s : List Char} (hp : p < s.length)
    (h : isKept gone (a + p) = true) : (keptChars gone a s)[keptFrom gone a p]? = s[p]? := by
  -- what is before the character, the character, and what is behind it
  have hsplit : s = s.take p ++ ([s[p]] ++ s.drop (p + 1)) := by
    rw [List.singleton_append, List.getElem_cons_drop, List.take_append_drop]
  have hlength : (s.take p).length = p := by
    rw [List.length_take]
    omega
  have hchar : keptChars gone (a + p) [s[p]] = [s[p]] := by
    refine keptChars_of_all fun q hq hq' => ?_
    rw [List.length_singleton] at hq'
    rw [show q = a + p by omega]
    exact h
  have hbefore : (keptChars gone a (s.take p)).length = keptFrom gone a p := by
    rw [length_keptChars, hlength]
  calc (keptChars gone a s)[keptFrom gone a p]?
      = (keptChars gone a (s.take p) ++ ([s[p]]
          ++ keptChars gone (a + p + 1) (s.drop (p + 1))))[keptFrom gone a p]? := by
        conv_lhs => rw [hsplit]
        rw [keptChars_append, keptChars_append, hlength, hchar, List.length_singleton]
    _ = s[p]? := by
        rw [List.getElem?_append_right (Nat.le_of_eq hbefore), hbefore, Nat.sub_self,
          List.singleton_append, List.getElem?_cons_zero, List.getElem?_eq_getElem hp]

end MessageBody.Collapse
