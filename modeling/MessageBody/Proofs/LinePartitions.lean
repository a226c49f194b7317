import Mathlib.Data.List.Sort
import MessageBody.Proofs.LinePlaces

/-! # Lines that partition a text

    A layout in which every line ends where the next one starts takes a range apart into
    its lines and nothing else: the places of the range are one for each line that holds a
    character of it, and the parts put together are the range.  The block of the range
    has the same first and last line, although it is told in another way: a line that the
    range only touches has no located character there, and the block steps back from
    it. -/

namespace MessageBody.TextLayout

variable {α : Type} {layout : TextLayout α}

/-- The `count` lines of a layout partition its text: `bound` tells where each line starts
    and, of `count`, where the text ends.  Only the last line may be empty.  Every question
    within the text and its lines is answered. -/
structure Partitions (layout : TextLayout α) (count : Nat) (bound : Nat → Int) : Prop where
  count_pos : 0 < count
  bound_zero : bound 0 = 0
  bound_lt : ∀ line, line + 1 < count → bound line < bound (line + 1)
  bound_le : ∀ line, line + 1 = count → bound line ≤ bound count
  /-- A position is on the last line that starts at it or before it. -/
  lineOf : ∀ o, 0 ≤ o → o ≤ bound count → ∃ line < count, layout.lineOf? o = some line
    ∧ bound line ≤ o ∧ ∀ other < count, bound other ≤ o → other ≤ line
  lineStart : ∀ line < count, layout.lineStart? line = some (bound line)
  lineEnd : ∀ line < count, layout.lineEnd? line = some (bound (line + 1))
  box : ∀ o, 0 ≤ o → o < bound count → (layout.box? o).isSome
  direction : ∀ o, 0 ≤ o → o < bound count → (layout.direction? o).isSome
  top : ∀ line < count, (layout.top? line).isSome
  bottom : ∀ line < count, (layout.bottom? line).isSome
  left : ∀ line < count, (layout.left? line).isSome
  right : ∀ line < count, (layout.right? line).isSome

namespace Partitions

variable {count : Nat} {bound : Nat → Int}

/-- Later lines have later bounds. -/
theorem bound_mono (h : layout.Partitions count bound) {line line' : Nat} (hle : line ≤ line')
    (hline' : line' ≤ count) : bound line ≤ bound line' := by
  induction line', hle using Nat.le_induction with
  | base => exact Int.le_refl _
  | succ n _ ih =>
      have hn := ih (by omega)
      by_cases hlast : n + 1 = count
      · have := h.bound_le n hlast
        rw [hlast]
        omega
      · have := h.bound_lt n (by omega)
        omega

/-- A character is on the line whose bounds are around it. -/
theorem lineOf?_eq_some_iff (h : layout.Partitions count bound) {o : Int} (ho : 0 ≤ o)
    (hlt : o < bound count) {line : Nat} :
    layout.lineOf? o = some line ↔ line < count ∧ bound line ≤ o ∧ o < bound (line + 1) := by
  obtain ⟨found, hfound, heq, hle, hmax⟩ := h.lineOf o ho (by omega)
  have hbefore : o < bound (found + 1) := by
    by_cases hlast : found + 1 = count
    · rwa [hlast]
    · by_contra hnot
      have := hmax (found + 1) (by omega) (by omega)
      omega
  rw [heq, Option.some.injEq]
  constructor
  · rintro rfl
    exact ⟨hfound, hle, hbefore⟩
  · rintro ⟨hline, hlow, hhigh⟩
    have hline_le := hmax line hline hlow
    -- a line before the one found ends before it, and so before `o`
    by_contra hne
    have := h.bound_mono (show line + 1 ≤ found by omega) (by omega)
    omega

end Partitions

/-- The lines that hold a character of the range from `start` to `stop`, in increasing
    order. -/
def heldLines (layout : TextLayout α) (count : Nat) (start stop : Int) : List Nat :=
  (List.range count).filter fun line =>
    (offsets start stop).any fun o => layout.lineOf? o == some line

/-! ## Parts of a range -/

/-- The positions of two neighbouring intervals are those of both together. -/
theorem offsets_append {a b c : Int} (hab : a ≤ b) (hbc : b ≤ c) :
    offsets a b ++ offsets b c = offsets a c := by
  have hlength : (c - a).toNat = (b - a).toNat + (c - b).toNat := by omega
  rw [offsets, offsets, offsets, hlength, List.range_add, List.map_append, List.map_map]
  congr 1
  refine List.map_congr_left fun i _ => ?_
  simp only [Function.comp_apply]
  omega

theorem offsets_self (a : Int) : offsets a a = [] := by
  rw [offsets, Int.sub_self]
  rfl

/-- The parts between places in increasing order make up the whole. -/
theorem flatMap_offsets (cut : Nat → Int) (first n : Nat)
    (hcut : ∀ i < n, cut (first + i) ≤ cut (first + i + 1)) :
    cut first ≤ cut (first + n)
      ∧ ((List.range n).map fun i => first + i).flatMap (fun i => offsets (cut i) (cut (i + 1)))
        = offsets (cut first) (cut (first + n)) := by
  -- the lines are counted from `first`, so that the induction can be on their number
  induction n with
  | zero =>
      rw [Nat.add_zero, offsets_self]
      exact ⟨Int.le_refl _, rfl⟩
  | succ n ih =>
      obtain ⟨hmono, hparts⟩ := ih fun i hi => hcut i (by omega)
      have hlast := hcut n (Nat.lt_succ_self n)
      refine ⟨Int.le_trans hmono hlast, ?_⟩
      rw [List.range_succ, List.map_append, List.flatMap_append, hparts]
      simp only [List.map_cons, List.map_nil, List.flatMap_cons, List.flatMap_nil, List.append_nil]
      exact offsets_append hmono hlast

/-- Where the answer for each of several is known in one respect, so are all answers. -/
theorem map_filterMap_eq {β γ δ : Type} {f : β → Option γ} {g : γ → δ} {k : β → δ} {xs : List β}
    (h : ∀ x ∈ xs, ∃ y, f x = some y ∧ g y = k x) : (xs.filterMap f).map g = xs.map k := by
  rw [List.map_filterMap, ← List.filterMap_eq_map]
  refine List.filterMap_congr fun x hx => ?_
  obtain ⟨y, hy, hk⟩ := h x hx
  rw [hy, Option.map_some, hk]
  rfl

/-! ## Lines of a range -/

/-- Lines are listed from the first to the last. -/
theorem lines_pairwise (first last : Nat) : (lines first last).Pairwise (· < ·) := by
  rw [lines, List.pairwise_map]
  exact List.pairwise_lt_range.imp fun h => Nat.add_lt_add_left h first

/-- One line more comes last. -/
theorem lines_succ {first last : Nat} (h : first ≤ last + 1) :
    lines first (last + 1) = lines first last ++ [last + 1] := by
  have hlength : last + 1 + 1 - first = (last + 1 - first) + 1 := by omega
  rw [lines, hlength, List.range_succ, List.map_append, lines]
  simp only [List.map_cons, List.map_nil, List.append_cancel_left_eq, List.cons.injEq, and_true]
  omega

theorem head?_lines {first last : Nat} (h : first ≤ last) :
    (lines first last).head? = some first := by
  have hlength : last + 1 - first = (last - first) + 1 := by omega
  rw [lines, hlength, List.range_succ_eq_map]
  rfl

theorem getLast?_lines {first last : Nat} (h : first ≤ last) :
    (lines first last).getLast? = some last := by
  have hlength : last + 1 - first = (last - first) + 1 := by omega
  rw [lines, hlength, List.range_succ, List.map_append, List.map_cons, List.map_nil,
    List.getLast?_concat, Option.some.injEq]
  omega

/-- The range from `start` to `stop` has its first character on the line `first` and its
    last one on the line `final`. -/
structure Spans (bound : Nat → Int) (start stop : Int) (first final : Nat) : Prop where
  le : first ≤ final
  start_ge : bound first ≤ start
  start_lt : start < bound (first + 1)
  stop_gt : bound final < stop
  stop_le : stop ≤ bound (final + 1)

/-- Where a range goes on on a line: at its start on its first line, and where the line
    starts on the others; after its last line it is at its end. -/
def cut (bound : Nat → Int) (start stop : Int) (first final line : Nat) : Int :=
  if line ≤ first then start else if final < line then stop else bound line

section Cut

variable {bound : Nat → Int} {start stop : Int} {first final line : Nat}

/-- The first part begins where the range does. -/
theorem cut_first : cut bound start stop first final first = start :=
  if_pos (Nat.le_refl first)

/-- The last part ends where the range does. -/
theorem cut_after (hle : first ≤ final) :
    cut bound start stop first final (final + 1) = stop := by
  rw [cut, if_neg (by omega), if_pos (Nat.lt_succ_self final)]

/-- Parts in between are cut at the bounds of the lines. -/
theorem cut_inside (hfirst : first < line) (hfinal : line ≤ final) :
    cut bound start stop first final line = bound line := by
  rw [cut, if_neg (by omega), if_neg (by omega)]

variable (bound start stop)

/-- The first line is cut at the start of the range and the others where they start. -/
theorem cut_cases (h : first ≤ line) (hfinal : line ≤ final) :
    line = first ∧ cut bound start stop first final line = start
      ∨ first < line ∧ cut bound start stop first final line = bound line := by
  rcases Nat.eq_or_lt_of_le h with rfl | hlt
  · exact Or.inl ⟨rfl, cut_first⟩
  · exact Or.inr ⟨hlt, cut_inside hlt hfinal⟩

/-- The last line is cut at the end of the range and the others where the next one starts. -/
theorem cut_succ_cases (h : first ≤ line) (hfinal : line ≤ final) :
    line = final ∧ cut bound start stop first final (line + 1) = stop
      ∨ line < final ∧ cut bound start stop first final (line + 1) = bound (line + 1) := by
  rcases Nat.eq_or_lt_of_le hfinal with rfl | hlt
  · exact Or.inl ⟨rfl, cut_after h⟩
  · exact Or.inr ⟨hlt, cut_inside (Nat.lt_succ_of_le h) hlt⟩

end Cut

namespace Partitions

variable {count : Nat} {bound : Nat → Int} {start stop : Int} {first final line : Nat}

/-- On each of its lines a range has a part that is not empty and does not leave the
    line. -/
theorem part (h : layout.Partitions count bound) (hlt : start < stop)
    (hspans : Spans bound start stop first final) (hcount : final < count) (hfirst : first ≤ line)
    (hfinal : line ≤ final) :
    (start ≤ cut bound start stop first final line
        ∧ bound line ≤ cut bound start stop first final line)
      ∧ cut bound start stop first final line < cut bound start stop first final (line + 1)
      ∧ cut bound start stop first final (line + 1) ≤ stop
      ∧ cut bound start stop first final (line + 1) ≤ bound (line + 1) := by
  obtain ⟨-, hge, hstart, hstop, hle⟩ := hspans
  -- a line is the first one or its bound lies behind the start, and likewise at the other end
  have hlow : line = first ∨ bound (first + 1) ≤ bound line := by
    by_cases heq : line = first
    · exact Or.inl heq
    · exact Or.inr (h.bound_mono (by omega) (by omega))
  have hhigh : line = final ∨ bound (line + 1) ≤ bound final ∧ bound line < bound (line + 1) := by
    by_cases heq : line = final
    · exact Or.inl heq
    · exact Or.inr ⟨h.bound_mono (by omega) (by omega), h.bound_lt line (by omega)⟩
  rcases cut_cases bound start stop hfirst hfinal with
    ⟨rfl, hcut⟩ | ⟨hne, hcut⟩
  · rcases cut_succ_cases bound start stop hfirst hfinal with
      ⟨rfl, hcut'⟩ | ⟨hne', hcut'⟩ <;> rw [hcut, hcut'] <;> omega
  · rcases cut_succ_cases bound start stop hfirst hfinal with
      ⟨rfl, hcut'⟩ | ⟨hne', hcut'⟩ <;> rw [hcut, hcut'] <;> omega

/-- The lines that hold a character of a range are those from the line of its first to
    the line of its last one. -/
theorem heldLines_eq (h : layout.Partitions count bound) (hstart : 0 ≤ start)
    (hlt : start < stop) (hstop : stop ≤ bound count) (hspans : Spans bound start stop first final)
    (hcount : final < count) : layout.heldLines count start stop = lines first final := by
  refine List.Pairwise.eq_of_mem_iff (List.pairwise_lt_range.filter _)
    (lines_pairwise first final) fun line => ?_
  simp only [heldLines, List.mem_filter, List.mem_range, List.any_eq_true, mem_offsets, beq_iff_eq,
    mem_lines]
  constructor
  · rintro ⟨hline, o, ⟨hlow, hhigh⟩, hon⟩
    obtain ⟨-, hge, hlt'⟩ := (h.lineOf?_eq_some_iff (by omega) (by omega)).mp hon
    obtain ⟨hle, hstartGe, -, -, hstopLe⟩ := hspans
    constructor
    · -- a line before the first one ends before the range starts
      by_contra hnot
      have := h.bound_mono (show line + 1 ≤ first by omega) (by omega)
      omega
    · -- a line behind the final one starts where the range has stopped
      by_contra hnot
      have := h.bound_mono (show final + 1 ≤ line by omega) (by omega)
      omega
  · rintro ⟨hfirst, hfinal⟩
    obtain ⟨⟨hge, hlow⟩, hpart, hle, hhigh⟩ := h.part hlt hspans hcount hfirst hfinal
    refine ⟨by omega, _, ⟨hge, by omega⟩, ?_⟩
    exact (h.lineOf?_eq_some_iff (by omega) (by omega)).mpr ⟨by omega, hlow, by omega⟩

/-- A range has its first character on the line of its start, and its last one on the line
    from which a block does not extend further. -/
theorem exists_spans (h : layout.Partitions count bound) (hstart : 0 ≤ start) (hlt : start < stop)
    (hstop : stop ≤ bound count) :
    ∃ first last final, layout.lineOf? start = some first ∧ layout.lineOf? stop = some last
      ∧ layout.lastLine? stop first last = some final ∧ last < count
      ∧ Spans bound start stop first final
      ∧ (final = last ∨ final + 1 = last ∧ bound last = stop) := by
  obtain ⟨first, -, hlineFirst, -, -⟩ := h.lineOf start hstart (by omega)
  obtain ⟨hfirst, hge, hbefore⟩ := (h.lineOf?_eq_some_iff hstart (by omega)).mp hlineFirst
  obtain ⟨last, hlast, hlineLast, hle, hmax⟩ := h.lineOf stop (by omega) hstop
  have hfirstLast : first ≤ last := hmax first hfirst (by omega)
  -- a range that stops where its last line starts has nothing on that line
  by_cases hback : first < last ∧ bound last = stop
  · obtain ⟨hmany, htouch⟩ := hback
    obtain ⟨final, rfl⟩ := Nat.exists_eq_add_one_of_ne_zero (show last ≠ 0 by omega)
    have hbound := h.bound_lt final hlast
    refine ⟨first, final + 1, final, hlineFirst, hlineLast, ?_, hlast,
      ⟨by omega, hge, hbefore, by omega, by omega⟩, Or.inr ⟨rfl, htouch⟩⟩
    rw [lastLine?, if_pos hmany, h.lineStart _ hlast, Option.map_some, if_pos htouch]
    rfl
  · have hafter : stop ≤ bound (last + 1) := by
      by_cases hcount : last + 1 = count
      · rwa [hcount]
      · by_contra hnot
        have := hmax (last + 1) (by omega) (by omega)
        omega
    have hinside : bound last < stop := by
      by_cases hone : first = last
      · subst hone
        omega
      · have : bound last ≠ stop := fun heq => hback ⟨by omega, heq⟩
        omega
    refine ⟨first, last, last, hlineFirst, hlineLast, ?_, hlast,
      ⟨hfirstLast, hge, hbefore, hinside, hafter⟩, Or.inl rfl⟩
    rw [lastLine?]
    split
    · rename_i hmany
      rw [h.lineStart _ hlast, Option.map_some, if_neg fun heq => hback ⟨hmany, heq⟩]
    · rfl

/-- The parts of a range on its lines make up the range. -/
theorem flatMap_parts (h : layout.Partitions count bound) (hlt : start < stop)
    (hspans : Spans bound start stop first final) (hcount : final < count) :
    ((lines first final).flatMap fun line => offsets (cut bound start stop first final line)
        (cut bound start stop first final (line + 1))) = offsets start stop := by
  have hcut := (flatMap_offsets (cut bound start stop first final) first (final + 1 - first)
    fun i hi => Int.le_of_lt (h.part hlt hspans hcount (by omega) (by omega)).2.1).2
  have hsum : first + (final + 1 - first) = final + 1 := by
    have := hspans.le
    omega
  rw [hsum, cut_first, cut_after hspans.le] at hcut
  exact hcut

/-- The answers for several lines have an extremum if every line has an answer. -/
theorem exists_extremum? (pick : α → List α → α) {answer : Nat → Option α} {ls : List Nat}
    (hls : ls ≠ []) (h : ∀ line ∈ ls, (answer line).isSome) :
    ∃ x, extremum? pick answer ls = some x := by
  have hanswers : ∀ ls : List Nat, (∀ line ∈ ls, (answer line).isSome) →
      ∃ xs, ls.mapM answer = some xs ∧ xs.length = ls.length := by
    intro ls hall
    induction ls with
    | nil => exact ⟨[], rfl, rfl⟩
    | cons line ls ih =>
        obtain ⟨hline, hrest⟩ := List.forall_mem_cons.mp hall
        obtain ⟨x, hx⟩ := Option.isSome_iff_exists.mp hline
        obtain ⟨xs, hxs, hlength⟩ := ih hrest
        refine ⟨x :: xs, ?_, congrArg (· + 1) hlength⟩
        rw [List.mapM_cons, hx, hxs]
        rfl
  obtain ⟨xs, hxs, hlength⟩ := hanswers ls h
  cases xs with
  | nil => exact absurd (List.eq_nil_of_length_eq_zero hlength.symm) hls
  | cons x xs =>
      refine ⟨pick x xs, ?_⟩
      rw [extremum?, hxs]

variable [LT α] [DecidableLT α]

/-- A part of the text that is not empty has a place. -/
theorem exists_placeOf? (h : layout.Partitions count bound) {low high : Int} (hlow : 0 ≤ low)
    (hlt : low < high) (hhigh : high ≤ bound count) (line : Nat) :
    ∃ p, layout.placeOf? line low high = some p
      ∧ p.start = low ∧ p.stop = high ∧ p.line? = some line := by
  obtain ⟨box, hbox⟩ := Option.isSome_iff_exists.mp (h.box low hlow (by omega))
  obtain ⟨direction, hdirection⟩ := Option.isSome_iff_exists.mp (h.direction low hlow (by omega))
  have hmem : box ∈ layout.boxes low high := mem_boxes.mpr ⟨low, Int.le_refl low, hlt, hbox⟩
  obtain ⟨first, others, hboxes⟩ := List.exists_cons_of_ne_nil (List.ne_nil_of_mem hmem)
  refine ⟨⟨rowRect first others, low, high, direction, some line⟩, ?_, rfl, rfl, rfl⟩
  exact placeOf?_eq_some_iff.mpr ⟨rfl, rfl, rfl, hdirection, first, others, hboxes, rfl⟩

/-- The part of a range on one of its lines has a place there, with characters of no other
    line. -/
theorem exists_placeOf?_part (h : layout.Partitions count bound) (hstart : 0 ≤ start)
    (hlt : start < stop) (hstop : stop ≤ bound count) (hspans : Spans bound start stop first final)
    (hcount : final < count) (hline : line ∈ lines first final) :
    ∃ p, layout.placeOf? line (cut bound start stop first final line)
          (cut bound start stop first final (line + 1)) = some p
        ∧ p.start = cut bound start stop first final line
        ∧ p.stop = cut bound start stop first final (line + 1) ∧ p.line? = some line
        ∧ p.start < p.stop ∧ ∀ o, p.start ≤ o → o < p.stop → layout.lineOf? o = p.line? := by
  obtain ⟨hfirst, hfinal⟩ := mem_lines.mp hline
  obtain ⟨⟨hge, hlow⟩, hpart, hle, hhigh⟩ := h.part hlt hspans hcount hfirst hfinal
  obtain ⟨p, hp, hpstart, hpstop, hon⟩ := h.exists_placeOf? (by omega) hpart (by omega) line
  refine ⟨p, hp, hpstart, hpstop, hon, by omega, fun o ho ho' => ?_⟩
  rw [hon]
  exact (h.lineOf?_eq_some_iff (by omega) (by omega)).mpr ⟨by omega, by omega, by omega⟩

/-- The place of a range on one of its lines is that of the part on the line. -/
theorem linePosition?_eq_placeOf? (h : layout.Partitions count bound) {last : Nat}
    (hlast : last < count)
    (hend : final = last ∨ final + 1 = last ∧ bound last = stop) (hfirst : first ≤ line)
    (hfinal : line ≤ final) :
    layout.linePosition? start stop first last line
      = layout.placeOf? line (cut bound start stop first final line)
          (cut bound start stop first final (line + 1)) := by
  have hlow : layout.low? start first line = some (cut bound start stop first final line) := by
    rw [low?]
    rcases cut_cases bound start stop hfirst hfinal with ⟨heq, hcut⟩ | ⟨hne, hcut⟩
    · rw [hcut, if_pos heq]
    · rw [hcut, if_neg (by omega), h.lineStart line (by omega)]
  have hhigh : layout.high? stop last line
      = some (cut bound start stop first final (line + 1)) := by
    rw [high?]
    rcases cut_succ_cases bound start stop hfirst hfinal with ⟨heq, hcut⟩ | ⟨hne, hcut⟩
    · rw [hcut]
      rcases hend with rfl | ⟨hnext, htouch⟩
      · rw [if_pos heq]
      · rw [if_neg (by omega), h.lineEnd line (by omega), heq, hnext, htouch]
    · rw [hcut, if_neg (by omega), h.lineEnd line (by omega)]
  rw [linePosition?_eq, hlow, hhigh]
  rfl

/-- The places of a range are those of the lines that hold a character of it: what the
    range only touches has none. -/
theorem linePositions_eq (h : layout.Partitions count bound) {last : Nat}
    (hlineFirst : layout.lineOf? start = some first) (hlineLast : layout.lineOf? stop = some last)
    (hspans : Spans bound start stop first final) (hlast : last < count)
    (hend : final = last ∨ final + 1 = last ∧ bound last = stop) :
    layout.linePositions start stop = (lines first final).filterMap fun line =>
      layout.placeOf? line (cut bound start stop first final line)
        (cut bound start stop first final (line + 1)) := by
  have hplaces : ∀ line ∈ lines first final, layout.linePosition? start stop first last line
      = layout.placeOf? line (cut bound start stop first final line)
          (cut bound start stop first final (line + 1)) := fun line hline =>
    h.linePosition?_eq_placeOf? hlast hend (mem_lines.mp hline).1 (mem_lines.mp hline).2
  rw [linePositions, hlineFirst, hlineLast, ← List.filterMap_congr hplaces]
  rcases hend with rfl | ⟨rfl, htouch⟩
  · rfl
  · -- the range stops where its last line starts, so there is nothing of it on that line
    have hle := hspans.le
    have hnone : layout.linePosition? start stop first (final + 1) (final + 1) = none := by
      rw [linePosition?_eq, low?, if_neg (by omega), h.lineStart _ hlast, high?, if_pos rfl,
        Option.bind_some, Option.bind_some, htouch, placeOf?, boxes, offsets_self]
      rfl
    show (lines first (final + 1)).filterMap _ = _
    rw [lines_succ (by omega), List.filterMap_append, List.filterMap_cons, hnone,
      List.filterMap_nil, List.append_nil]

/-- The block of a range is as high as its lines from `first` to `final`. -/
theorem exists_blockPosition? (h : layout.Partitions count bound) (hstart : 0 ≤ start)
    (hlt : start < stop) (hstop : stop ≤ bound count) {last : Nat}
    (hlineFirst : layout.lineOf? start = some first) (hlineLast : layout.lineOf? stop = some last)
    (hback : layout.lastLine? stop first last = some final)
    (hle : first ≤ final) (hcount : final < count) :
    ∃ block, layout.blockPosition? start stop = some block
      ∧ layout.top? first = some block.rect.top
      ∧ layout.bottom? final = some block.rect.bottom := by
  have hne : lines first final ≠ [] := List.ne_nil_of_mem (mem_lines.mpr ⟨Nat.le_refl first, hle⟩)
  have hlines : ∀ line ∈ lines first final, line < count := fun line hline => by
    have := (mem_lines.mp hline).2
    omega
  obtain ⟨left, hleft⟩ := exists_extremum? Order.least hne fun line hline =>
    h.left line (hlines line hline)
  obtain ⟨right, hright⟩ := exists_extremum? Order.greatest hne fun line hline =>
    h.right line (hlines line hline)
  obtain ⟨top, htop⟩ := Option.isSome_iff_exists.mp (h.top first (by omega))
  obtain ⟨bottom, hbottom⟩ := Option.isSome_iff_exists.mp (h.bottom final hcount)
  obtain ⟨direction, hdirection⟩ := Option.isSome_iff_exists.mp
    (h.direction start hstart (by omega))
  refine ⟨⟨⟨left, top, right, bottom⟩, start, stop, direction, none⟩, ?_, htop, hbottom⟩
  simp only [blockPosition?, hlineFirst, hlineLast, hback, hleft, htop, hright, hbottom, hdirection,
    Option.bind_eq_bind, Option.bind_some]

end Partitions

/-! ## Places and blocks -/

/-- **Lines that partition a text**: a range that is not empty has one place on every line
    that holds a character of it and no others, in the order of the lines.  The parts of
    the range are not empty, each is on the line of its place, and put together they are
    the range.  The block of the range has its top from the first of these lines and its
    bottom from the last one. -/
theorem places_of_partitions [LT α] [DecidableLT α] {layout : TextLayout α} {count : Nat}
    {bound : Nat → Int} (h : layout.Partitions count bound) {start stop : Int} (hstart : 0 ≤ start)
    (hlt : start < stop) (hstop : stop ≤ bound count) :
    let held := layout.heldLines count start stop
    let places := layout.linePositions start stop
    places.map Position.line? = held.map some
      ∧ places.flatMap (fun p => offsets p.start p.stop) = offsets start stop
      ∧ (∀ p ∈ places, p.start < p.stop
        ∧ ∀ o, p.start ≤ o → o < p.stop → layout.lineOf? o = p.line?)
      ∧ ∃ first final block, held.head? = some first ∧ held.getLast? = some final
        ∧ layout.blockPosition? start stop = some block
        ∧ layout.top? first = some block.rect.top
        ∧ layout.bottom? final = some block.rect.bottom := by
  intro held places
  obtain ⟨first, last, final, hlineFirst, hlineLast, hback, hlast, hspans, hend⟩ :=
    h.exists_spans hstart hlt hstop
  have hcount : final < count := by omega
  have hheld : held = lines first final := h.heldLines_eq hstart hlt hstop hspans hcount
  have hplaces : places = (lines first final).filterMap fun line =>
      layout.placeOf? line (cut bound start stop first final line)
        (cut bound start stop first final (line + 1)) :=
    h.linePositions_eq hlineFirst hlineLast hspans hlast hend
  have hplace := fun line (hline : line ∈ lines first final) =>
    h.exists_placeOf?_part hstart hlt hstop hspans hcount hline
  refine ⟨?_, ?_, ?_, first, final, ?_⟩
  · rw [hheld, hplaces]
    refine map_filterMap_eq fun line hline => ?_
    obtain ⟨p, hp, -, -, hon, -⟩ := hplace line hline
    exact ⟨p, hp, hon⟩
  · -- the places hold the parts that the range is cut into, and these follow on one another
    have hparts : places.map (fun p => offsets p.start p.stop)
        = (lines first final).map fun line => offsets (cut bound start stop first final line)
            (cut bound start stop first final (line + 1)) := by
      rw [hplaces]
      refine map_filterMap_eq fun line hline => ?_
      obtain ⟨p, hp, hlow, hhigh, -⟩ := hplace line hline
      exact ⟨p, hp, by rw [hlow, hhigh]⟩
    rw [List.flatMap_def, hparts, ← List.flatMap_def]
    exact h.flatMap_parts hlt hspans hcount
  · intro p hp
    rw [hplaces] at hp
    obtain ⟨line, hline, hp⟩ := List.mem_filterMap.mp hp
    obtain ⟨p', hp', -, -, -, hwithin⟩ := hplace line hline
    cases hp.symm.trans hp'
    exact hwithin
  · obtain ⟨block, hblock, htop, hbottom⟩ := h.exists_blockPosition? hstart hlt hstop hlineFirst
      hlineLast hback hspans.le hcount
    rw [hheld]
    exact ⟨block, head?_lines hspans.le, getLast?_lines hspans.le, hblock, htop, hbottom⟩

/-- Two lines of three characters, each with a line break at its end, and an empty line
    after them. -/
def emptyLastLine : TextLayout Int where
  lineOf? o := if 0 ≤ o ∧ o ≤ 6 then some (o / 3).toNat else none
  lineStart? line := if line < 3 then some (3 * line) else none
  lineEnd? line := if line < 3 then some (min 6 (3 * line + 3)) else none
  box? o :=
    if 0 ≤ o ∧ o < 6 then
      some ⟨10 * (o % 3), 20 * (o / 3), 10 * (o % 3) + 10, 20 * (o / 3) + 20⟩
    else none
  top? line := if line < 3 then some (20 * line) else none
  bottom? line := if line < 3 then some (20 * line + 20) else none
  left? line := if line < 3 then some 0 else none
  right? line := if line < 3 then some 20 else none
  direction? o := if 0 ≤ o ∧ o < 6 then some .leftToRight else none

/-- The lines with an empty one at the end partition the text. -/
theorem emptyLastLine_partitions :
    emptyLastLine.Partitions 3 fun line => min 6 (3 * line) where
  count_pos := by decide
  bound_zero := rfl
  bound_lt line hline := by omega
  bound_le line hline := by omega
  lineOf o ho hle :=
    ⟨(o / 3).toNat, by omega, if_pos ⟨ho, by omega⟩, by omega, fun other _ _ => by omega⟩
  lineStart line hline := (if_pos hline).trans (congrArg some (by omega))
  lineEnd line hline := (if_pos hline).trans (congrArg some (by omega))
  box o ho hlt := Option.isSome_iff_exists.mpr ⟨_, if_pos ⟨ho, by omega⟩⟩
  direction o ho hlt := Option.isSome_iff_exists.mpr ⟨_, if_pos ⟨ho, by omega⟩⟩
  top line hline := Option.isSome_iff_exists.mpr ⟨_, if_pos hline⟩
  bottom line hline := Option.isSome_iff_exists.mpr ⟨_, if_pos hline⟩
  left line hline := Option.isSome_iff_exists.mpr ⟨_, if_pos hline⟩
  right line hline := Option.isSome_iff_exists.mpr ⟨_, if_pos hline⟩

/-- The range stops where the empty line starts, which is not one of its lines. -/
theorem places_of_emptyLastLine :
    emptyLastLine.Partitions 3 (fun line => min 6 (3 * line))
      ∧ (emptyLastLine.linePositions 1 6).map Position.line?
        = (emptyLastLine.heldLines 3 1 6).map some
      ∧ (emptyLastLine.linePositions 1 6).map (fun p => (p.start, p.stop, p.line?))
        = [(1, 3, some 0), (3, 6, some 1)]
      ∧ (emptyLastLine.blockPosition? 1 6).map (fun p => (p.rect.top, p.rect.bottom))
        = some (0, 40) := by
  have hplaces := places_of_partitions emptyLastLine_partitions (show (0 : Int) ≤ 1 by decide)
    (show (1 : Int) < 6 by decide) (by decide)
  exact ⟨emptyLastLine_partitions, hplaces.1, by decide, by decide⟩

end MessageBody.TextLayout
