import Mathlib.Data.List.Basic
import MessageBody.Annotated.Builder

/-! # Texts that are built step by step

    A builder is given texts and annotated texts, ranges are opened and closed inside
    one another, and annotations are added over the text so far.  `composed` tells what
    such edits make up without a builder: a range stands where it was opened and reaches
    to where an edit further on closes it, which `closedAt?` finds by counting.  The
    builder has the open ranges among the others instead.  What its slots come to once
    the edits ahead have closed them (`settled`) is changed by no edit but for the ranges
    that the edit brings, and from this its ranges after a run follow by induction.  The
    length, the last character and the ends of paragraphs, which it keeps beside the
    text, agree with the text and the slots at any time (`Consistent`). -/

namespace MessageBody

/-- Whether a range is still open. -/
def Slot.isPending : Slot → Bool
  | .done _ => false
  | .pending _ _ => true

/-- A slot has its range, as far as it is known, within `length` characters. -/
def Slot.Within (length : Nat) : Slot → Prop
  | .done r => r.start ≤ r.stop ∧ r.stop ≤ length
  | .pending _ start => start ≤ length

/-- A slot that lies in a text lies in a longer one. -/
theorem Slot.Within.mono {m n : Nat} {slot : Slot} (hslot : slot.Within m) (h : m ≤ n) :
    slot.Within n := by
  cases slot with
  | done r => exact ⟨hslot.1, Nat.le_trans hslot.2 h⟩
  | pending item start => exact Nat.le_trans hslot h

namespace Builder

/-- What can be done to a builder. -/
inductive Edit where
  /-- A text is appended. -/
  | text (s : List Char)
  /-- An annotated text is appended. -/
  | annotated (t : AnnotatedText)
  /-- A range is opened. -/
  | opening (item : Item)
  /-- The range that was opened last is closed. -/
  | closing
  /-- An annotation is added. -/
  | note (tag : Tag) (payload : String) (start stop : Int)

/-- The builder after an edit, nothing if the edit is refused. -/
def after? (b : Builder) : Edit → Option Builder
  | .text s => some (b.appendText s)
  | .annotated t => some (b.append t)
  | .opening item => some (b.start item)
  | .closing => b.finish?
  | .note tag payload start stop =>
      (Range.make (.note tag payload) start stop).toOption.map b.addRange

/-- The builder after edits, nothing if one of them is refused. -/
def run? (b : Builder) (edits : List Edit) : Option Builder :=
  edits.foldlM after? b

/-! ## What edits make up -/

namespace Edit

/-- The characters that an edit appends. -/
def appended : Edit → List Char
  | .text s => s
  | .annotated t => t.text
  | .opening _ | .closing | .note .. => []

/-- How many ranges are open after an edit, of `depth` before it. -/
def depthAfter (depth : Nat) : Edit → Nat
  | .opening _ => depth + 1
  | .closing => depth - 1
  | .text _ | .annotated _ | .note .. => depth

/-- Whether an edit can be made behind `position` characters with `depth` ranges open:
    a range is closed only if one is open, and ranges are brought only within their
    text. -/
def Fits (position depth : Nat) : Edit → Prop
  | .annotated t => t.WellFormed
  | .closing => 0 < depth
  | .note _ _ start stop => 0 ≤ start ∧ start ≤ stop ∧ stop ≤ position
  | .text _ | .opening _ => True

instance (position depth : Nat) : (edit : Edit) → Decidable (edit.Fits position depth)
  | .annotated t => inferInstanceAs (Decidable t.WellFormed)
  | .closing => inferInstanceAs (Decidable (0 < depth))
  | .note _ _ start stop => inferInstanceAs (Decidable (0 ≤ start ∧ start ≤ stop ∧ stop ≤ position))
  | .text _ | .opening _ => isTrue trivial

end Edit

/-- Every edit can be made where it is made. -/
def AllFit (position depth : Nat) : List Edit → Prop
  | [] => True
  | edit :: edits =>
      edit.Fits position depth
        ∧ AllFit (position + edit.appended.length) (edit.depthAfter depth) edits

instance decidableAllFit (position depth : Nat) :
    (edits : List Edit) → Decidable (AllFit position depth edits)
  | [] => isTrue trivial
  | edit :: edits =>
      have := decidableAllFit (position + edit.appended.length) (edit.depthAfter depth) edits
      inferInstanceAs (Decidable (_ ∧ _))

/-- Where edits behind `position` characters close the range with `inner` open ranges
    inside, if they do. -/
def closedAt? (position inner : Nat) : List Edit → Option Nat
  | [] => none
  | edit :: edits =>
      match edit, inner with
      | .closing, 0 => some position
      | _, _ => closedAt? (position + edit.appended.length) (edit.depthAfter inner) edits

/-- The ranges that an edit brings behind `position` characters.  A range that is opened
    is brought only if the edits ahead close it. -/
def Edit.ranges (position : Nat) (ahead : List Edit) : Edit → List Range
  | .annotated t => t.ranges.map (Range.shift position)
  | .opening item => ((closedAt? position 0 ahead).map fun stop => ⟨item, position, stop⟩).toList
  | .note tag payload start stop => [⟨.note tag payload, start.toNat, stop.toNat⟩]
  | .text _ | .closing => []

/-- The ranges that edits bring behind `position` characters, in the order in which they
    are opened, appended or added. -/
def rangesFrom (position : Nat) : List Edit → List Range
  | [] => []
  | edit :: edits =>
      edit.ranges position edits ++ rangesFrom (position + edit.appended.length) edits

/-- The annotated text that edits make up. -/
def composed (edits : List Edit) : AnnotatedText :=
  ⟨edits.flatMap Edit.appended, rangesFrom 0 edits⟩

/-! ## What the operations do -/

variable {b : Builder}

theorem slots_addRange (b : Builder) (r : Range) :
    (b.addRange r).slots = .done r :: b.slots := rfl

theorem appendText_nil (b : Builder) : b.appendText [] = b := rfl

/-- Characters are kept as a chunk with their number and the last of them. -/
theorem appendText_of_ne_nil (b : Builder) {s : List Char} (hs : s ≠ []) :
    b.appendText s
      = { b with chunks := s :: b.chunks, length := b.length + s.length, last := s.getLast? } := by
  rw [appendText, if_neg (mt List.isEmpty_iff.mp hs)]

/-- Appended characters stand at the end of the text. -/
theorem text_appendText (b : Builder) (s : List Char) :
    (b.appendText s).text = b.text ++ s := by
  by_cases hs : s = []
  · rw [hs, appendText_nil, List.append_nil]
  · rw [appendText_of_ne_nil b hs, text, text, List.reverse_cons, List.flatten_append,
      List.flatten_singleton]

/-- The length that is kept beside the text counts the characters. -/
theorem length_appendText (b : Builder) (s : List Char) :
    (b.appendText s).length = b.length + s.length := by
  by_cases hs : s = []
  · rw [hs, appendText_nil, List.length_nil, Nat.add_zero]
  · rw [appendText_of_ne_nil b hs]

/-- Characters bring no ranges. -/
theorem slots_appendText (b : Builder) (s : List Char) :
    (b.appendText s).slots = b.slots := by
  by_cases hs : s = []
  · rw [hs, appendText_nil]
  · rw [appendText_of_ne_nil b hs]

/-- Characters end no paragraph. -/
theorem paragraphEnds_appendText (b : Builder) (s : List Char) :
    (b.appendText s).paragraphEnds = b.paragraphEnds := by
  by_cases hs : s = []
  · rw [hs, appendText_nil]
  · rw [appendText_of_ne_nil b hs]

/-- Characters and ranges can be added in any order. -/
theorem appendText_addRange (b : Builder) (r : Range) (s : List Char) :
    (b.addRange r).appendText s = (b.appendText s).addRange r := by
  by_cases hs : s = []
  · rw [hs, appendText_nil, appendText_nil]
  · rw [appendText_of_ne_nil _ hs, appendText_of_ne_nil _ hs]
    rfl

/-- The builder with ranges added one after the other. -/
def addRanges (b : Builder) (rs : List Range) : Builder :=
  rs.foldl addRange b

/-- The ranges of an annotated text can as well be added behind its characters. -/
theorem append_eq (b : Builder) (t : AnnotatedText) :
    b.append t = (b.appendText t.text).addRanges (t.ranges.map (Range.shift b.length)) := by
  rw [append, addRanges, List.foldl_map]
  generalize b.length = n
  induction t.ranges generalizing b with
  | nil => rfl
  | cons r rs ih =>
      rw [List.foldl_cons, List.foldl_cons, ih, appendText_addRange]

/-- Ranges bring no characters. -/
theorem text_addRanges (b : Builder) (rs : List Range) :
    (b.addRanges rs).text = b.text := by
  induction rs generalizing b with
  | nil => rfl
  | cons r rs ih => exact ih (b.addRange r)

/-- Ranges that are added stand behind those that are there. -/
theorem slots_addRanges (b : Builder) (rs : List Range) :
    (b.addRanges rs).slots = (rs.map Slot.done).reverse ++ b.slots := by
  induction rs generalizing b with
  | nil => rfl
  | cons r rs ih =>
      show ((b.addRange r).addRanges rs).slots = _
      rw [ih, slots_addRange, List.map_cons, List.reverse_cons, List.append_assoc]
      rfl

/-- The ranges of an annotated text come behind those that are there, at its place. -/
theorem slots_append (b : Builder) (t : AnnotatedText) :
    (b.append t).slots
      = ((t.ranges.map (Range.shift b.length)).map Slot.done).reverse ++ b.slots := by
  rw [append_eq, slots_addRanges, slots_appendText]

/-- Closing passes over the ranges that are complete. -/
theorem closeSlot?_done (stop : Nat) (rs : List Range) (item : Item) (start : Nat)
    (slots : List Slot) :
    closeSlot? stop (rs.map .done ++ .pending item start :: slots)
      = some (item, rs.map .done ++ .done ⟨item, start, stop⟩ :: slots) := by
  induction rs with
  | nil => rfl
  | cons r rs ih =>
      rw [List.map_cons, List.cons_append, closeSlot?, ih]
      rfl

/-- Where a range is open, the last opened one can be closed; behind it are only ranges
    that are complete. -/
theorem exists_closeSlot? (stop : Nat) {slots : List Slot} (h : 0 < slots.countP Slot.isPending) :
    ∃ (rs : List Range) (item : Item) (start : Nat) (earlier : List Slot),
      slots = rs.map .done ++ .pending item start :: earlier
      ∧ closeSlot? stop slots
        = some (item, rs.map .done ++ .done ⟨item, start, stop⟩ :: earlier) := by
  induction slots with
  | nil => exact absurd h (Nat.lt_irrefl 0)
  | cons slot slots ih =>
      cases slot with
      | done r =>
          -- a complete range is passed over on the way to the last open one
          obtain ⟨rs, item, start, earlier, hslots, -⟩ := ih h
          have hslots' := congrArg (Slot.done r :: ·) hslots
          refine ⟨r :: rs, item, start, earlier, hslots', ?_⟩
          rw [hslots', ← List.cons_append, ← List.map_cons, closeSlot?_done]
      | pending item start => exact ⟨[], item, start, slots, rfl, rfl⟩

/-! ## Agreement of the parts -/

/-- How many ranges are open. -/
def depth (b : Builder) : Nat :=
  b.slots.countP Slot.isPending

/-- What is kept beside the text and the slots agrees with them. -/
structure Consistent (b : Builder) : Prop where
  length : b.length = b.text.length
  last : b.last = b.text.getLast?
  within : ∀ slot ∈ b.slots, slot.Within b.length
  ends : ∀ p, p ∈ b.paragraphEnds
    ↔ ∃ r, Slot.done r ∈ b.slots ∧ r.item.isParagraph = true ∧ r.stop = p

/-- Nothing is kept of an empty text. -/
theorem consistent_empty : Consistent empty where
  length := rfl
  last := rfl
  within := fun _ h => nomatch h
  ends := fun _ => ⟨nofun, fun ⟨_, h, _⟩ => nomatch h⟩

/-- The ranges so far are those of the complete slots. -/
theorem mem_ranges {r : Range} : r ∈ b.ranges ↔ Slot.done r ∈ b.slots := by
  simp only [ranges, List.mem_filterMap, List.mem_reverse]
  constructor
  · rintro ⟨slot, hslot, hr⟩
    cases slot with
    | done r' => exact Option.some.inj hr ▸ hslot
    | pending item start => exact nomatch hr
  · intro h
    exact ⟨.done r, h, rfl⟩

/-- The ends of paragraphs are kept right when a range is completed. -/
theorem mem_paragraphEnds_iff {slots slots' : List Slot} {ends : List Nat} {r : Range}
    (hends : ∀ p, p ∈ ends
      ↔ ∃ r, Slot.done r ∈ slots ∧ r.item.isParagraph = true ∧ r.stop = p)
    (hslots : ∀ r', Slot.done r' ∈ slots' ↔ r' = r ∨ Slot.done r' ∈ slots) (p : Nat) :
    p ∈ (if r.item.isParagraph then r.stop :: ends else ends)
      ↔ ∃ r, Slot.done r ∈ slots' ∧ r.item.isParagraph = true ∧ r.stop = p := by
  simp only [hslots, or_and_right, exists_or, exists_eq_left, ← hends]
  by_cases hparagraph : r.item.isParagraph = true
  · simp [hparagraph, eq_comm]
  · simp [hparagraph]

namespace Consistent

/-- Appending characters keeps the parts in agreement. -/
theorem appendText (h : Consistent b) (s : List Char) : Consistent (b.appendText s) where
  length := by rw [length_appendText, text_appendText, List.length_append, h.length]
  last := by
    by_cases hs : s = []
    · rw [hs, appendText_nil, h.last]
    · rw [text_appendText, List.getLast?_append_of_ne_nil _ hs, appendText_of_ne_nil b hs]
  within := by
    intro slot hslot
    rw [slots_appendText] at hslot
    rw [length_appendText]
    exact (h.within slot hslot).mono (Nat.le_add_right ..)
  ends := by
    rw [paragraphEnds_appendText, slots_appendText]
    exact h.ends

/-- Adding a range within the text keeps the parts in agreement. -/
theorem addRange (h : Consistent b) {r : Range} (hr : r.start ≤ r.stop ∧ r.stop ≤ b.length) :
    Consistent (b.addRange r) where
  length := h.length
  last := h.last
  within := List.forall_mem_cons.mpr ⟨hr, h.within⟩
  ends := mem_paragraphEnds_iff h.ends fun r' => by
    rw [slots_addRange, List.mem_cons, Slot.done.injEq]

theorem addRanges (h : Consistent b) {rs : List Range}
    (hrs : ∀ r ∈ rs, r.start ≤ r.stop ∧ r.stop ≤ b.length) : Consistent (b.addRanges rs) := by
  induction rs generalizing b with
  | nil => exact h
  | cons r rs ih =>
      obtain ⟨hr, hrest⟩ := List.forall_mem_cons.mp hrs
      exact ih (h.addRange hr) hrest

/-- Opening a range at the end of the text keeps the parts in agreement. -/
theorem start (h : Consistent b) (item : Item) : Consistent (b.start item) where
  length := h.length
  last := h.last
  within := List.forall_mem_cons.mpr ⟨Nat.le_refl b.length, h.within⟩
  ends := by
    intro p
    rw [show (b.start item).slots = .pending item b.length :: b.slots from rfl]
    simp only [List.mem_cons, reduceCtorEq, false_or]
    exact h.ends p

/-- Closing the last opened range completes it where the text ends. -/
theorem finish? (h : Consistent b) (hdepth : 0 < b.depth) :
    ∃ (rs : List Range) (item : Item) (start : Nat) (earlier : List Slot) (b' : Builder),
      b.slots = rs.map .done ++ .pending item start :: earlier
      ∧ b.finish? = some b' ∧ b'.slots = rs.map .done ++ .done ⟨item, start, b.length⟩ :: earlier
      ∧ b'.text = b.text ∧ Consistent b' := by
  obtain ⟨rs, item, start, earlier, hslots, hclose⟩ := exists_closeSlot? b.length hdepth
  have hstart : start ≤ b.length :=
    h.within (.pending item start) (hslots ▸ List.mem_append_right _ List.mem_cons_self)
  have hfinish : b.finish? = some
      { b with
        slots := rs.map .done ++ .done ⟨item, start, b.length⟩ :: earlier
        paragraphEnds :=
          if item.isParagraph then b.length :: b.paragraphEnds else b.paragraphEnds } := by
    rw [Builder.finish?, hclose]
    rfl
  refine ⟨rs, item, start, earlier, _, hslots, hfinish, rfl, rfl, h.length, h.last, ?_, ?_⟩
  · intro slot hslot
    rcases List.mem_append.mp hslot with hlater | hslot
    · exact h.within slot (hslots ▸ List.mem_append_left _ hlater)
    · rcases List.mem_cons.mp hslot with rfl | hearlier
      · exact ⟨hstart, Nat.le_refl b.length⟩
      · exact h.within slot (hslots ▸ List.mem_append_right _ (List.mem_cons_of_mem _ hearlier))
  · -- paragraphs end where they did before, and perhaps where this range was closed
    refine mem_paragraphEnds_iff (r := ⟨item, start, b.length⟩) h.ends fun r' => ?_
    rw [hslots, List.mem_append, List.mem_append, List.mem_cons, List.mem_cons, Slot.done.injEq]
    simp only [reduceCtorEq, false_or]
    exact or_left_comm

end Consistent

/-! ## Runs -/

/-- The ranges of slots, the last one first, where `stop? inner` is the end of the open
    range that has `inner` open ranges inside. -/
def settled (stop? : Nat → Option Nat) : List Slot → List Range
  | [] => []
  | .done r :: slots => r :: settled stop? slots
  | .pending item start :: slots =>
      ((stop? 0).map fun stop => ⟨item, start, stop⟩).toList
        ++ settled (fun inner => stop? (inner + 1)) slots

/-- Ranges that are complete do not depend on the edits ahead. -/
theorem settled_done (stop? : Nat → Option Nat) (rs : List Range) (slots : List Slot) :
    settled stop? (rs.map .done ++ slots) = rs ++ settled stop? slots := by
  induction rs with
  | nil => rfl
  | cons r rs ih => exact congrArg (r :: ·) ih

/-- Ranges that are never closed are left out. -/
theorem settled_none (slots : List Slot) :
    settled (fun _ => none) slots = slots.filterMap Slot.range? := by
  induction slots with
  | nil => rfl
  | cons slot slots ih =>
      cases slot with
      | done r => exact congrArg (r :: ·) ih
      | pending item start => exact ih

/-- The ranges of a builder, once the edits ahead have closed those that they close. -/
def rangesBefore (b : Builder) (ahead : List Edit) : List Range :=
  (settled (fun inner => closedAt? b.length inner ahead) b.slots).reverse

/-- With no edits ahead, the ranges are those that are complete. -/
theorem rangesBefore_nil (b : Builder) : b.rangesBefore [] = b.ranges := by
  show (settled (fun _ => none) b.slots).reverse = _
  rw [settled_none, ranges, List.filterMap_reverse]

/-- A range that is added comes last, whatever is ahead. -/
theorem rangesBefore_addRange (b : Builder) (r : Range) (ahead : List Edit) :
    (b.addRange r).rangesBefore ahead = b.rangesBefore ahead ++ [r] :=
  List.reverse_cons

theorem rangesBefore_addRanges (b : Builder) (rs : List Range) (ahead : List Edit) :
    (b.addRanges rs).rangesBefore ahead = b.rangesBefore ahead ++ rs := by
  induction rs generalizing b with
  | nil => exact (List.append_nil _).symm
  | cons r rs ih =>
      show ((b.addRange r).addRanges rs).rangesBefore ahead = _
      rw [ih, rangesBefore_addRange, List.append_assoc]
      rfl

theorem depth_addRanges (b : Builder) (rs : List Range) : (b.addRanges rs).depth = b.depth := by
  induction rs generalizing b with
  | nil => rfl
  | cons r rs ih => exact ih (b.addRange r)

/-- Characters do not change how many ranges are open. -/
theorem depth_appendText (b : Builder) (s : List Char) : (b.appendText s).depth = b.depth := by
  rw [depth, slots_appendText]
  rfl

/-- What an edit does to a builder, seen from the edits ahead. -/
structure Step (b : Builder) (edit : Edit) (b' : Builder) : Prop where
  consistent : Consistent b'
  text : b'.text = b.text ++ edit.appended
  depth : b'.depth = edit.depthAfter b.depth
  ranges : ∀ ahead, b'.rangesBefore ahead
    = b.rangesBefore (edit :: ahead) ++ edit.ranges b.length ahead

/-- An edit makes the text longer by what it appends. -/
theorem Step.length {edit : Edit} {b' : Builder} (h : Step b edit b') (hb : Consistent b) :
    b'.length = b.length + edit.appended.length := by
  rw [h.consistent.length, h.text, List.length_append, hb.length]

/-- Appended characters bring no ranges and close none. -/
theorem step_text (hb : Consistent b) (s : List Char) : Step b (.text s) (b.appendText s) where
  consistent := hb.appendText s
  text := text_appendText b s
  depth := depth_appendText b s
  ranges := by
    intro ahead
    rw [rangesBefore, slots_appendText, length_appendText]
    exact (List.append_nil _).symm

/-- An annotated text brings its ranges, moved to where the text stands. -/
theorem step_annotated (hb : Consistent b) {t : AnnotatedText} (ht : t.WellFormed) :
    Step b (.annotated t) (b.append t) := by
  -- the ranges come along with the text, so they lie in what it becomes
  have hbounds : ∀ r ∈ t.ranges.map (Range.shift b.length),
      r.start ≤ r.stop ∧ r.stop ≤ (b.appendText t.text).length := by
    intro r hr
    obtain ⟨r₀, hr₀, rfl⟩ := List.mem_map.mp hr
    obtain ⟨hstart, hstop⟩ := ht r₀ hr₀
    rw [length_appendText]
    exact ⟨Nat.add_le_add_left hstart _, Nat.add_le_add_left hstop _⟩
  have hstep := step_text hb t.text
  rw [append_eq]
  refine ⟨hstep.consistent.addRanges hbounds, ?_, ?_, ?_⟩
  · rw [text_addRanges, hstep.text]
    rfl
  · rw [depth_addRanges, hstep.depth]
    rfl
  · intro ahead
    rw [rangesBefore_addRanges, hstep.ranges]
    show b.rangesBefore (.text t.text :: ahead) ++ [] ++ _ = _
    rw [List.append_nil]
    rfl

/-- An opened range is the last one; it comes to nothing if it is not closed. -/
theorem step_opening (hb : Consistent b) (item : Item) :
    Step b (.opening item) (b.start item) where
  consistent := hb.start item
  text := (List.append_nil _).symm
  depth := List.countP_cons_of_pos rfl
  ranges := by
    intro ahead
    show (((closedAt? b.length 0 ahead).map fun stop => (⟨item, b.length, stop⟩ : Range)).toList
      ++ settled (fun inner => closedAt? b.length (inner + 1) ahead) b.slots).reverse
      = (settled (fun inner => closedAt? b.length (inner + 1) ahead) b.slots).reverse
        ++ ((closedAt? b.length 0 ahead).map fun stop => (⟨item, b.length, stop⟩ : Range)).toList
    rw [List.reverse_append]
    -- the opened range is one range or none, so it is not reversed
    cases closedAt? b.length 0 ahead <;> rfl

/-- Closing takes the last opened range; those that are open around it have one open range
    less inside. -/
theorem step_closing (hb : Consistent b) (hdepth : 0 < b.depth) :
    ∃ b', b.finish? = some b' ∧ Step b .closing b' := by
  obtain ⟨rs, item, start, earlier, b', hslots, hfinish, hslots', htext, hb'⟩ :=
    hb.finish? hdepth
  have hlength : b'.length = b.length := by
    rw [hb'.length, htext, hb.length]
  refine ⟨b', hfinish, hb', htext.trans (List.append_nil _).symm, ?_, ?_⟩
  · show b'.depth = b.depth - 1
    have hopen : Slot.isPending (.pending item start) = true := rfl
    have hclosed : ¬ Slot.isPending (.done ⟨item, start, b.length⟩) = true := Bool.false_ne_true
    rw [depth, depth, hslots, hslots', List.countP_append, List.countP_append,
      List.countP_cons_of_neg hclosed, List.countP_cons_of_pos hopen]
    rfl
  · intro ahead
    show _ = _ ++ []
    -- the edits ahead, with the closing in front, close the range here
    rw [List.append_nil, rangesBefore, rangesBefore, hslots, hslots', settled_done, settled_done,
      hlength]
    rfl

/-- An annotation is added at once if it lies in the text so far. -/
theorem step_note (hb : Consistent b) {tag : Tag} {payload : String} {start stop : Int}
    (hbounds : 0 ≤ start ∧ start ≤ stop ∧ stop ≤ b.length) :
    ∃ b', b.after? (.note tag payload start stop) = some b'
      ∧ Step b (.note tag payload start stop) b' := by
  have hmake : Range.make (.note tag payload) start stop
      = .ok ⟨.note tag payload, start.toNat, stop.toNat⟩ := by
    rw [Range.make, if_neg (by omega)]
  refine ⟨b.addRange ⟨.note tag payload, start.toNat, stop.toNat⟩, ?_, hb.addRange ?_, ?_, rfl, ?_⟩
  · rw [after?, hmake]
    rfl
  · show start.toNat ≤ stop.toNat ∧ stop.toNat ≤ b.length
    omega
  · exact (List.append_nil _).symm
  · intro ahead
    exact rangesBefore_addRange b _ ahead

/-- **Every edit that can be made is made.** -/
theorem exists_step (hb : Consistent b) {edit : Edit} (hfits : edit.Fits b.length b.depth) :
    ∃ b', b.after? edit = some b' ∧ Step b edit b' := by
  cases edit with
  | text s => exact ⟨_, rfl, step_text hb s⟩
  | annotated t => exact ⟨_, rfl, step_annotated hb hfits⟩
  | opening item => exact ⟨_, rfl, step_opening hb item⟩
  | closing => exact step_closing hb hfits
  | note tag payload start stop => exact step_note hb hfits

/-- A run of edits that can be made ends in a builder whose parts agree, with the
    characters of all edits behind its own, and with its own ranges as the edits close them
    in front of those that they bring. -/
theorem exists_run (hb : Consistent b) {edits : List Edit}
    (hfit : AllFit b.length b.depth edits) :
    ∃ b', b.run? edits = some b' ∧ Consistent b'
      ∧ b'.text = b.text ++ edits.flatMap Edit.appended
      ∧ b'.ranges = b.rangesBefore edits ++ rangesFrom b.length edits := by
  induction edits generalizing b with
  | nil =>
      refine ⟨b, rfl, hb, (List.append_nil _).symm, ?_⟩
      rw [rangesBefore_nil]
      exact (List.append_nil _).symm
  | cons edit edits ih =>
      obtain ⟨hfits, hrest⟩ := hfit
      obtain ⟨b₁, hafter, hstep⟩ := exists_step hb hfits
      rw [← hstep.length hb, ← hstep.depth] at hrest
      obtain ⟨b', hrun, hb', htext, hranges⟩ := ih hstep.consistent hrest
      refine ⟨b', ?_, hb', ?_, ?_⟩
      · rw [run?, List.foldlM_cons, hafter]
        exact hrun
      · rw [htext, hstep.text, List.flatMap_cons, List.append_assoc]
      · -- the ranges of the step go over from those of the builder to those of the edits
        rw [hranges, hstep.ranges, hstep.length hb, List.append_assoc]
        rfl

/-- What can be made can be made up to any point. -/
theorem AllFit.take {position depth : Nat} {edits : List Edit} (h : AllFit position depth edits)
    (n : Nat) : AllFit position depth (edits.take n) := by
  induction edits generalizing position depth n with
  | nil =>
      rw [List.take_nil]
      exact trivial
  | cons edit edits ih =>
      cases n with
      | zero => exact trivial
      | succ n => exact ⟨h.1, ih h.2 n⟩

/-- **A builder builds what its edits make up.**  At any point of edits that are nested
    and stay within their texts, none has been refused, and what has been built so far is
    the text of the edits so far, with every range that was closed, appended or added, in
    the order of opening; open ranges are left out.  The length, the last character and
    whether a paragraph ends at the end are those of this text. -/
theorem built_of_edits {edits : List Edit} (hfit : AllFit 0 0 edits) (n : Nat) :
    ∃ b, empty.run? (edits.take n) = some b
      ∧ b.snapshot = .ok (composed (edits.take n)) ∧ (composed (edits.take n)).WellFormed
      ∧ b.length = (composed (edits.take n)).length
      ∧ (∀ c, b.endsWith [c] = true ↔ (composed (edits.take n)).text.getLast? = some c)
      ∧ (b.paragraphEnded = true
        ↔ ∃ r ∈ (composed (edits.take n)).ranges,
          r.item.isParagraph = true ∧ r.stop = (composed (edits.take n)).length) := by
  -- only that these edits fit matters from here on, not what would follow them
  generalize hbefore : edits.take n = before
  have hfit' : AllFit 0 0 before := hbefore ▸ hfit.take n
  obtain ⟨b, hrun, hb, htext, hranges⟩ := exists_run consistent_empty hfit'
  have hcomposed : composed before = ⟨b.text, b.ranges⟩ := by
    rw [htext, hranges]
    rfl
  have hlength : b.length = (composed before).length := by
    rw [hb.length, hcomposed]
    rfl
  have hwell : (composed before).WellFormed := by
    intro r hr
    rw [← hlength]
    rw [hcomposed] at hr
    exact hb.within (.done r) (mem_ranges.mp hr)
  refine ⟨b, hrun, ?_, hwell, hlength, ?_, ?_⟩
  · rw [snapshot, hcomposed]
    refine AnnotatedText.make_eq_ok fun r hr => ?_
    rw [← hb.length]
    exact (hb.within (.done r) (mem_ranges.mp hr)).2
  · intro c
    rw [hcomposed, endsWith, hb.last]
    cases b.text.getLast? with
    | none => simp
    | some d => simp
  · rw [paragraphEnded, List.contains_iff_mem, hb.ends, ← hlength, hcomposed]
    simp only [mem_ranges]

/-- A quote around a text with a paragraph of its own and around a range that stays empty,
    an annotation of what was there before, and a range that is never closed. -/
def nestedEdits : List Edit :=
  [.text "ab".toList, .opening (.note .blockQuote "1"),
   .annotated ⟨"cd".toList, [⟨.directive (.paragraph {}), 0, 2⟩]⟩,
   .opening (.note .heading "h1"), .text [], .closing, .note .roomMention "" 0 1, .text "e".toList,
   .closing, .opening (.note .span "\x7b\x7d"), .text "f".toList]

/-- After the annotation the quote is open, and a paragraph ends at the end. -/
theorem built_of_nestedEdits :
    AllFit 0 0 nestedEdits ∧ ∃ b, empty.run? (nestedEdits.take 7) = some b
      ∧ b.snapshot = .ok (composed (nestedEdits.take 7))
      ∧ (composed (nestedEdits.take 7)).ranges.map (fun r => (r.item.tag?, r.start, r.stop))
        = [(none, 2, 4), (some .heading, 4, 4), (some .roomMention, 0, 1)]
      ∧ b.length = 4 ∧ b.endsWith ['d'] = true ∧ b.paragraphEnded = true := by
  have hfit : AllFit 0 0 nestedEdits := by decide
  obtain ⟨b, hrun, hsnapshot, -, hlength, hends, hparagraph⟩ := built_of_edits hfit 7
  refine ⟨hfit, b, hrun, hsnapshot, by decide, hlength, (hends 'd').mpr (by decide), ?_⟩
  exact hparagraph.mpr (by decide)

end Builder

end MessageBody
