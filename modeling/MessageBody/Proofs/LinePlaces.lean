import MessageBody.Drawing.Layout

/-! # Places on lines

    A range of text has at most one place on each of its lines.  The first line holds
    the range from its start on and the last line up to its end; the lines between them
    hold it from where they start to where they end.  A line has a place if the layout
    tells how far it reaches, can locate one of the characters there and knows the
    direction of the text. -/

namespace MessageBody.TextLayout

variable {α : Type} {layout : TextLayout α}

/-- The positions of an interval go from its start to before its end. -/
theorem mem_offsets {start stop o : Int} : o ∈ offsets start stop ↔ start ≤ o ∧ o < stop := by
  simp only [offsets, List.mem_map, List.mem_range]
  constructor
  · rintro ⟨i, hi, rfl⟩
    omega
  · intro h
    exact ⟨(o - start).toNat, by omega, by omega⟩

/-- The lines from one to another are those between them, both included. -/
theorem mem_lines {first last line : Nat} :
    line ∈ lines first last ↔ first ≤ line ∧ line ≤ last := by
  simp only [lines, List.mem_map, List.mem_range]
  constructor
  · rintro ⟨i, hi, rfl⟩
    omega
  · intro h
    exact ⟨line - first, by omega, by omega⟩

/-- The bounds of the characters from `start` to `stop` that can be located, in the order
    of the text. -/
def boxes (layout : TextLayout α) (start stop : Int) : List (Rect α) :=
  (offsets start stop).filterMap layout.box?

/-- The boxes of an interval are those of its characters that can be located. -/
theorem mem_boxes {start stop : Int} {box : Rect α} :
    box ∈ layout.boxes start stop
      ↔ ∃ o, start ≤ o ∧ o < stop ∧ layout.box? o = some box := by
  simp only [boxes, List.mem_filterMap, mem_offsets, and_assoc]

/-- Where a range starts on a line, if its first line is `first`. -/
def low? (layout : TextLayout α) (start : Int) (first line : Nat) : Option Int :=
  if line = first then some start else layout.lineStart? line

/-- Where a range stops on a line, if its last line is `last`. -/
def high? (layout : TextLayout α) (stop : Int) (last line : Nat) : Option Int :=
  if line = last then some stop else layout.lineEnd? line

/-- The range from `start` to `stop` is on a line from `low` to `high`. -/
def IsOnLine (layout : TextLayout α) (start stop : Int) (line : Nat) (low high : Int) : Prop :=
  ∃ first last, layout.lineOf? start = some first ∧ layout.lineOf? stop = some last
    ∧ (first ≤ line ∧ line ≤ last)
    ∧ layout.low? start first line = some low ∧ layout.high? stop last line = some high

/-- What a range holds of a line is all that stands on the line from where the line starts
    to where it ends. -/
theorem IsOnLine.holds {start stop low high : Int} {line : Nat}
    (h : layout.IsOnLine start stop line low high) {o : Int} (hstart : start ≤ o) (hstop : o < stop)
    (hlow : ∀ p ∈ layout.lineStart? line, p ≤ o) (hhigh : ∀ p ∈ layout.lineEnd? line, o < p) :
    low ≤ o ∧ o < high := by
  obtain ⟨first, last, -, -, -, hl, hh⟩ := h
  constructor
  · rw [low?] at hl
    split at hl
    · exact Option.some.inj hl ▸ hstart
    · exact hlow low hl
  · rw [high?] at hh
    split at hh
    · exact Option.some.inj hh ▸ hstop
    · exact hhigh high hh

variable [LT α] [DecidableLT α]

/-- The place of the characters from `low` to `high`, all on one line. -/
def placeOf? (layout : TextLayout α) (line : Nat) (low high : Int) : Option (Position α) :=
  match layout.boxes low high with
  | [] => none
  | box :: others =>
      (layout.direction? low).map fun direction =>
        ⟨rowRect box others, low, high, direction, some line⟩

/-- A range has a place on a line if the bounds of its part there are known and something in it
    can be located. -/
theorem linePosition?_eq (start stop : Int) (first last line : Nat) :
    layout.linePosition? start stop first last line
      = (layout.low? start first line).bind fun low =>
          (layout.high? stop last line).bind fun high => layout.placeOf? line low high := by
  unfold linePosition? low? high? placeOf? boxes
  simp only [Option.bind_eq_bind, Option.map_eq_bind]
  split
  · split <;> rfl
  · split <;> rfl

/-- A place tells the line, its part of the range and the direction, and its rectangle is that of
    the boxes there. -/
theorem placeOf?_eq_some_iff {line : Nat} {low high : Int} {p : Position α} :
    layout.placeOf? line low high = some p
      ↔ p.start = low ∧ p.stop = high ∧ p.line? = some line
        ∧ layout.direction? low = some p.direction
        ∧ ∃ box others, layout.boxes low high = box :: others ∧ p.rect = rowRect box others := by
  rw [placeOf?]
  constructor
  · intro h
    split at h
    · exact nomatch h
    · rename_i box others hboxes
      obtain ⟨direction, hdirection, rfl⟩ := Option.map_eq_some_iff.mp h
      exact ⟨rfl, rfl, rfl, hdirection, box, others, hboxes, rfl⟩
  · rintro ⟨rfl, rfl, hline, hdirection, box, others, hboxes, hrect⟩
    simp only [hboxes, hdirection, Option.map_some, ← hrect, ← hline]

end MessageBody.TextLayout
