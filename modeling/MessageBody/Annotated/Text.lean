import MessageBody.Annotated.Range

/-! # Annotated text

    A text with ranges over it.  Ranges may share bounds and need not be nested;
    their order counts.  Annotated texts are put together by `++`, which moves
    the ranges of the second text, and by `marked`, which puts a range around
    all of a text in front of its own ranges. -/

namespace MessageBody

/-- A text and the ranges over it. -/
structure AnnotatedText where
  text : List Char
  ranges : List Range

namespace AnnotatedText

/-- A text without ranges. -/
def plain (text : List Char) : AnnotatedText := ⟨text, []⟩

/-- No text. -/
def empty : AnnotatedText := plain []

/-- The number of characters. -/
def length (t : AnnotatedText) : Nat := t.text.length

/-- Every range lies in the text. -/
def WellFormed (t : AnnotatedText) : Prop :=
  ∀ r ∈ t.ranges, r.start ≤ r.stop ∧ r.stop ≤ t.length

instance (t : AnnotatedText) : Decidable t.WellFormed :=
  inferInstanceAs (Decidable (∀ r ∈ t.ranges, _))

/-- The text with the given ranges, if none of them ends after it. -/
def make (text : List Char) (ranges : List Range) : Except RangeError AnnotatedText :=
  match ranges.find? fun r => text.length < r.stop with
  | some r => .error (.beyond r.start r.stop text.length)
  | none => .ok ⟨text, ranges⟩

/-- Ranges that end within a text can be put over it. -/
theorem make_eq_ok {text : List Char} {ranges : List Range}
    (h : ∀ r ∈ ranges, r.stop ≤ text.length) : make text ranges = .ok ⟨text, ranges⟩ := by
  have hnone : (ranges.find? fun r => text.length < r.stop) = none := by
    refine List.find?_eq_none.mpr fun r hr => ?_
    simpa using h r hr
  rw [make, hnone]

/-! ## Putting texts together -/

/-- The second text after the first. -/
protected def append (t u : AnnotatedText) : AnnotatedText :=
  ⟨t.text ++ u.text, t.ranges ++ u.ranges.map (Range.shift t.length)⟩

instance : Append AnnotatedText := ⟨AnnotatedText.append⟩

/-- The text with `item` attached to all of it. -/
def marked (item : Item) (t : AnnotatedText) : AnnotatedText :=
  ⟨t.text, ⟨item, 0, t.length⟩ :: t.ranges⟩

/-- The texts one after the other. -/
def concat (parts : List AnnotatedText) : AnnotatedText :=
  parts.foldr (· ++ ·) empty

@[simp] theorem text_append (t u : AnnotatedText) : (t ++ u).text = t.text ++ u.text := rfl

@[simp] theorem ranges_append (t u : AnnotatedText) :
    (t ++ u).ranges = t.ranges ++ u.ranges.map (Range.shift t.length) := rfl

@[simp] theorem length_append (t u : AnnotatedText) :
    (t ++ u).length = t.length + u.length := by
  simp [length]

@[simp] theorem text_marked (item : Item) (t : AnnotatedText) :
    (t.marked item).text = t.text := rfl

@[simp] theorem length_marked (item : Item) (t : AnnotatedText) :
    (t.marked item).length = t.length := rfl

@[simp] theorem text_plain (s : List Char) : (plain s).text = s := rfl

@[simp] theorem ranges_plain (s : List Char) : (plain s).ranges = [] := rfl

@[simp] theorem text_empty : empty.text = [] := rfl

@[simp] theorem length_empty : empty.length = 0 := rfl

theorem shift_zero_eq_id : Range.shift 0 = id :=
  funext Range.shift_zero

@[simp] theorem empty_append (t : AnnotatedText) : empty ++ t = t := by
  show AnnotatedText.append empty t = t
  simp [AnnotatedText.append, empty, plain, length, shift_zero_eq_id]

@[simp] theorem append_empty (t : AnnotatedText) : t ++ empty = t := by
  show AnnotatedText.append t empty = t
  simp [AnnotatedText.append, empty, plain]

theorem append_assoc (t u v : AnnotatedText) : t ++ u ++ v = t ++ (u ++ v) := by
  show AnnotatedText.append (AnnotatedText.append t u) v
    = AnnotatedText.append t (AnnotatedText.append u v)
  simp [AnnotatedText.append, length, Function.comp_def, List.append_assoc]

/-! ## Looking into a text -/

/-- The ranges that carry annotations. -/
def annotations (t : AnnotatedText) : List Range :=
  t.ranges.filter fun r => r.item.isNote

/-- The ranges that carry directives. -/
def directives (t : AnnotatedText) : List Range :=
  t.ranges.filter fun r => !r.item.isNote

/-- The annotations of kind `tag`, or of any kind, that touch the interval from
    `start` to `stop`, both included. -/
def annotationsOf (t : AnnotatedText) (tag : Option Tag) (start stop : Int) : List Range :=
  t.ranges.filter fun r =>
    r.item.isNote && (tag.isNone || r.item.tag? == tag) && r.start ≤ stop && start ≤ r.stop

/-- The annotations of kind `tag`. -/
def tagged (t : AnnotatedText) (tag : Tag) : List Range :=
  t.ranges.filter fun r => r.item.tag? == some tag

/-- The annotations of one kind are some of the annotations. -/
theorem tagged_eq (t : AnnotatedText) (tag : Tag) :
    t.tagged tag = t.annotations.filter fun r => r.item.tag? == some tag := by
  rw [tagged, annotations, List.filter_filter]
  refine List.filter_congr fun r _ => ?_
  cases hitem : r.item with
  | note tag' payload => simp [Item.isNote, Item.tag?]
  | directive d => rfl

/-- The ranges with directives of the given kind. -/
def ofKind (t : AnnotatedText) (kind : DirectiveKind) : List Range :=
  t.ranges.filter fun r => r.item.kind? == some kind

/-- Whether a range carries a directive that reacts to a click. -/
def isLinkRange (r : Range) : Bool :=
  match r.item with
  | .directive d => d.isLink
  | .note _ _ => false

/-- The ranges that react to a click at position `p`. -/
def linksAt (t : AnnotatedText) (p : Int) : List Range :=
  t.ranges.filter fun r => isLinkRange r && r.start ≤ p && p < r.stop

/-- The items of the ranges that cover position `p`, in order. -/
def itemsAt (t : AnnotatedText) (p : Nat) : List Item :=
  (t.ranges.filter fun r => r.covers p).map Range.item

/-! ## Deriving texts -/

/-- The text in the window from `start` to `stop`, with the parts of the ranges
    that lie in it. -/
def subsequence (t : AnnotatedText) (start stop : Int) : Except RangeError AnnotatedText :=
  if start < 0 ∨ (t.length : Int) < stop ∨ stop < start then .error (.window start stop t.length)
  else
    make ((t.text.drop start.toNat).take (stop - start).toNat)
      (t.ranges.filterMap (Range.clip start stop))

/-- The text with each range replaced by others. -/
def flatMapRanges (t : AnnotatedText) (f : Range → List Range) : AnnotatedText :=
  ⟨t.text, t.ranges.flatMap f⟩

end AnnotatedText

end MessageBody
