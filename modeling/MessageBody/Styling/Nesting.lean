import MessageBody.Annotated.Text
import MessageBody.Order.Insertion
import MessageBody.Text.WholeNumber

/-! # Nesting depth

    How deeply quotes and list items are nested at each position of a text.  The
    depth changes only where one of their ranges starts or ends, so one sweep
    from left to right over these boundaries finds it everywhere; a position then
    has the depth of the last boundary that is not after it.

    The sweep keeps the ranges it has reached, deepest first.  One that has ended
    stays until it comes to the front, where it is dropped. -/

namespace MessageBody

/-- The depth that a quote or a list item has in the interval from `start` to
    `stop`. -/
structure DepthRange where
  start : Nat
  stop : Nat
  depth : Int
  deriving DecidableEq

namespace DepthRange

/-- Whether the depth holds at position `p`. -/
def covers (r : DepthRange) (p : Int) : Bool :=
  r.start ≤ p && p < r.stop

end DepthRange

/-- The kinds of annotation that indent the content in them. -/
def Tag.indents (tag : Tag) : Bool :=
  tag = .blockQuote || tag = .unorderedListItem || tag = .orderedListItem

namespace Nesting

/-- The depth of an annotation that indents, if its payload can be read. -/
def depthRange? (r : Range) : Except Text.TooManyDigits (Option DepthRange) :=
  match r.item with
  | .note tag payload =>
      if tag.indents then
        (Text.wholeNumber payload.toList).map fun depth? =>
          depth?.map fun depth => ⟨r.start, r.stop, depth⟩
      else .ok none
  | .directive _ => .ok none

/-- The depths of all quotes and list items among ranges. -/
def depthRanges : List Range → Except Text.TooManyDigits (List DepthRange)
  | [] => .ok []
  | r :: rs => do
      let first ← depthRange? r
      let rest ← depthRanges rs
      .ok (first.toList ++ rest)

/-! ## The sweep -/

/-- The first range starts before the second, or with it. -/
def startsFirst (a b : DepthRange) : Bool :=
  a.start ≤ b.start

/-- The first position is not after the second. -/
def notAfter (p q : Nat) : Bool :=
  p ≤ q

/-- Positions in increasing order without repetitions, of positions in
    increasing order. -/
def dropRepeated : List Nat → List Nat
  | [] => []
  | [p] => [p]
  | p :: q :: ps => if p = q then dropRepeated (q :: ps) else p :: dropRepeated (q :: ps)

/-- The positions where a range starts or ends, in increasing order. -/
def boundaries (rs : List DepthRange) : List Nat :=
  dropRepeated (Order.sort notAfter (rs.flatMap fun r => [r.start, r.stop]))

/-- The first range is at least as deep as the second. -/
def deeper (a b : DepthRange) : Bool :=
  b.depth ≤ a.depth

/-- The state of the sweep. -/
structure Sweep where
  /-- The ranges that are still to come, in the order of their starts. -/
  coming : List DepthRange
  /-- The ranges that have started, deepest first. -/
  started : List DepthRange

/-- The depth at the front, zero when nothing is open. -/
def frontDepth : List DepthRange → Int
  | [] => 0
  | r :: _ => r.depth

/-- The sweep at boundary `b`: what starts there is taken in, and what has ended
    is dropped from the front. -/
def Sweep.advance (b : Nat) (s : Sweep) : Sweep where
  coming := s.coming.dropWhile fun r => r.start ≤ b
  started :=
    ((s.coming.takeWhile fun r => r.start ≤ b).foldl
      (fun started r => Order.insert deeper r started) s.started).dropWhile fun r => r.stop ≤ b

/-- The depth from each boundary up to the next. -/
def stepsFrom (s : Sweep) : List Nat → List (Nat × Int)
  | [] => []
  | b :: bs =>
      let next := s.advance b
      (b, frontDepth next.started) :: stepsFrom next bs

/-- The depth from each boundary of the ranges up to the next. -/
def stepsOf (rs : List DepthRange) : List (Nat × Int) :=
  stepsFrom ⟨Order.sort startsFirst rs, []⟩ (boundaries rs)

/-- The depth at position `p` of the last boundary not after it, zero when there
    is none. -/
def depthIn (p : Int) : List (Nat × Int) → Int
  | [] => 0
  | (b, depth) :: rest =>
      if p < b then 0
      else
        match rest with
        | [] => depth
        | (b', _) :: _ => if p < b' then depth else depthIn p rest

end Nesting

/-- The nesting depth in a text, as the depth from each boundary up to the
    next. -/
structure Nesting where
  steps : List (Nat × Int)

namespace Nesting

/-- The nesting depth in a text. -/
def ofText (t : AnnotatedText) : Except Text.TooManyDigits Nesting :=
  (depthRanges t.ranges).map fun rs => ⟨stepsOf rs⟩

/-- The depth of the deepest quote or list item at position `p`, zero when there
    is none. -/
def depthAt (n : Nesting) (p : Int) : Int :=
  depthIn p n.steps

end Nesting

end MessageBody
