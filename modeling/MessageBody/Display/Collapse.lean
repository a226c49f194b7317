import MessageBody.Annotated.Text
import MessageBody.IdSet
import MessageBody.Log
import MessageBody.Order.Insertion
import MessageBody.Text.Quoted
import MessageBody.Text.WholeNumber

/-! # Collapsing

    Content of a details element is hidden until its id is expanded.  What stays
    visible is a list of windows, found in one pass over the hideable ranges in
    the order of their starts; a range that starts inside hidden content adds
    nothing.  The windows are joined into a shorter text, and each range is cut
    into its pieces in them. -/

namespace MessageBody

/-- An interval of a text that stays visible. -/
structure Window where
  start : Nat
  stop : Nat
  deriving DecidableEq

namespace Window

/-- The number of positions in the window. -/
def length (w : Window) : Nat := w.stop - w.start

/-- The characters in the window. -/
def slice (w : Window) (s : List Char) : List Char :=
  (s.drop w.start).take w.length

/-- The bounds that a range shares with the window when the window is moved to
    `offset`, nothing unless they share a position. -/
def piece? (w : Window) (offset : Nat) (r : Range) : Option Range :=
  let low := max w.start r.start
  let high := min w.stop r.stop
  if low < high then some ⟨r.item, offset + (low - w.start), offset + (high - w.start)⟩ else none

end Window

namespace Collapse

/-- The first range starts before the second, or with it. -/
def startsFirst (a b : Range) : Bool :=
  a.start ≤ b.start

/-- The hideable ranges of a text in the order of their starts. -/
def hideable (t : AnnotatedText) : List Range :=
  Order.sort startsFirst (t.tagged .detailsContent)

/-- The record of a payload that is no id. -/
def notId (payload : String) : LogRecord :=
  .error ("details content data parsing error, is not an int id: " ++ Text.quote payload)

/-- The record of a range that starts inside hidden content. -/
def insideHidden (r : Range) : LogRecord :=
  .warning ("details content " ++ intervalText (toString r.start) (toString r.stop)
    ++ " starts inside already hidden content, ignoring it")

/-- The windows of a text of the given length from position `index` on, where the
    content before is settled. -/
def windowsFrom (expanded : IdSet) (length index : Nat) :
    List Range → Logged Text.TooManyDigits (List Window)
  | [] => pure [⟨index, length⟩]
  | r :: rs =>
      match r.item with
      | .directive _ => windowsFrom expanded length index rs
      | .note _ payload =>
          match Text.wholeNumber payload.toList with
          | .error refusal => .fail refusal
          | .ok none => do
              Logged.record (notId payload) ()
              windowsFrom expanded length index rs
          | .ok (some id) =>
              if id ∈ expanded then windowsFrom expanded length index rs
              else if r.start < index then do
                Logged.record (insideHidden r) ()
                windowsFrom expanded length index rs
              else do
                let rest ← windowsFrom expanded length r.stop rs
                pure (⟨index, r.start⟩ :: rest)

/-- The windows of a text. -/
def windows (t : AnnotatedText) (expanded : IdSet) : Logged Text.TooManyDigits (List Window) :=
  windowsFrom expanded t.length 0 (hideable t)

/-- The characters in the windows. -/
def slices (s : List Char) (ws : List Window) : List Char :=
  ws.flatMap fun w => w.slice s

/-- The windows from the last one that starts at or before position `p` on, and
    the offset at which it is put; all of them when none does. -/
def seek (p : Nat) : Nat → List Window → Nat × List Window
  | offset, w :: w' :: ws =>
      if w'.start ≤ p then seek p (offset + w.length) (w' :: ws) else (offset, w :: w' :: ws)
  | offset, ws => (offset, ws)

/-- The pieces of a range in windows that are put together from `offset` on, up
    to the first window that starts at its end or after. -/
def pieces (r : Range) : Nat → List Window → List Range
  | _, [] => []
  | offset, w :: ws =>
      if w.start < r.stop then (w.piece? offset r).toList ++ pieces r (offset + w.length) ws
      else []

/-- Where position `p` comes to lie when it is in the first of windows that are
    put together from `offset` on. -/
def position? (p : Nat) : Nat → List Window → Option Nat
  | _, [] => none
  | offset, w :: _ =>
      if w.start ≤ p ∧ p ≤ w.stop then some (offset + (p - w.start)) else none

/-- A range in the text of the windows.  One that covers nothing is dropped when
    it is strictly inside hidden content. -/
def rebase (ws : List Window) (r : Range) : List Range :=
  let (offset, rest) := seek r.start 0 ws
  if r.isEmpty then ((position? r.start offset rest).map fun p => ⟨r.item, p, p⟩).toList
  else pieces r offset rest

/-- The text of the windows. -/
def restrict (t : AnnotatedText) (ws : List Window) : AnnotatedText :=
  ⟨slices t.text ws, t.ranges.flatMap (rebase ws)⟩

end Collapse

/-- The text without the hideable content whose id is not among those
    expanded. -/
def AnnotatedText.collapse (t : AnnotatedText) (expanded : IdSet) :
    Logged Text.TooManyDigits AnnotatedText := do
  let ws ← Collapse.windows t expanded
  if ws = [⟨0, t.length⟩] then pure t else pure (Collapse.restrict t ws)

end MessageBody
