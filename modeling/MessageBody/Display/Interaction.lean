import MessageBody.IdSet

/-! # Interaction

    What the reader of a message has expanded.  A change takes effect at once;
    when it has altered the set of expanded ids, every listener is called with
    the new set, in the order in which they were added. -/

namespace MessageBody

/-- What the reader has expanded, and who listens. -/
structure Interaction where
  /-- The ids that all belong to the message. -/
  revealable : IdSet
  expanded : IdSet
  /-- The names of the listeners. -/
  listeners : List String

namespace Interaction

/-- A change that the reader makes. -/
inductive Change where
  | toggle (id : Int)
  | expand (ids : List Int)
  | collapse (ids : List Int)
  | expandAll

/-- The expanded ids after a change. -/
def Change.applied (change : Change) (revealable expanded : IdSet) : IdSet :=
  match change with
  | .toggle id => expanded.toggle id
  | .expand ids => expanded.insertAll ids
  | .collapse ids => expanded.eraseAll ids
  | .expandAll => expanded.insertAll revealable.toList

/-- A call of a listener with the ids that are expanded. -/
structure Call where
  listener : String
  expanded : IdSet

/-- Nobody listens, and the given ids are expanded. -/
def start (revealable expanded : IdSet) : Interaction := ⟨revealable, expanded, []⟩

/-- Everything is collapsed. -/
def fresh (revealable : IdSet) : Interaction := start revealable .empty

/-- Everything that belongs to the message is expanded. -/
def allExpanded (s : Interaction) : Bool :=
  s.revealable.isSubset s.expanded

/-- Whether `id` is expanded. -/
def isExpanded (s : Interaction) (id : Int) : Bool :=
  id ∈ s.expanded

/-- The state after a change. -/
def update (s : Interaction) (change : Change) : Interaction :=
  { s with expanded := change.applied s.revealable s.expanded }

/-- The calls that a change brings about. -/
def calls (s : Interaction) (change : Change) : List Call :=
  let expanded := (s.update change).expanded
  if expanded = s.expanded then [] else s.listeners.map fun listener => ⟨listener, expanded⟩

/-- The state with one more listener. -/
def listen (s : Interaction) (listener : String) : Interaction :=
  { s with listeners := s.listeners ++ [listener] }

/-- The state where a listener has been taken out once, nothing when it does not
    listen. -/
def unlisten? (s : Interaction) (listener : String) : Option Interaction :=
  if s.listeners.contains listener then
    some { s with listeners := s.listeners.erase listener }
  else none

/-- The ids as a message shows them. -/
def idsText (ids : IdSet) : String :=
  "[" ++ ", ".intercalate (ids.toList.map toString) ++ "]"

/-- The state as a message shows it. -/
def description (s : Interaction) : String :=
  "InteractionState(expandable_items=" ++ idsText s.revealable ++ ", expanded_items="
    ++ idsText s.expanded ++ ")"

@[simp] theorem expanded_update (s : Interaction) (change : Change) :
    (s.update change).expanded = change.applied s.revealable s.expanded := rfl

/-- What can be revealed stays as it is. -/
@[simp] theorem revealable_update (s : Interaction) (change : Change) :
    (s.update change).revealable = s.revealable := rfl

end Interaction

end MessageBody
