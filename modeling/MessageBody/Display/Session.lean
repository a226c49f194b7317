import MessageBody.Display.Collapse
import MessageBody.Display.Interaction
import MessageBody.Styling.Formatter

/-! # Sessions

    A session shows one message to one reader.  The styled text is derived once.
    The text on display is derived from it anew when the set of expanded ids has
    changed since it was last read; with everything expanded, it is the styled
    text itself. -/

namespace MessageBody

/-- One message as one reader sees it. -/
structure Session where
  formatter : Formatter
  /-- The text of the message. -/
  source : AnnotatedText
  interaction : Interaction
  /-- The styled text, once it has been derived. -/
  styled? : Option AnnotatedText
  /-- The text last on display, and what was expanded then. -/
  shown? : Option (IdSet × AnnotatedText)

namespace Session

/-- A session that has not shown anything yet. -/
def start (formatter : Formatter) (source : AnnotatedText) (interaction : Interaction) :
    Session :=
  ⟨formatter, source, interaction, none, none⟩

/-- The styled text, and the session that keeps it. -/
def styledText (s : Session) : Session × Logged StylingError AnnotatedText :=
  match s.styled? with
  | some t => (s, pure t)
  | none =>
      let result := s.formatter.apply s.source
      match result.outcome with
      | .ok t => ({ s with styled? := some t }, result)
      | .error _ => (s, result)

/-- The text to display for the given styled text. -/
def displayOf (interaction : Interaction) (styled : AnnotatedText) :
    Logged StylingError AnnotatedText :=
  if interaction.allExpanded then pure styled
  else
    let collapsed := styled.collapse interaction.expanded
    ⟨collapsed.log, collapsed.outcome.mapError .tooManyDigits⟩

/-- The text to display derived anew, and the session that keeps it. -/
def derive (s : Session) : Session × Logged StylingError AnnotatedText :=
  let (s', styled) := s.styledText
  let result := styled >>= displayOf s.interaction
  match result.outcome with
  | .ok t => ({ s' with shown? := some (s.interaction.expanded, t) }, result)
  | .error _ => (s', result)

/-- The text on display, and the session that keeps it. -/
def display (s : Session) : Session × Logged StylingError AnnotatedText :=
  match s.shown? with
  | some (expanded, t) => if expanded = s.interaction.expanded then (s, pure t) else s.derive
  | none => s.derive

/-- The session after a change. -/
def update (s : Session) (change : Interaction.Change) : Session :=
  { s with interaction := s.interaction.update change }

/-- The id that a click on a range toggles, if it does. -/
def clickTarget? (r : Range) : Option Int :=
  match r.item with
  | .directive (.clickable _ target _) => target
  | _ => none

/-- The session after a click on ranges, one after the other. -/
def click (s : Session) (ranges : List Range) : Session :=
  (ranges.filterMap clickTarget?).foldl (fun s id => s.update (.toggle id)) s

end Session

end MessageBody
