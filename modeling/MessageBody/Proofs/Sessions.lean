import MessageBody.Display.Session
import MessageBody.Proofs.Display

/-! # What a session shows over time

    A session keeps the styled text and the text last on display.  In whatever
    order things are expanded and collapsed, links are clicked and the text is
    read, what it keeps stays coherent with the message: the styled text is the
    one that the formatter gives, and the text last on display is the styled text
    collapsed for the ids that were expanded then. -/

namespace MessageBody.Session

/-- What can happen in a session. -/
inductive Event where
  /-- The reader changes what is expanded. -/
  | change (c : Interaction.Change)
  /-- The reader clicks on ranges, which may be any of those on display. -/
  | click (ranges : List Range)
  /-- The text on display is read. -/
  | read

/-- The session after an event. -/
def after (s : Session) : Event → Session
  | .change c => s.update c
  | .click ranges => s.click ranges
  | .read => s.display.1

/-- The session after a run of events. -/
def run (s : Session) (events : List Event) : Session :=
  events.foldl after s

/-- The ids that are expanded after an event.  Reading changes nothing. -/
def Event.applied (revealable expanded : IdSet) : Event → IdSet
  | .change c => c.applied revealable expanded
  | .click ranges => (ranges.filterMap clickTarget?).foldl (fun ids id => ids.toggle id) expanded
  | .read => expanded

/-- The ids that are expanded after a run of events that begins with everything
    collapsed. -/
def expandedAfter (revealable : IdSet) (events : List Event) : IdSet :=
  events.foldl (fun expanded event => event.applied revealable expanded) .empty

/-- The text on display computed afresh. -/
def afresh (f : Formatter) (source : AnnotatedText) (expanded : IdSet) :
    Except StylingError AnnotatedText := do
  let styled ← (f.apply source).outcome
  (styled.collapse expanded).outcome.mapError .tooManyDigits

/-! ## With everything expanded -/

/-- With everything expanded that belongs to a message, collapsing changes
    nothing. -/
theorem collapse_of_isSubset {body : Body} (h : body.Sound) {styled : AnnotatedText}
    (hwell : styled.WellFormed)
    (htagged : styled.tagged .detailsContent = body.text.tagged .detailsContent)
    {expanded : IdSet} (hsubset : body.revealable.isSubset expanded = true) :
    (styled.collapse expanded).outcome = .ok styled := by
  have hnone : Collapse.removed styled expanded = [] := by
    refine Collapse.removedFrom_eq_nil ?_ 0
    intro r hr
    have hmem := Collapse.mem_hideable.mp hr
    rw [htagged] at hmem
    obtain ⟨id, hid, hread⟩ := h.revealed r hmem
    have hexpanded := IdSet.isSubset_iff.mp hsubset id hid
    simp only [Collapse.isCollapsed, hread, hexpanded, not_true_eq_false, decide_false]
  rw [Collapse.collapse_outcome hwell (h.hasReadableIds htagged) expanded, hnone,
    Collapse.restrict_whole hwell]

/-! ## Coherence -/

/-- What the session keeps is what the formatter and collapsing give. -/
structure Coherent (body : Body) (f : Formatter) (s : Session) : Prop where
  formatter : s.formatter = f
  source : s.source = body.text
  revealable : s.interaction.revealable = body.revealable
  styled : ∀ styled, s.styled? = some styled → (f.apply body.text).outcome = .ok styled
  shown : ∀ expanded t, s.shown? = some (expanded, t) → afresh f body.text expanded = .ok t

variable {body : Body} {f : Formatter} {s : Session}

/-- A session begins with nothing in its caches. -/
theorem coherent_start (body : Body) (f : Formatter) :
    Coherent body f (start f body.text (.fresh body.revealable)) where
  formatter := rfl
  source := rfl
  revealable := rfl
  styled := fun _ h => nomatch h
  shown := fun _ _ h => nomatch h

/-- A change of what is expanded leaves the styled text in its cache. -/
theorem Coherent.update (h : Coherent body f s) (change : Interaction.Change) :
    Coherent body f (s.update change) :=
  ⟨h.formatter, h.source, h.revealable, h.styled, h.shown⟩

/-- A click toggles the ids of the ranges one after the other. -/
theorem Coherent.click (h : Coherent body f s) (ranges : List Range) :
    Coherent body f (s.click ranges)
      ∧ (s.click ranges).interaction.expanded
        = (ranges.filterMap clickTarget?).foldl (fun ids id => ids.toggle id)
          s.interaction.expanded := by
  rw [Session.click]
  generalize ranges.filterMap clickTarget? = ids
  induction ids generalizing s with
  | nil => exact ⟨h, rfl⟩
  | cons id ids ih => exact ih (h.update (.toggle id))

/-- The styled text is that of the body, from the cache or not. -/
theorem styledText_of_coherent (h : Coherent body f s) {styled : AnnotatedText}
    (hstyled : (f.apply body.text).outcome = .ok styled) :
    s.styledText.2.outcome = .ok styled ∧ Coherent body f s.styledText.1
      ∧ s.styledText.1.interaction = s.interaction := by
  rw [styledText]
  split
  · rename_i kept hkept
    -- what was kept is the styled text, which is the invariant of the cache
    have heq := h.styled kept hkept
    rw [hstyled] at heq
    cases heq
    exact ⟨rfl, h, rfl⟩
  · extract_lets result
    have hresult : result.outcome = .ok styled := by
      show (s.formatter.apply s.source).outcome = _
      rw [h.formatter, h.source]
      exact hstyled
    rw [hresult]
    refine ⟨hresult, ⟨h.formatter, h.source, h.revealable, ?_, h.shown⟩, rfl⟩
    rintro styled' ⟨⟩
    exact hstyled

/-- The text to display is the collapsed text, also where the styled text is
    displayed as it is. -/
theorem displayOf_outcome (hbody : body.Sound) {styled shown : AnnotatedText}
    (hwell : styled.WellFormed)
    (htagged : styled.tagged .detailsContent = body.text.tagged .detailsContent)
    {interaction : Interaction} (hrevealable : interaction.revealable = body.revealable)
    (hshown : (styled.collapse interaction.expanded).outcome = .ok shown) :
    (displayOf interaction styled).outcome = .ok shown := by
  rw [displayOf]
  split
  · -- with everything expanded, collapsing is skipped
    rename_i hall
    have hsubset : body.revealable.isSubset interaction.expanded = true := by
      rw [← hrevealable]
      exact hall
    rw [collapse_of_isSubset hbody hwell htagged hsubset] at hshown
    rw [Except.ok.inj hshown]
    rfl
  · show (styled.collapse interaction.expanded).outcome.mapError _ = _
    rw [hshown]
    rfl

/-- A text that can be styled and collapsed is shown. -/
theorem afresh_eq_ok {source styled shown : AnnotatedText} {expanded : IdSet}
    (hstyled : (f.apply source).outcome = .ok styled)
    (hshown : (styled.collapse expanded).outcome = .ok shown) :
    afresh f source expanded = .ok shown := by
  rw [afresh, hstyled]
  show (styled.collapse expanded).outcome.mapError _ = _
  rw [hshown]
  rfl

/-- What is derived is the text computed afresh, and it is kept as such. -/
theorem Coherent.derive (hbody : body.Sound) (hf : f.MeasuresSp) (h : Coherent body f s) :
    s.derive.2.outcome = afresh f body.text s.interaction.expanded ∧ Coherent body f s.derive.1
      ∧ s.derive.1.interaction = s.interaction := by
  obtain ⟨styled, hstyled, -, hwell, htagged⟩ := hbody.apply hf
  obtain ⟨shown, hcollapsed⟩ : ∃ shown,
      (styled.collapse s.interaction.expanded).outcome = .ok shown :=
    ⟨_, Collapse.collapse_outcome hwell (hbody.hasReadableIds htagged) _⟩
  have hafresh := afresh_eq_ok hstyled hcollapsed
  obtain ⟨houtcome, hcoherent, hinteraction⟩ := styledText_of_coherent h hstyled
  have hresult : (s.styledText.2 >>= displayOf s.interaction).outcome = .ok shown := by
    rw [Logged.outcome_bind, houtcome]
    exact displayOf_outcome hbody hwell htagged h.revealable hcollapsed
  rw [hafresh]
  rw [Session.derive]
  simp only [hresult]
  refine ⟨trivial, ⟨hcoherent.formatter, hcoherent.source, hcoherent.revealable,
    hcoherent.styled, ?_⟩, hinteraction⟩
  -- what is kept now was made from what is expanded now
  rintro expanded t ⟨⟩
  exact hafresh

/-- A read shows the text computed afresh, and keeps the session coherent. -/
theorem Coherent.display (hbody : body.Sound) (hf : f.MeasuresSp) (h : Coherent body f s) :
    s.display.2.outcome = afresh f body.text s.interaction.expanded
      ∧ Coherent body f s.display.1 ∧ s.display.1.interaction = s.interaction := by
  have hderived := h.derive hbody hf
  rw [Session.display]
  split
  · rename_i expanded t hkept
    split
    · -- the text that is kept belongs to what is expanded now
      rename_i hsame
      have hcached := h.shown expanded t hkept
      rw [hsame] at hcached
      exact ⟨hcached.symm, h, rfl⟩
    · exact hderived
  · exact hderived

/-! ## Runs -/

/-- Every event keeps the session coherent and expands what it should. -/
theorem Coherent.after (hbody : body.Sound) (hf : f.MeasuresSp) (h : Coherent body f s)
    (event : Event) : Coherent body f (s.after event)
      ∧ (s.after event).interaction.expanded
        = event.applied body.revealable s.interaction.expanded := by
  cases event with
  | change c =>
      refine ⟨h.update c, ?_⟩
      show c.applied s.interaction.revealable s.interaction.expanded = _
      rw [h.revealable]
      rfl
  | click ranges => exact h.click ranges
  | read =>
      obtain ⟨-, hcoherent, hinteraction⟩ := h.display hbody hf
      exact ⟨hcoherent, congrArg Interaction.expanded hinteraction⟩

/-- Every run keeps the session coherent and expands what it should. -/
theorem Coherent.run (hbody : body.Sound) (hf : f.MeasuresSp) (h : Coherent body f s)
    (events : List Event) : Coherent body f (s.run events)
      ∧ (s.run events).interaction.expanded
        = events.foldl (fun expanded event => event.applied body.revealable expanded)
          s.interaction.expanded := by
  induction events generalizing s with
  | nil => exact ⟨h, rfl⟩
  | cons event events ih =>
      obtain ⟨hcoherent, hexpanded⟩ := h.after hbody hf event
      obtain ⟨hrun, hfinal⟩ := ih hcoherent
      refine ⟨hrun, ?_⟩
      rw [List.foldl_cons, ← hexpanded]
      exact hfinal

/-- **A session never shows a stale text**: after any run of changes, clicks and
    reads, expanded is what the changes and clicks have expanded, and the text
    that is read is the styled text of the message collapsed for these ids. -/
theorem display_of_run (settings : Settings) (hstyle : settings.style.KeepsLinkContent)
    (nodes : List Markup.Node) {body : Body} {log : List LogRecord}
    (hbody : Body.ofNodes settings nodes = .ok (body, log))
    (hlength : body.text.length < 2147483648) (f : Formatter) (hf : f.MeasuresSp)
    (events : List Event) :
    ∃ styled shown, (f.apply body.text).outcome = .ok styled
      ∧ (styled.collapse (expandedAfter body.revealable events)).outcome = .ok shown
      ∧ ((start f body.text (.fresh body.revealable)).run events).interaction.expanded
        = expandedAfter body.revealable events
      ∧ ((start f body.text (.fresh body.revealable)).run events).display.2.outcome
        = .ok shown := by
  have hsound := Body.sound_of_nodes hstyle hbody hlength
  obtain ⟨hcoherent, hexpanded⟩ := (coherent_start body f).run hsound hf events
  obtain ⟨hread, -, -⟩ := hcoherent.display hsound hf
  obtain ⟨styled, hstyled, -, hwell, htagged⟩ := hsound.apply hf
  have hcollapsed := Collapse.collapse_outcome hwell (hsound.hasReadableIds htagged)
    (expandedAfter body.revealable events)
  refine ⟨styled, _, hstyled, hcollapsed, hexpanded, ?_⟩
  rw [hread, hexpanded]
  exact afresh_eq_ok hstyled hcollapsed

/-- A run that reads, toggles, clicks on a link that is displayed, collapses an id
    that is not there, and expands everything. -/
def eventfulRun : List Event :=
  [.read, .change (.toggle 1), .read, .click [⟨.directive (.clickable "" (some 5) none), 5, 8⟩],
   .change (.collapse [7]), .read, .change .expandAll, .change (.toggle 5)]

/-- At the end of the run only the first of the two details is expanded, and it is displayed so.
    -/
theorem display_of_eventfulRun :
    ∃ styled shown,
      (Formatter.standard.apply (Body.ofContent {} (Content.ofNodes nestedDetails)).text).outcome
        = .ok styled
      ∧ (styled.collapse (.ofList [1])).outcome = .ok shown
      ∧ ((start .standard (Body.ofContent {} (Content.ofNodes nestedDetails)).text
          (.fresh (.ofList [1, 5]))).run eventfulRun).display.2.outcome = .ok shown := by
  obtain ⟨styled, shown, hstyled, hcollapsed, -, hread⟩ := display_of_run {}
    RenderStyle.standard_keepsLinkContent nestedDetails rfl (by decide) .standard
    Formatter.standard_measuresSp eventfulRun
  exact ⟨styled, shown, hstyled, hcollapsed, hread⟩

end MessageBody.Session
