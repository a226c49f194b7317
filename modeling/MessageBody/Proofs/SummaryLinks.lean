import MessageBody.Proofs.Identifiers
import MessageBody.Proofs.Sessions

/-! # Links in summaries

    A summary is the link that opens and closes its details element.  The link is
    put on the whole text and moved into what is displayed together with the
    characters that it covers, so it has to cover one: that is what the placeholder
    in front of every summary is for. -/

namespace MessageBody

open Fragment

/-! ## Summaries cover something -/

/-- The range covers something if it is a summary. -/
def Range.IsNoEmptySummary (r : Range) : Prop :=
  r.item.tag? = some .detailsSummary → r.start < r.stop

theorem holdsOfRanges_isNoEmptySummary {limit : Nat} (hlimit : 0 < limit) :
    HoldsOfRanges Range.IsNoEmptySummary limit where
  unkeyed := fun r hr htag => absurd htag (Item.tag?_ne_of_not_isKeyed hr rfl)
  image := fun _ _ _ htag => nomatch htag
  span := fun _ _ _ htag => nomatch htag
  summary := by
    intro id start stop hshown _
    show start < stop
    omega
  content := fun _ _ _ htag => nomatch htag

/-- Behind a placeholder that is not empty, no summary of a body is empty. -/
theorem Body.isNoEmptySummary_of_nodes {settings : Settings}
    (hstyle : settings.style.KeepsLinkContent) (hplaceholder : settings.style.summaryPlaceholder ≠ "")
    {nodes : List Markup.Node} {body : Body} {log : List LogRecord}
    (h : Body.ofNodes settings nodes = .ok (body, log)) :
    ∀ r ∈ body.text.ranges, r.IsNoEmptySummary := by
  obtain ⟨f, hf, rfl⟩ := Body.ofNodes_composed hstyle h
  have hlength : 0 < settings.style.summaryPlaceholder.toList.length := by
    rw [String.length_toList, Nat.pos_iff_ne_zero]
    exact mt String.length_eq_zero_iff.mp hplaceholder
  intro r hr
  have hsatisfied := hf.rangesSatisfy (holdsOfRanges_isNoEmptySummary hlength) r hr
  rw [Range.shift_zero] at hsatisfied
  exact hsatisfied

/-! ## Links in what is displayed -/

/-- The payload of a summary is an id. -/
theorem Body.Sound.summary {body : Body} (h : body.Sound) {r : Range}
    (hr : r ∈ body.text.tagged .detailsSummary) :
    ∃ payload id, r.item = .note .detailsSummary payload
      ∧ Text.wholeNumber payload.toList = .ok (some id) ∧ Collapse.idOf? r = some id := by
  obtain ⟨hmem, payload, hitem⟩ := item_of_mem_tagged hr
  obtain ⟨id, hid⟩ := h.reads r hmem _ _ hitem
  refine ⟨payload, id, hitem, hid, ?_⟩
  rw [Collapse.idOf?, hitem]
  exact Text.wholeNumber?_of_ok hid

/-- A summary is styled as the link that toggles its id. -/
theorem Formatter.directivesOf_summary (f : Formatter)
    (nesting : Except Text.TooManyDigits Nesting) {r : Range} {payload : String} {id : Int}
    (hitem : r.item = .note .detailsSummary payload)
    (hid : Text.wholeNumber payload.toList = .ok (some id)) :
    f.directivesOf nesting r = f.summary id := by
  rw [directivesOf, hitem]
  show (f.present nesting r.start .detailsSummary payload).outcome.toOption.getD [] = _
  rw [present, numbered, hid]
  rfl

/-- What presents an annotation covers what the annotation covers. -/
theorem Formatter.mem_itemsAt_of_mem_directivesOf {f : Formatter} {t styled : AnnotatedText}
    (hstyled : (f.apply t).outcome = .ok styled) {r : Range} (hr : r ∈ t.ranges) {d : Directive}
    (hd : d ∈ f.directivesOf (Nesting.ofText t) r) {p : Nat} (hcovers : r.covers p = true) :
    .directive d ∈ styled.itemsAt p := by
  have hmem : ⟨.directive d, r.start, r.stop⟩ ∈ styled.ranges := by
    rw [Formatter.apply_outcome hstyled]
    exact List.mem_flatMap.mpr ⟨r, hr, List.mem_append_left _ (List.mem_map_of_mem hd)⟩
  exact List.mem_map.mpr ⟨_, List.mem_filter.mpr ⟨hmem, hcovers⟩, rfl⟩

namespace AnnotatedText

/-- The number of visible positions before position `p`, where it is displayed if it
    is visible. -/
def visibleBefore (t : AnnotatedText) (expanded : IdSet) (p : Nat) : Nat :=
  (List.range p).countP (t.isVisible expanded)

/-- A position moves to the number of visible ones in front of it. -/
theorem image_eq_visibleBefore {t : AnnotatedText} {expanded : IdSet} {gone : List Range}
    (h : ∀ p, Collapse.isKept gone p = t.isVisible expanded p) (p : Nat) :
    Collapse.image gone p = t.visibleBefore expanded p := by
  have hkept : Collapse.isKept gone = t.isVisible expanded := funext h
  rw [Collapse.image, Collapse.keptFrom, hkept, visibleBefore, List.range_eq_range']

end AnnotatedText

/-- At a visible position, a sound body is displayed with what it has there, and with
    what presents that. -/
theorem Body.Sound.shown_at {body : Body} (h : body.Sound) {f : Formatter} (hf : f.MeasuresSp)
    (expanded : IdSet) :
    ∃ shown, Session.afresh f body.text expanded = .ok shown
      ∧ ∀ p, p < body.text.length → body.text.isVisible expanded p = true →
        shown.text[body.text.visibleBefore expanded p]? = body.text.text[p]?
        ∧ ∀ r ∈ body.text.ranges, r.covers p = true →
          ∀ d ∈ f.directivesOf (Nesting.ofText body.text) r, ∃ link ∈ shown.ranges,
            link.covers (body.text.visibleBefore expanded p) = true ∧ link.item = .directive d := by
  obtain ⟨styled, shown, gone, hstyled, hshown, hshows, hkept⟩ := h.shows hf expanded
  have htext : styled.text = body.text.text := by
    rw [Formatter.apply_outcome hstyled]
  refine ⟨shown, Session.afresh_eq_ok hstyled hshown, ?_⟩
  intro p hp hvisible
  have hlt : p < styled.length := by
    rw [AnnotatedText.length, htext]
    exact hp
  have hstays : Collapse.isKept gone p = true := by
    rw [hkept, hvisible]
  rw [← AnnotatedText.image_eq_visibleBefore hkept p, ← htext]
  refine ⟨hshows.char p hlt hstays, ?_⟩
  intro r hr hcovers d hd
  have hitem := Formatter.mem_itemsAt_of_mem_directivesOf hstyled hr hd hcovers
  rw [← hshows.items p hlt hstays] at hitem
  obtain ⟨link, hlink, hitem⟩ := List.mem_map.mp hitem
  obtain ⟨hlink, hcovers⟩ := List.mem_filter.mp hlink
  exact ⟨link, hlink, hcovers, hitem⟩

namespace Session

/-- A click on a link toggles its id and does nothing else. -/
theorem click_clickToReveal (s : Session) (f : Formatter) {id : Int} {link : Range}
    (h : link.item = .directive (f.clickToReveal id)) :
    s.click [link] = s.update (.toggle id) := by
  have htarget : clickTarget? link = some id := by
    rw [clickTarget?, h]
    rfl
  rw [click, List.filterMap_cons_some htarget]
  rfl

/-- **Visible details can be opened and closed**: whatever has happened in a session
    before, wherever a summary starts that is in no collapsed content, what is displayed
    there is a link, and a click on it toggles the id of the summary and leaves all else
    as it is. -/
theorem summaryLink_of_run (settings : Settings) (hstyle : settings.style.KeepsLinkContent)
    (hplaceholder : settings.style.summaryPlaceholder ≠ "") (nodes : List Markup.Node)
    {body : Body} {log : List LogRecord} (hbody : Body.ofNodes settings nodes = .ok (body, log))
    (hlength : body.text.length < 2147483648) (f : Formatter) (hf : f.MeasuresSp)
    (events : List Event) {s : Session}
    (hs : (start f body.text (.fresh body.revealable)).run events = s) :
    ∃ shown, s.display.2.outcome = .ok shown
      ∧ ∀ r ∈ body.text.tagged .detailsSummary, ∃ id, Collapse.idOf? r = some id
        ∧ ((∀ c ∈ body.text.tagged .detailsContent, c.covers r.start = true →
            ∃ i ∈ s.interaction.expanded, Collapse.idOf? c = some i) →
          ∃ link ∈ shown.ranges,
            link.covers (body.text.visibleBefore s.interaction.expanded r.start) = true
            ∧ link.item = .directive (f.clickToReveal id)
            ∧ shown.text[body.text.visibleBefore s.interaction.expanded r.start]?
              = body.text.text[r.start]?
            ∧ (s.display.1.click [link]).interaction
              = { s.interaction with expanded := s.interaction.expanded.toggle id }
            ∧ ∀ i, i ∈ (s.display.1.click [link]).interaction.expanded
              ↔ (i ∈ s.interaction.expanded ↔ i ≠ id)) := by
  subst hs
  have hsound := Body.sound_of_nodes hstyle hbody hlength
  obtain ⟨hcoherent, -⟩ := (coherent_start body f).run hsound hf events
  -- of the events it only matters that they leave the session coherent
  generalize (start f body.text (.fresh body.revealable)).run events = s at hcoherent ⊢
  obtain ⟨hread, -, hinteraction⟩ := hcoherent.display hsound hf
  obtain ⟨shown, hshown, hplace⟩ := hsound.shown_at hf s.interaction.expanded
  refine ⟨shown, hread.trans hshown, ?_⟩
  intro r hr
  obtain ⟨payload, id, hitem, hnumber, hid⟩ := hsound.summary hr
  refine ⟨id, hid, ?_⟩
  intro hexpanded
  have hmem := (item_of_mem_tagged hr).1
  have hlt : r.start < r.stop :=
    Body.isNoEmptySummary_of_nodes hstyle hplaceholder hbody r hmem (by rw [hitem]; rfl)
  have hinside : r.start < body.text.length :=
    Nat.lt_of_lt_of_le hlt (hsound.bracketed.wellFormed r hmem).2
  -- all that the summary lies in is expanded, so its sign is in the text
  have hvisible : body.text.isVisible s.interaction.expanded r.start = true := by
    rw [AnnotatedText.isVisible_iff]
    intro c hc hcovers
    obtain ⟨i, hi, hc⟩ := hexpanded c hc hcovers
    simp only [AnnotatedText.isExpandedContent, hc, Option.any_some, decide_eq_true_eq]
    exact hi
  obtain ⟨hchar, hlinks⟩ := hplace r.start hinside hvisible
  obtain ⟨link, hlink, hcovers, hdirective⟩ :=
    hlinks r hmem (Range.covers_iff.mpr ⟨Nat.le_refl _, hlt⟩) (f.clickToReveal id) (by
      rw [f.directivesOf_summary _ hitem hnumber]
      exact List.mem_cons_of_mem _ (List.mem_singleton.mpr rfl))
  have hclick : (s.display.1.click [link]).interaction
      = { s.interaction with expanded := s.interaction.expanded.toggle id } := by
    rw [click_clickToReveal _ f hdirective, ← hinteraction]
    rfl
  refine ⟨link, hlink, hcovers, hdirective, hchar, hclick, ?_⟩
  intro i
  rw [hclick]
  exact IdSet.mem_toggle

/-- A session in which the outer of two details elements has been opened. -/
def outerOpened : Session :=
  (start .standard (Body.ofContent {} (Content.ofNodes nestedDetails)).text
    (.fresh (.ofList [1, 5]))).run [.read, .change (.toggle 1)]

/-- A click on the inner summary, while the outer details are open, opens the inner ones. -/
theorem summaryLink_outerOpened :
    ∃ shown, outerOpened.display.2.outcome = .ok shown
      ∧ ∃ link ∈ shown.ranges, link.covers 5 = true ∧ shown.text[5]? = some '\u2007'
        ∧ (outerOpened.display.1.click [link]).interaction.expanded = .ofList [1, 5] := by
  have hexpanded : outerOpened.interaction.expanded = .ofList [1] := by
    rfl
  have hinner : ⟨.note .detailsSummary "5", 5, 8⟩
      ∈ (Body.ofContent {} (Content.ofNodes nestedDetails)).text.tagged .detailsSummary :=
    List.mem_cons_of_mem _ (List.mem_singleton.mpr rfl)
  have hcontents : (Body.ofContent {} (Content.ofNodes nestedDetails)).text.tagged .detailsContent
      = [⟨.note .detailsContent "1", 4, 9⟩, ⟨.note .detailsContent "5", 8, 9⟩] := by
    rfl
  obtain ⟨shown, hshown, hsummaries⟩ := summaryLink_of_run {} RenderStyle.standard_keepsLinkContent
    (by decide) nestedDetails rfl (by decide) .standard Formatter.standard_measuresSp
    [.read, .change (.toggle 1)] (s := outerOpened) rfl
  refine ⟨shown, hshown, ?_⟩
  obtain ⟨id, hid, hlinks⟩ := hsummaries _ hinner
  obtain rfl : 5 = id := Option.some.inj hid
  rw [hexpanded, hcontents] at hlinks
  obtain ⟨link, hlink, hcovers, -, hchar, hclick, -⟩ := hlinks (by
    -- only the contents of the outer details are around it
    intro c hc hcovers
    rcases List.mem_cons.mp hc with rfl | hc
    · exact ⟨1, by decide, rfl⟩
    · rw [List.mem_singleton.mp hc] at hcovers
      exact absurd hcovers (by decide))
  refine ⟨link, hlink, hcovers, hchar, ?_⟩
  rw [hclick]
  rfl

end Session

end MessageBody
