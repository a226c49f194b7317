import MessageBody.Proofs.BodyPayloads
import MessageBody.Proofs.Brackets
import MessageBody.Proofs.Rebasing

/-! # What is on display

    The scan for the windows takes a collapsed range only when it does not start
    inside what is taken out already.  In a bracket structure nothing is lost by
    that: a range that starts inside another one ends inside it.  So of a message
    body exactly those characters are displayed all of whose details contents are
    expanded. -/

namespace MessageBody

/-! ## What the walk promises -/

/-- What collapsing and styling rely on: the ranges form a bracket structure,
    every payload reads, and the id of everything that can be hidden can be
    revealed. -/
structure Body.Sound (body : Body) : Prop where
  bracketed : body.text.Bracketed
  reads : body.text.ItemsSatisfy Item.Reads
  revealed : ∀ r ∈ body.text.tagged .detailsContent,
    ∃ id ∈ body.revealable, Collapse.idOf? r = some id

/-- A range of a kind carries a note of that kind. -/
theorem item_of_mem_tagged {t : AnnotatedText} {tag : Tag} {r : Range} (h : r ∈ t.tagged tag) :
    r ∈ t.ranges ∧ ∃ payload, r.item = .note tag payload := by
  obtain ⟨hmem, htag⟩ := List.mem_filter.mp h
  refine ⟨hmem, ?_⟩
  cases hitem : r.item with
  | directive d =>
      rw [hitem] at htag
      exact absurd htag Bool.false_ne_true
  | note tag' payload =>
      rw [hitem] at htag
      have heq : tag' = tag := by
        simpa [Item.tag?] using htag
      exact ⟨payload, by rw [heq]⟩

/-- Whatever the walk puts together keeps these promises, as far as positions are
    numbers of 31 bits. -/
theorem Fragment.Composed.sound {style : RenderStyle} {limit : Nat} {f : Fragment}
    (h : Composed style limit 0 f) (hlimit : limit < 2147483648)
    (hlength : f.text.length < 2147483648) :
    (Body.ofFragment f).Sound where
  bracketed := h.bracketed
  reads := h.reads hlimit (by omega)
  revealed := by
    intro r hr
    obtain ⟨hmem, payload, hitem⟩ := item_of_mem_tagged hr
    obtain ⟨id, hid, hle, rfl⟩ := h.revealed r hmem payload hitem
    refine ⟨id, ?_, ?_⟩
    · show (id : Int) ∈ IdSet.ofList (f.reveals.map Int.ofNat)
      rw [IdSet.mem_ofList]
      exact List.mem_map_of_mem hid
    · simp only [Collapse.idOf?, hitem]
      exact Text.wholeNumber?_toString (by omega)

/-- The body of a tree is sound. -/
theorem Body.sound_of_nodes {settings : Settings} (hstyle : settings.style.KeepsLinkContent)
    {nodes : List Markup.Node} {body : Body} {log : List LogRecord}
    (h : Body.ofNodes settings nodes = .ok (body, log)) (hlength : body.text.length < 2147483648) :
    body.Sound := by
  obtain ⟨f, hf, rfl⟩ := Body.ofNodes_composed hstyle h
  exact hf.sound (by decide) hlength

/-! ## Visible positions -/

namespace AnnotatedText

variable (t : AnnotatedText) (expanded : IdSet)

/-- The content that a range marks is expanded. -/
def isExpandedContent (expanded : IdSet) (r : Range) : Bool :=
  (Collapse.idOf? r).any fun id => id ∈ expanded

/-- Every details content that covers position `p` is expanded. -/
def isVisible (p : Nat) : Bool :=
  (t.tagged .detailsContent).all fun r => !r.covers p || isExpandedContent expanded r

/-- The characters at visible positions. -/
def visibleChars : List Char :=
  (t.text.zipIdx.filter fun x => t.isVisible expanded x.2).map Prod.fst

variable {t expanded}

/-- A position is visible if every hidden content around it is expanded. -/
theorem isVisible_iff {p : Nat} : t.isVisible expanded p = true ↔
    ∀ r ∈ t.tagged .detailsContent, r.covers p = true → isExpandedContent expanded r = true := by
  simp only [isVisible, List.all_eq_true, Bool.or_eq_true, Bool.not_eq_true']
  constructor
  · intro h r hr hcovers
    rcases h r hr with hnot | hexpanded
    · rw [hcovers] at hnot
      exact absurd hnot (by decide)
    · exact hexpanded
  · intro h r hr
    cases hcovers : r.covers p with
    | false => exact Or.inl rfl
    | true => exact Or.inr (h r hr hcovers)

end AnnotatedText

open AnnotatedText

namespace Collapse

/-- A range with an id is either collapsed or expanded. -/
theorem isCollapsed_eq_not {r : Range} {id : Int} (h : idOf? r = some id) (expanded : IdSet) :
    isCollapsed expanded r = !isExpandedContent expanded r := by
  simp only [isCollapsed, isExpandedContent, h, Option.any_some, decide_not]

variable {t : AnnotatedText}

/-- The ranges of a bracket structure are in the order of their starts. -/
theorem hideable_of_bracketed (ht : t.Bracketed) : hideable t = t.tagged .detailsContent := by
  refine Order.sort_eq_self ?_
  refine (ht.nested.filter _).imp ?_
  intro r s h
  simp only [startsFirst, decide_eq_true_eq]
  exact h.1

/-- In a bracket structure, the positions that are kept are the visible ones. -/
theorem isKept_eq_isVisible (ht : t.Bracketed)
    (hread : ∀ r ∈ t.tagged .detailsContent, ∃ id, idOf? r = some id) {expanded : IdSet}
    {gone : List Range} (h : Removal t expanded gone) (p : Nat) :
    isKept gone p = t.isVisible expanded p := by
  rw [Bool.eq_iff_iff, isVisible_iff]
  constructor
  · intro hkept r hr hcovers
    by_contra hexpanded
    obtain ⟨id, hid⟩ := hread r hr
    have hcollapsed : isCollapsed expanded r = true := by
      rw [isCollapsed_eq_not hid, Bool.not_eq_true']
      exact Bool.eq_false_iff.mpr hexpanded
    have hbounds := Range.covers_iff.mp hcovers
    rcases h.complete r hr hcollapsed with hgone | ⟨s, hs, hsub, hlt⟩
    · exact isKept_iff.mp hkept r hgone hbounds
    · -- the range that starts inside what is taken out ends there too
      rw [hideable_of_bracketed ht] at hsub
      have hopens : s.OpensBefore r := by
        have hpair := ht.nested.sublist (hsub.trans List.filter_sublist)
        exact (List.pairwise_cons.mp hpair).1 r (List.mem_singleton.mpr rfl)
      obtain ⟨hstart, hbehind | hinside⟩ := hopens
      · omega
      · exact isKept_iff.mp hkept s hs ⟨by omega, by omega⟩
  · intro hvisible
    rw [isKept_iff]
    intro r hr hbounds
    obtain ⟨hmem, hcollapsed⟩ := h.collapsed r hr
    obtain ⟨id, hid⟩ := hread r hmem
    rw [isCollapsed_eq_not hid, hvisible r hmem (Range.covers_iff.mpr hbounds)] at hcollapsed
    exact absurd hcollapsed (by decide)

end Collapse

/-! ## Styling and collapsing a body -/

namespace Body

variable {body : Body}

/-- All ranges of a sound body can be read. -/
theorem Sound.readsAll (h : body.Sound) : Formatter.ReadsAll body.text.ranges :=
  h.reads

/-- The ids of a sound body can be read. -/
theorem Sound.hasReadableIds (h : body.Sound) {t : AnnotatedText}
    (ht : t.tagged .detailsContent = body.text.tagged .detailsContent) :
    Collapse.HasReadableIds t := by
  intro r hr
  rw [ht] at hr
  obtain ⟨hmem, payload, hitem⟩ := item_of_mem_tagged hr
  obtain ⟨n, hn⟩ := h.reads r hmem _ _ hitem
  rw [Collapse.HasReadableId, hitem]
  exact Text.wholeNumber_ok_iff.mp ⟨_, hn⟩

/-- A sound body is styled without its characters or its hidden contents being
    touched. -/
theorem Sound.apply (h : body.Sound) {f : Formatter} (hf : f.MeasuresSp) :
    ∃ styled, (f.apply body.text).outcome = .ok styled ∧ styled.text = body.text.text
      ∧ styled.WellFormed
      ∧ styled.tagged .detailsContent = body.text.tagged .detailsContent := by
  obtain ⟨styled, hstyled⟩ := Formatter.apply_eq_ok hf h.readsAll.settledAll
  refine ⟨styled, hstyled, ?_, Formatter.wellFormed_of_apply hstyled h.bracketed.wellFormed,
    Formatter.tagged_of_apply hstyled _⟩
  rw [Formatter.apply_outcome hstyled]

/-- A sound body is displayed by taking out what is not visible. -/
theorem Sound.shows (h : body.Sound) {f : Formatter} (hf : f.MeasuresSp) (expanded : IdSet) :
    ∃ styled shown gone, (f.apply body.text).outcome = .ok styled
      ∧ (styled.collapse expanded).outcome = .ok shown
      ∧ Collapse.Shows gone styled shown
      ∧ ∀ p, Collapse.isKept gone p = body.text.isVisible expanded p := by
  obtain ⟨styled, hstyled, htext, hwell, htagged⟩ := h.apply hf
  refine ⟨styled, _, Collapse.removed styled expanded, hstyled,
    Collapse.collapse_outcome hwell (h.hasReadableIds htagged) expanded,
    Collapse.shows_restrict hwell (Collapse.removal_removed hwell expanded).inOrder, ?_⟩
  -- styling leaves the contents as they are, so the same ranges are taken out
  have hgone : Collapse.removed styled expanded = Collapse.removed body.text expanded := by
    rw [Collapse.removed, Collapse.hideable, htagged]
    rfl
  rw [hgone]
  refine Collapse.isKept_eq_isVisible h.bracketed ?_
    (Collapse.removal_removed h.bracketed.wellFormed expanded)
  intro r hr
  obtain ⟨id, -, hid⟩ := h.revealed r hr
  exact ⟨id, hid⟩

/-- What is displayed of a sound body are its visible characters. -/
theorem Sound.displayed (h : body.Sound) {f : Formatter} (hf : f.MeasuresSp) (expanded : IdSet) :
    ∃ styled shown, (f.apply body.text).outcome = .ok styled
      ∧ (styled.collapse expanded).outcome = .ok shown
      ∧ shown.text = body.text.visibleChars expanded := by
  obtain ⟨styled, shown, gone, hstyled, hshown, hshows, hkept⟩ := h.shows hf expanded
  have hfilter : (body.text.text.zipIdx.filter fun x => Collapse.isKept gone x.2)
      = body.text.text.zipIdx.filter fun x => body.text.isVisible expanded x.2 :=
    List.filter_congr fun x _ => hkept x.2
  refine ⟨styled, shown, hstyled, hshown, ?_⟩
  rw [hshows.text, Formatter.apply_outcome hstyled, Collapse.keptChars, hfilter,
    AnnotatedText.visibleChars]

end Body

/-- **What is displayed of a message**: whatever tree a body is read from,
    whatever formatter styles it and whatever is expanded, the characters on
    display are those all of whose details contents are expanded, and no
    others. -/
theorem displayed_of_nodes (settings : Settings) (hstyle : settings.style.KeepsLinkContent)
    (nodes : List Markup.Node) {body : Body} {log : List LogRecord}
    (hbody : Body.ofNodes settings nodes = .ok (body, log))
    (hlength : body.text.length < 2147483648) (f : Formatter) (hf : f.MeasuresSp)
    (expanded : IdSet) :
    ∃ styled shown, (f.apply body.text).outcome = .ok styled
      ∧ (styled.collapse expanded).outcome = .ok shown
      ∧ shown.text = body.text.visibleChars expanded :=
  (Body.sound_of_nodes hstyle hbody hlength).displayed hf expanded

/-- Details inside details, with text around both. -/
def nestedDetails : List Markup.Node :=
  [.text "a".toList,
   .element "details" []
    [.element "summary" [] [.text "S".toList], .text "b".toList,
     .element "details" [] [.element "summary" [] [.text "T".toList], .text "c".toList]],
   .text "d".toList]

/-- With only the outer details expanded, the inner ones show their summary. -/
theorem displayed_nestedDetails :
    ∃ styled shown,
      (Formatter.standard.apply (Body.ofContent {} (Content.ofNodes nestedDetails)).text).outcome
        = .ok styled
      ∧ (styled.collapse (.ofList [1])).outcome = .ok shown
      ∧ shown.text = "a\u2007\u2007Sb\u2007\u2007Td".toList := by
  obtain ⟨styled, shown, hstyled, hshown, htext⟩ := displayed_of_nodes {}
    RenderStyle.standard_keepsLinkContent nestedDetails rfl (by decide) .standard
    Formatter.standard_measuresSp (.ofList [1])
  exact ⟨styled, shown, hstyled, hshown, htext.trans (by decide)⟩

end MessageBody
