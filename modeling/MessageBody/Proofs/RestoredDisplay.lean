import MessageBody.Proofs.StoredTrees

/-! # Displaying what was stored

    Reading a stored body moves its directives behind its annotations, so what is
    read back differs from what was stored in the order of its ranges.  Display
    does not depend on it as far as annotations stay in their order: the nesting
    depth and what is taken out are found from annotations alone, and everything
    else is done range by range. -/

namespace MessageBody

/-! ## Texts up to the order of their ranges -/

/-- The text `u` is `t` with its ranges in another order, in which annotations keep
    theirs. -/
structure AnnotatedText.Reordered (t u : AnnotatedText) : Prop where
  text : u.text = t.text
  perm : u.ranges.Perm t.ranges
  annotations : u.annotations = t.annotations

/-- Directives do not nest. -/
theorem Nesting.depthRanges_filter (rs : List Range) :
    depthRanges (rs.filter fun r => r.item.isNote) = depthRanges rs := by
  induction rs with
  | nil => rfl
  | cons r rs ih =>
      cases hitem : r.item with
      | note tag payload =>
          rw [List.filter_cons_of_pos (by rw [hitem]; rfl), depthRanges_cons, depthRanges_cons, ih]
      | directive d =>
          have hnone : depthRange? r = .ok none := by rw [depthRange?, hitem]
          rw [List.filter_cons_of_neg (by rw [hitem]; exact Bool.false_ne_true), ih,
            depthRanges_cons, hnone]
          cases depthRanges rs <;> rfl

namespace AnnotatedText.Reordered

variable {t u : AnnotatedText}

/-- Reordering directives leaves the annotations of each kind as they are. -/
theorem tagged (h : t.Reordered u) (tag : Tag) : u.tagged tag = t.tagged tag := by
  rw [tagged_eq, tagged_eq, h.annotations]

/-- Reordering keeps the ranges in the text. -/
theorem wellFormed (h : t.Reordered u) (ht : t.WellFormed) : u.WellFormed := by
  intro r hr
  have hbounds := ht r (h.perm.mem_iff.mp hr)
  rwa [length, h.text]

/-- Reordering directives changes no depth. -/
theorem nesting (h : t.Reordered u) : Nesting.ofText u = Nesting.ofText t := by
  have hnotes : u.ranges.filter (fun r => r.item.isNote) = t.ranges.filter fun r => r.item.isNote :=
    h.annotations
  rw [Nesting.ofText, Nesting.ofText, ← Nesting.depthRanges_filter u.ranges, hnotes,
    Nesting.depthRanges_filter]

/-- Styled texts differ as the texts do. -/
theorem apply (h : t.Reordered u) {f : Formatter} (hf : f.MeasuresSp) {styled : AnnotatedText}
    (hstyled : (f.apply t).outcome = .ok styled) :
    ∃ styled', (f.apply u).outcome = .ok styled' ∧ styled.Reordered styled' := by
  have hsettled : Formatter.SettledAll u.ranges := fun r hr =>
    (Formatter.apply_ok_iff hf).mp ⟨styled, hstyled⟩ r (h.perm.mem_iff.mp hr)
  obtain ⟨styled', hstyled'⟩ := Formatter.apply_eq_ok hf hsettled
  refine ⟨styled', hstyled', ?_⟩
  have hannotations : styled'.annotations = styled.annotations := by
    rw [Formatter.annotations_of_apply hstyled, Formatter.annotations_of_apply hstyled']
    exact h.annotations
  refine ⟨?_, ?_, hannotations⟩
  · rw [Formatter.apply_outcome hstyled, Formatter.apply_outcome hstyled']
    exact h.text
  · rw [Formatter.apply_outcome hstyled, Formatter.apply_outcome hstyled', h.nesting]
    exact h.perm.flatMap_right _

/-- Collapsed texts have the same characters and the same ranges. -/
theorem collapse (h : t.Reordered u) (ht : t.WellFormed) (hread : Collapse.HasReadableIds t)
    (expanded : IdSet) :
    ∃ shown shown', (t.collapse expanded).outcome = .ok shown
      ∧ (u.collapse expanded).outcome = .ok shown'
      ∧ shown'.text = shown.text ∧ shown'.ranges.Perm shown.ranges := by
  have hread' : Collapse.HasReadableIds u := by
    rw [Collapse.HasReadableIds, h.tagged]
    exact hread
  -- ranges of one tag keep their order, so the same ones are taken out of both texts
  have hremoved : Collapse.removed u expanded = Collapse.removed t expanded := by
    rw [Collapse.removed, Collapse.hideable, h.tagged]
    rfl
  refine ⟨_, _, Collapse.collapse_outcome ht hread expanded,
    Collapse.collapse_outcome (h.wellFormed ht) hread' expanded, ?_, ?_⟩
  · rw [hremoved, length, h.text]
    show Collapse.slices u.text _ = _
    rw [h.text]
    rfl
  · rw [hremoved, length, h.text]
    exact h.perm.flatMap_right _

end AnnotatedText.Reordered

/-- A text without clickable regions is read back with its ranges in another
    order. -/
theorem AnnotatedText.reordered_restored {t : AnnotatedText}
    (h : ∀ r ∈ t.ranges, r.isStored = true) : t.Reordered t.restored := by
  have hstored : t.directives.filter Range.isStored = t.directives :=
    List.filter_eq_self.mpr fun r hr => h r (List.mem_filter.mp hr).1
  refine ⟨rfl, ?_, ?_⟩
  · rw [restored, hstored]
    exact List.filter_append_perm _ _
  · have hnotes : t.annotations.filter (fun r => r.item.isNote) = t.annotations :=
      List.filter_eq_self.mpr fun r hr => (List.mem_filter.mp hr).2
    have hnone : t.directives.filter (fun r => r.item.isNote) = [] := by
      refine List.filter_eq_nil_iff.mpr fun r hr => ?_
      simpa using (List.mem_filter.mp hr).2
    rw [annotations, restored, hstored, List.filter_append, hnotes, hnone, List.append_nil]

/-- The body of a tree has no clickable region. -/
theorem Body.isStored_of_nodes {settings : Settings} (hstyle : settings.style.KeepsLinkContent)
    {nodes : List Markup.Node} {body : Body} {log : List LogRecord}
    (h : Body.ofNodes settings nodes = .ok (body, log)) :
    ∀ r ∈ body.text.ranges, r.isStored = true := by
  obtain ⟨f, hf, rfl⟩ := Body.ofNodes_composed hstyle h
  intro r hr
  have hitem := hf.onlyEmphasizes r hr
  rw [Range.isStored]
  cases hr : r.item with
  | note tag payload => rfl
  | directive d =>
      obtain ⟨e, rfl⟩ := hitem d hr
      rfl

/-- **A stored message is displayed as before**: whatever tree a body is read from,
    whatever formatter styles it and whatever is expanded, what is read back from
    the stored body is displayed with the same characters and the same ranges. -/
theorem displayed_restored (settings : Settings) (hstyle : settings.style.KeepsLinkContent)
    (nodes : List Markup.Node) {body : Body} {log : List LogRecord}
    (hbody : Body.ofNodes settings nodes = .ok (body, log))
    (hlength : body.text.length < 2147483648) (f : Formatter) (hf : f.MeasuresSp)
    (expanded : IdSet) :
    ∃ stored document restored,
      (body.write none = .ok stored ∧ Storage.Document.read stored.toList = .ok document
        ∧ document.body? = some restored)
      ∧ ∃ styled shown styled' shown',
        ((f.apply body.text).outcome = .ok styled
          ∧ (styled.collapse expanded).outcome = .ok shown)
        ∧ ((f.apply restored.text).outcome = .ok styled'
          ∧ (styled'.collapse expanded).outcome = .ok shown')
        ∧ shown'.text = shown.text ∧ shown'.ranges.Perm shown.ranges := by
  have hsound := Body.sound_of_nodes hstyle hbody hlength
  -- the ranges come back in another order, which styling and collapsing do not look at
  have hreordered := AnnotatedText.reordered_restored (Body.isStored_of_nodes hstyle hbody)
  obtain ⟨stored, hwrite, hread⟩ :=
    (Body.isStorable_of_nodes hstyle hbody hlength).read_restored
      (show Storage.layout none = .ok ⟨false, none⟩ from rfl)
  obtain ⟨styled, hstyled, -, hwell, htagged⟩ := hsound.apply hf
  obtain ⟨styled', hstyled', hreordered'⟩ := hreordered.apply hf hstyled
  obtain ⟨shown, shown', hshown, hshown', htext, hranges⟩ :=
    hreordered'.collapse hwell (hsound.hasReadableIds htagged) expanded
  exact ⟨stored, _, body.restored, ⟨hwrite, hread, Body.body?_toDocument _⟩, styled, shown, styled',
    shown', ⟨hstyled, hshown⟩, ⟨hstyled', hshown'⟩, htext, hranges⟩

/-- Bold text around a quote and details, with an image in them. -/
def boldDetails : List Markup.Node :=
  [.element "b" []
    [.element "blockquote" [] [.text "a".toList],
     .element "details" []
      [.element "summary" [] [.element "i" [] [.text "b\"".toList]],
       .element "img" [("src", "mxc://s/i"), ("width", "20")] [],
       .element "s" [] [.element "a" [("href", "https://matrix.to/#/@u:s")] [.text "é".toList]]]]]

/-- Stored with its emphases behind its annotations, and with nothing expanded. -/
theorem displayed_restored_boldDetails :
    ∃ stored document restored,
      ((Body.ofContent {} (Content.ofNodes boldDetails)).write none = .ok stored
        ∧ Storage.Document.read stored.toList = .ok document ∧ document.body? = some restored)
      ∧ ∃ styled shown styled' shown',
        ((Formatter.standard.apply (Body.ofContent {} (Content.ofNodes boldDetails)).text).outcome
            = .ok styled
          ∧ (styled.collapse .empty).outcome = .ok shown)
        ∧ ((Formatter.standard.apply restored.text).outcome = .ok styled'
          ∧ (styled'.collapse .empty).outcome = .ok shown')
        ∧ shown'.text = shown.text ∧ shown'.ranges.Perm shown.ranges :=
  displayed_restored {} RenderStyle.standard_keepsLinkContent boldDetails rfl (by decide) .standard
    Formatter.standard_measuresSp .empty

end MessageBody
