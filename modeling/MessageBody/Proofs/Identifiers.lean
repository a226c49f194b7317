import MessageBody.Proofs.Brackets
import MessageBody.Proofs.Disclosures
import MessageBody.Proofs.Summaries

/-! # The ids of message bodies

    An id is the position in the document where its element starts.  It is written
    when the element is rendered, for the content of a deep link before that
    content has its place in the text, and never touched again.  So three things
    have to agree in the end: the ids in payloads, the places where the ranges
    start, and the ids that the body lists.

    For spans, for the lists of ids and for images this follows from how fragments
    are put together. -/

namespace MessageBody

open Fragment

/-! ## Ranges in the document, and items -/

namespace AnnotatedText

/-- The ranges of a text that begins at position `o` of the document satisfy `P`
    where they stand in the document. -/
def RangesSatisfy (P : Range → Prop) (o : Nat) (t : AnnotatedText) : Prop :=
  ∀ r ∈ t.ranges, P (r.shift o)

/-- Some item of the text satisfies `P`. -/
def SomeItem (P : Item → Prop) (t : AnnotatedText) : Prop :=
  ∃ r ∈ t.ranges, P r.item

section

variable {P : Range → Prop} {Q : Item → Prop} {o : Nat} {t u : AnnotatedText}

theorem rangesSatisfy_plain (s : List Char) : (plain s).RangesSatisfy P o :=
  fun _ hr => nomatch hr

/-- The ranges of the second text are seen from behind the first. -/
theorem rangesSatisfy_append (ht : t.RangesSatisfy P o) (hu : u.RangesSatisfy P (o + t.length)) :
    (t ++ u).RangesSatisfy P o := by
  intro r hr
  rcases List.mem_append.mp hr with hr | hr
  · exact ht r hr
  · obtain ⟨s, hs, rfl⟩ := List.mem_map.mp hr
    rw [Range.shift_shift]
    exact hu s hs

/-- A range around all of a text comes to its ranges. -/
theorem rangesSatisfy_marked {item : Item} (hitem : P ⟨item, o, o + t.length⟩)
    (ht : t.RangesSatisfy P o) : (t.marked item).RangesSatisfy P o := by
  intro r hr
  rcases List.mem_cons.mp hr with rfl | hr
  · exact hitem
  · exact ht r hr

@[simp] theorem someItem_plain (s : List Char) : ¬ (plain s).SomeItem Q :=
  fun ⟨_, hr, _⟩ => nomatch hr

/-- An item of two texts is one of the first or of the second. -/
@[simp] theorem someItem_append : (t ++ u).SomeItem Q ↔ t.SomeItem Q ∨ u.SomeItem Q := by
  constructor
  · rintro ⟨r, hr, hitem⟩
    rcases List.mem_append.mp hr with hr | hr
    · exact Or.inl ⟨r, hr, hitem⟩
    · obtain ⟨s, hs, rfl⟩ := List.mem_map.mp hr
      exact Or.inr ⟨s, hs, hitem⟩
  · rintro (⟨r, hr, hitem⟩ | ⟨r, hr, hitem⟩)
    · exact ⟨r, List.mem_append_left _ hr, hitem⟩
    · exact ⟨r.shift t.length, List.mem_append_right _ (List.mem_map_of_mem hr), hitem⟩

/-- An item that is put around a text comes to its items. -/
@[simp] theorem someItem_marked {item : Item} :
    (t.marked item).SomeItem Q ↔ Q item ∨ t.SomeItem Q := by
  constructor
  · rintro ⟨r, hr, hitem⟩
    rcases List.mem_cons.mp hr with rfl | hr
    · exact Or.inl hitem
    · exact Or.inr ⟨r, hr, hitem⟩
  · rintro (hitem | ⟨r, hr, hitem⟩)
    · exact ⟨_, List.mem_cons_self .., hitem⟩
    · exact ⟨r, List.mem_cons_of_mem _ hr, hitem⟩

end

end AnnotatedText

/-! ## Spans -/

/-- A range of a span holds the position where it starts. -/
def Range.HoldsStart (r : Range) : Prop :=
  ∀ payload, r.item = .note .span payload →
    ∃ look : SpanLook, payload = (spanAttributes look r.start).payload

/-- Only spans have to hold where they start. -/
theorem holdsStart_of_tag_ne {r : Range} (h : r.item.tag? ≠ some .span) : r.HoldsStart := by
  intro payload hitem
  rw [hitem] at h
  exact absurd rfl h

namespace Fragment

variable {style : RenderStyle} {limit o : Nat} {f : Fragment}

/-- `P` holds of what the walk makes of a stretch of the document, where `limit`
    characters at least are shown in front of a summary. -/
structure HoldsOfRanges (P : Range → Prop) (limit : Nat) : Prop where
  unkeyed : ∀ r : Range, r.item.isKeyed = false → P r
  image : ∀ key start stop, P ⟨.note .inlineImage key, start, stop⟩
  span : ∀ look start stop, P ⟨.note .span (spanAttributes look start).payload, start, stop⟩
  summary : ∀ id start stop, start + limit ≤ stop →
    P ⟨.note .detailsSummary (payloadOf id), start, stop⟩
  content : ∀ id start stop, P ⟨.note .detailsContent (payloadOf id), start, stop⟩

/-- What holds of the ranges of content and of a hidden part holds when it is hidden. -/
theorem HoldsOfRanges.hidden {P : Range → Prop} {limit : Nat} (hP : HoldsOfRanges P limit)
    (id o : Nat) {f? : Option Fragment} (hf : ∀ f, f? = some f → f.text.RangesSatisfy P o) :
    (hidden id f?).text.RangesSatisfy P o := by
  cases f? with
  | none => exact AnnotatedText.rangesSatisfy_plain []
  | some f => exact AnnotatedText.rangesSatisfy_marked (hP.content id _ _) (hf f rfl)

/-- Wherever a fragment is put, `P` holds of its ranges. -/
theorem Composed.rangesSatisfy {P : Range → Prop}
    (hP : HoldsOfRanges P style.summaryPlaceholder.toList.length) (h : Composed style limit o f) :
    f.text.RangesSatisfy P o := by
  induction h with
  | chars s => exact AnnotatedText.rangesSatisfy_plain s
  | linked s =>
      intro r hr
      have hitem : r.item.isKeyed = false := not_isKeyed_of_mem_linkedText hr
      exact hP.unkeyed _ hitem
  | image info =>
      exact AnnotatedText.rangesSatisfy_marked (hP.image ..) (AnnotatedText.rangesSatisfy_plain _)
  | append _ _ hf hg => exact AnnotatedText.rangesSatisfy_append hf hg
  | marked hitem _ hf =>
      exact AnnotatedText.rangesSatisfy_marked (hP.unkeyed _ hitem.isKeyed_eq) hf
  | span look _ hf => exact AnnotatedText.rangesSatisfy_marked (hP.span look _ _) hf
  | @details o before after label summary hlabel _ _ _ hbefore hsummary hafter =>
      -- the label begins with the placeholder
      have hlength : style.summaryPlaceholder.toList.length ≤ label.text.length := by
        rw [hlabel, Fragment.text_append, AnnotatedText.length_append]
        exact Nat.le_add_right ..
      refine AnnotatedText.rangesSatisfy_append (AnnotatedText.rangesSatisfy_append
        (hP.hidden o o hbefore) (AnnotatedText.rangesSatisfy_marked
          (hP.summary _ _ _ (Nat.add_le_add_left hlength _)) ?_)) (hP.hidden o _ ?_)
      · rw [hlabel]
        exact AnnotatedText.rangesSatisfy_append (AnnotatedText.rangesSatisfy_plain _) hsummary
      · rw [Fragment.text_append, AnnotatedText.length_append, ← Nat.add_assoc]
        exact hafter

/-- Wherever a fragment is put, its spans hold the positions where they start. -/
theorem Composed.holdsStart (h : Composed style limit o f) :
    f.text.RangesSatisfy Range.HoldsStart o := by
  refine h.rangesSatisfy ?_
  constructor
  · intro r hr
    exact holdsStart_of_tag_ne (Item.tag?_ne_of_not_isKeyed hr rfl)
  · intro key start stop
    exact holdsStart_of_tag_ne nofun
  · rintro look start stop payload ⟨⟩
    exact ⟨look, rfl⟩
  · intro id start stop _
    exact holdsStart_of_tag_ne nofun
  · intro id start stop
    exact holdsStart_of_tag_ne nofun

end Fragment

/-! ## What the body lists -/

/-- A number below a power of ten has at most that many digits. -/
theorem length_toDigits_le {n k : Nat} (hk : 0 < k) (h : n < Nat.pow 10 k) :
    (Nat.toDigits 10 n).length ≤ k :=
  (Nat.length_toDigits_le_iff (by decide) hk).mpr h

/-- The attributes of a span are read back from its payload, wherever in a text
    of so many characters it stands. -/
theorem ofPayload_spanAttributes (look : SpanLook) {p : Nat}
    (h : p < Nat.pow 10 Text.TooManyDigits.limit) :
    SpanAttributes.ofPayload (spanAttributes look p).payload = .ok (spanAttributes look p) :=
  SpanAttributes.ofPayload_payload
    (spanAttributes_hasReadableNumbers look (length_toDigits_le (by decide) h))

/-- An item announces that `id` can be revealed: the span of a spoiler that holds
    it, or a summary that has it for its payload. -/
def Item.Announces (id : Int) (item : Item) : Prop :=
  (∃ payload a, item = .note .span payload ∧ SpanAttributes.ofPayload payload = .ok a
      ∧ a.isSpoiler = true ∧ a.revealId = id)
    ∨ ∃ n : Nat, item = .note .detailsSummary (payloadOf n) ∧ id = n

/-- Only spans and summaries announce what can be revealed. -/
theorem not_announces {id : Int} {item : Item} (hspan : item.tag? ≠ some .span)
    (hsummary : item.tag? ≠ some .detailsSummary) : ¬ item.Announces id := by
  rintro (⟨payload, a, rfl, -⟩ | ⟨n, rfl, -⟩)
  · exact hspan rfl
  · exact hsummary rfl

/-- What is told by no number announces nothing. -/
theorem not_announces_of_not_isKeyed {id : Int} {item : Item} (h : item.isKeyed = false) :
    ¬ item.Announces id :=
  not_announces (Item.tag?_ne_of_not_isKeyed h rfl) (Item.tag?_ne_of_not_isKeyed h rfl)

/-- A span announces where it starts if it is a spoiler. -/
theorem announces_span_iff (id : Int) {o : Nat} (look : SpanLook)
    (ho : o < Nat.pow 10 Text.TooManyDigits.limit) :
    (Item.note .span (spanAttributes look o).payload).Announces id
      ↔ look.isSpoiler = true ∧ id = o := by
  have hread := ofPayload_spanAttributes look ho
  constructor
  · rintro (⟨payload, a, ⟨⟩, ha, hspoiler, hid⟩ | ⟨n, h, -⟩)
    · rw [hread] at ha
      cases ha
      exact ⟨hspoiler, hid.symm⟩
    · exact nomatch h
  · rintro ⟨hspoiler, rfl⟩
    exact Or.inl ⟨_, _, rfl, hread, hspoiler, rfl⟩

/-- A summary announces where its details element starts. -/
theorem announces_summary_iff {id : Int} {o : Nat} :
    (Item.note .detailsSummary (payloadOf o)).Announces id ↔ id = o := by
  constructor
  · rintro (⟨payload, a, h, -⟩ | ⟨n, h, rfl⟩)
    · exact nomatch h
    · injection h with _ hpayload
      rw [payloadOf_injective hpayload]
  · rintro rfl
    exact Or.inr ⟨o, rfl, rfl⟩

namespace Fragment

variable {style : RenderStyle} {limit o : Nat} {f : Fragment}

/-- The ids that a fragment lists. -/
def ids (f : Fragment) : List Int :=
  f.reveals.map Int.ofNat

/-- What is hidden has the ids of the content. -/
theorem mem_ids_hidden (o : Nat) (f? : Option Fragment) (id : Int) :
    id ∈ (hidden o f?).ids ↔ ∃ f, f? = some f ∧ id ∈ f.ids := by
  cases f? <;> simp [hidden, ids, Fragment.empty]

theorem mem_images_hidden (o : Nat) (f? : Option Fragment) (key : String) :
    key ∈ (hidden o f?).images.map Prod.fst ↔ ∃ f, f? = some f ∧ key ∈ f.images.map Prod.fst := by
  cases f? <;> simp [hidden, Fragment.empty]

/-- What is hidden has the items of the content, apart from its own. -/
theorem someItem_hidden {Q : Item → Prop} {o : Nat}
    (hcontent : ¬ Q (.note .detailsContent (payloadOf o))) (f? : Option Fragment) :
    (hidden o f?).text.SomeItem Q ↔ ∃ f, f? = some f ∧ f.text.SomeItem Q := by
  cases f? with
  | none => simp [hidden, Fragment.empty, AnnotatedText.empty]
  | some f => simp [hidden, hcontent]

/-- The items of a details element are those of its parts and the marks of the
    parts. -/
theorem someItem_asDetails {Q : Item → Prop} {o : Nat}
    (hcontent : ¬ Q (.note .detailsContent (payloadOf o))) (before after : Option Fragment)
    (label : Fragment) :
    (asDetails o before label after).text.SomeItem Q
      ↔ Q (.note .detailsSummary (payloadOf o))
        ∨ (∃ f, before = some f ∧ f.text.SomeItem Q) ∨ label.text.SomeItem Q
          ∨ ∃ f, after = some f ∧ f.text.SomeItem Q := by
  simp only [asDetails, Fragment.text_append, Fragment.text_marked, AnnotatedText.someItem_append,
    AnnotatedText.someItem_marked, someItem_hidden hcontent, or_assoc]
  exact or_left_comm

/-- A fragment lists exactly what its annotations announce. -/
theorem Composed.mem_ids_iff (h : Composed style limit o f)
    (hlength : o + f.text.length < Nat.pow 10 Text.TooManyDigits.limit) (id : Int) :
    id ∈ f.ids ↔ f.text.SomeItem (Item.Announces id) := by
  induction h with
  | chars s => simp [ids, ofChars, ofText]
  | linked s =>
      refine iff_of_false List.not_mem_nil ?_
      rintro ⟨r, hr, hitem⟩
      exact not_announces_of_not_isKeyed (not_isKeyed_of_mem_linkedText hr) hitem
  | image info =>
      have himage : ¬ (Item.note .inlineImage (imageKey info)).Announces id :=
        not_announces nofun nofun
      simp [ids, ofImage, himage]
  | @append o f g _ _ hf hg =>
      have hsum : (f ++ g).text.length = f.text.length + g.text.length :=
        AnnotatedText.length_append ..
      have hf := hf (by omega)
      have hg := hg (by omega)
      simp [ids, ← hf, ← hg]
  | marked hitem _ hf =>
      have hf := hf hlength
      simp [ids, ← hf, not_announces_of_not_isKeyed hitem.isKeyed_eq]
  | @span o f look _ hf =>
      have hf := hf hlength
      have hspan := announces_span_iff id look
        (Nat.lt_of_le_of_lt (Nat.le_add_right o _) hlength)
      cases hspoiler : look.isSpoiler <;> simp [ids, asSpan, hspan, ← hf, hspoiler]
  | @details o before after label summary hlabel _ _ _ hbefore hsummary hafter =>
      -- no part reaches further than the element, so the bound on the ids holds of it too
      have hsum := length_asDetails o before after label
      have hshown : label.text.length
          = style.summaryPlaceholder.toList.length + summary.text.length := by
        rw [hlabel]
        exact AnnotatedText.length_append ..
      have hopening : (∃ f, before = some f ∧ id ∈ f.ids)
          ↔ ∃ f, before = some f ∧ f.text.SomeItem (Item.Announces id) := by
        refine exists_congr fun f => and_congr_right fun hf => ?_
        subst hf
        rw [length_hidden] at hsum
        exact hbefore f rfl (by omega)
      have hlabelled : id ∈ label.ids ↔ label.text.SomeItem (Item.Announces id) := by
        have hsummary := hsummary (by omega)
        simp [ids, hlabel, ofChars, ofText, ← hsummary]
      have hclosing : (∃ f, after = some f ∧ id ∈ f.ids)
          ↔ ∃ f, after = some f ∧ f.text.SomeItem (Item.Announces id) := by
        refine exists_congr fun f => and_congr_right fun hf => ?_
        subst hf
        rw [length_hidden] at hsum
        exact hafter f rfl (by omega)
      have hcontent : ¬ (Item.note .detailsContent (payloadOf o)).Announces id :=
        not_announces nofun nofun
      rw [someItem_asDetails hcontent, announces_summary_iff, ← hopening, ← hlabelled, ← hclosing,
        ← mem_ids_hidden o before, ← mem_ids_hidden o after]
      simp only [ids, asDetails, Fragment.reveals_append, Fragment.reveals_marked, List.map_cons,
        List.map_append, List.mem_cons, List.mem_append, or_assoc]
      rfl

/-- A fragment has the images that its annotations name. -/
theorem Composed.mem_images_iff (h : Composed style limit o f) (key : String) :
    key ∈ f.images.map Prod.fst ↔ f.text.SomeItem (· = .note .inlineImage key) := by
  have hother : ∀ {item : Item}, item.isKeyed = false → item ≠ .note .inlineImage key := by
    rintro item h rfl
    exact Bool.noConfusion h
  induction h with
  | chars s => simp [ofChars, ofText]
  | linked s =>
      refine iff_of_false List.not_mem_nil ?_
      rintro ⟨r, hr, hitem⟩
      exact hother (not_isKeyed_of_mem_linkedText hr) hitem
  | image info => simp [ofImage, eq_comm]
  | append _ _ hf hg => simp [← hf, ← hg]
  | marked hitem _ hf => simp [← hf, hother hitem.isKeyed_eq]
  | span look _ hf => simp [asSpan, ← hf]
  | @details o before after label summary hlabel _ _ _ hbefore hsummary hafter =>
      have hlabelled : key ∈ label.images.map Prod.fst
          ↔ label.text.SomeItem (· = .note .inlineImage key) := by
        simp [hlabel, ofChars, ofText, ← hsummary]
      have hopening := exists_congr fun f => and_congr_right (hbefore f)
      have hclosing := exists_congr fun f => and_congr_right (hafter f)
      rw [someItem_asDetails nofun, ← hopening, ← hlabelled, ← hclosing]
      simp only [asDetails, Fragment.images_append, Fragment.images_marked, List.map_append,
        List.mem_append, mem_images_hidden, or_assoc]
      simp

end Fragment

/-! ## Bodies -/

namespace Body

/-- Putting an image adds its key and no other. -/
theorem mem_keys_setImage {key k : String} {info : ImageInfo} {images : List (String × ImageInfo)} :
    key ∈ (setImage k info images).map Prod.fst ↔ key = k ∨ key ∈ images.map Prod.fst := by
  induction images with
  | nil => simp [setImage]
  | cons image images ih =>
      rw [setImage]
      split
      · rename_i hk
        simp [hk]
      · simp only [List.map_cons, List.mem_cons, ih]
        exact or_left_comm

/-- The keys of the images of a body are those of the fragment that makes it up. -/
theorem mem_keys_ofFragment {key : String} {f : Fragment} :
    key ∈ (ofFragment f).images.map Prod.fst ↔ key ∈ f.images.map Prod.fst := by
  have hfold : ∀ images acc : List (String × ImageInfo),
      key ∈ (images.foldl (fun acc image => setImage image.1 image.2 acc) acc).map Prod.fst
        ↔ key ∈ images.map Prod.fst ∨ key ∈ acc.map Prod.fst := by
    intro images
    induction images with
    | nil => simp
    | cons image images ih =>
        intro acc
        rw [List.foldl_cons, ih, mem_keys_setImage, List.map_cons, List.mem_cons, or_left_comm,
          or_assoc]
  show key ∈ (f.images.foldl (fun acc image => setImage image.1 image.2 acc) []).map Prod.fst ↔ _
  rw [hfold]
  simp

/-- The ids in a body agree with its text and with each other. -/
structure Identified (content : List Content) (body : Body) : Prop where
  /-- A span holds the position where it starts. -/
  spans : ∀ r ∈ body.text.ranges, ∀ payload, r.item = .note .span payload →
    ∃ a, SpanAttributes.ofPayload payload = .ok a ∧ a.revealId = r.start
  /-- The parts of a details element hold the position where the first of them
      starts. -/
  details : Content.DisclosedByAll content (body.text.ranges.filter (·.item.isDisclosure))
  /-- The body lists the ids of its spoilers and summaries. -/
  revealable : ∀ id, id ∈ body.revealable ↔ ∃ r ∈ body.text.ranges, r.item.Announces id
  /-- The body has the images that its text names. -/
  images : ∀ key, key ∈ body.images.map Prod.fst ↔
    ∃ r ∈ body.text.ranges, r.item = .note .inlineImage key

end Body

/-- **The ids of message bodies**: whatever tree a body is read from, with links in
    links and details in details to any depth, the ids in its payloads are the
    positions where its elements start, and the body lists the ids and the images
    that occur in its text.  The details elements that this speaks of are those of
    the tree with a summary and something beside it.  The bound on the text is that
    of the numerals that can be read back. -/
theorem identified_of_nodes (settings : Settings) (hstyle : settings.style.KeepsLinkContent)
    (nodes : List Markup.Node)
    (hlength : (Body.ofContent settings (Content.ofNodes nodes)).text.length
      < Nat.pow 10 Text.TooManyDigits.limit) :
    (Body.ofContent settings (Content.ofNodes nodes)).Identified (Content.ofNodes nodes)
      ∧ ∀ (attributes : List (String × String)) (before after : List Markup.Node)
        (summary : Markup.Node), (∀ node ∈ before, node.isSummary = false) →
        summary.isSummary = true → before ≠ [] ∨ after ≠ [] →
        Content.ofNode (.element "details" attributes (before ++ summary :: after))
          = .details (Content.ofNodes before) [Content.ofNode summary] (Content.ofNodes after) := by
  have hcomposed := Body.render_composed hstyle (Content.ofNodes nodes)
  refine ⟨?_, fun attributes _ _ _ => Content.ofNode_details attributes⟩
  constructor
  · -- a span has its own start for its id
    intro r hr payload hitem
    have hstart := hcomposed.holdsStart r hr
    rw [Range.shift_zero] at hstart
    obtain ⟨look, rfl⟩ := hstart payload hitem
    obtain ⟨hbounds, hstop⟩ := hcomposed.bracketed.wellFormed r hr
    exact ⟨_, ofPayload_spanAttributes look
      (Nat.lt_of_le_of_lt (Nat.le_trans hbounds hstop) hlength), rfl⟩
  · rw [← AnnotatedText.disclosures_zero]
    exact renderAll_disclosed _ settings.context none (.startAt 0) 1 hstyle
  · intro id
    rw [Body.ofContent, Body.ofFragment, IdSet.mem_ofList]
    exact hcomposed.mem_ids_iff (by rwa [Nat.zero_add]) id
  · intro key
    rw [Body.ofContent, Body.mem_keys_ofFragment]
    exact hcomposed.mem_images_iff key

/-- A deep link inside a deep link, with a spoiler and details in it, and an
    image. -/
def linkedDetails : List Markup.Node :=
  [.text "ab".toList,
   .element "a" [("href", "https://matrix.to/#/@u:s")]
    [.element "a" [("href", "https://matrix.to/#/@v:s")]
      [.element "span" [("data-mx-spoiler", "")] [.text "c".toList],
       .element "details" []
        [.text "d".toList, .element "summary" [] [.text "e".toList],
         .element "img" [("src", "mxc://s/i")] []]]]]

/-- The spoiler and the details are told by where they begin in the document, not in the links. -/
theorem identified_linkedDetails :
    (Body.ofContent {} (Content.ofNodes linkedDetails)).Identified (Content.ofNodes linkedDetails)
      ∧ (Body.ofContent {} (Content.ofNodes linkedDetails)).revealable = .ofList [2, 3] :=
  ⟨(identified_of_nodes {} RenderStyle.standard_keepsLinkContent linkedDetails
    (by decide +kernel)).1, by decide +kernel⟩

end MessageBody
