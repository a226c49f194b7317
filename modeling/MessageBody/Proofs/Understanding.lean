import MessageBody.Proofs.BodyPayloads
import MessageBody.Proofs.Placements

/-! # Values in payloads

    The walk writes the attributes of a span and a deep link into payloads as JSON, a
    depth and an id as decimal numbers.  `Item.Encodes` says which value an
    annotation holds by how its payload is read, not by how it was written.  A text
    in which every annotation of these kinds holds a value is understood by both
    that read payloads, the styling of a text and the location of its constructs:
    they give a result and leave no record. -/

namespace MessageBody

open Formatter Fragment

/-! ## Values -/

/-- A value in the payload of an annotation. -/
inductive Coded where
  | span (attributes : SpanAttributes)
  | link (target : DeepLink)
  /-- A quote at a depth. -/
  | quote (depth : Nat)
  /-- An item of an ordered or an unordered list at a depth. -/
  | item (isOrdered : Bool) (depth : Nat)
  /-- The summary of the details element with an id. -/
  | summary (id : Nat)
  /-- What the details element with an id hides. -/
  | content (id : Nat)

namespace Coded

/-- The annotation that holds the value. -/
def tag : Coded → Tag
  | .span _ => .span
  | .link target => target.tag
  | .quote _ => .blockQuote
  | .item isOrdered _ => if isOrdered then .orderedListItem else .unorderedListItem
  | .summary _ => .detailsSummary
  | .content _ => .detailsContent

/-- The value is what the payload is read as. -/
def IsReadFrom (payload : String) : Coded → Prop
  | .span attributes => SpanAttributes.ofPayload payload = .ok attributes
  | .link target => DeepLink.ofPayload payload = .ok target
  | .quote n | .item _ n | .summary n | .content n =>
      Text.wholeNumber payload.toList = .ok (some n)

/-- The number that the value is, if it is one. -/
def number? : Coded → Option Nat
  | .span _ | .link _ => none
  | .quote n | .item _ n | .summary n | .content n => some n

end Coded

/-- The kinds of annotation that hold a value. -/
def Tag.isCoded : Tag → Bool
  | .span | .userMention | .roomLink | .messageLink | .blockQuote | .unorderedListItem
  | .orderedListItem | .detailsSummary | .detailsContent => true
  | _ => false

namespace Item

/-- Whether an item is an annotation that holds a value. -/
def isCoded (item : Item) : Bool :=
  item.tag?.any Tag.isCoded

/-- The item is an annotation that holds the given value. -/
def Encodes (item : Item) (coded : Coded) : Prop :=
  ∃ payload, item = .note coded.tag payload ∧ coded.IsReadFrom payload

/-- If the item is of a kind that holds a value, then it holds one. -/
def IsEncoded (item : Item) : Prop :=
  item.isCoded = true → ∃ coded, item.Encodes coded

/-- An annotation that encodes nothing is encoded as it is. -/
theorem isEncoded_of_not_isCoded {item : Item} (h : item.isCoded = false) : item.IsEncoded :=
  fun hcoded => Bool.noConfusion (h.symm.trans hcoded)

theorem Encodes.isEncoded {item : Item} {coded : Coded} (h : item.Encodes coded) :
    item.IsEncoded :=
  fun _ => ⟨coded, h⟩

theorem Encodes.isCoded {item : Item} {coded : Coded} (h : item.Encodes coded) :
    item.isCoded = true := by
  obtain ⟨payload, rfl, -⟩ := h
  cases coded with
  | link link => cases link <;> rfl
  | item isOrdered => cases isOrdered <;> rfl
  | _ => rfl

end Item

/-! ## What the walk writes -/

/-- A number of 31 bits is the value of an annotation that counts. -/
theorem encodes_payloadOf (coded : Coded) {n : Nat} (hcoded : coded.number? = some n)
    (hn : n < 2147483648) : (Item.note coded.tag (payloadOf n)).Encodes coded := by
  refine ⟨payloadOf n, rfl, ?_⟩
  cases coded with
  | span | link => exact nomatch hcoded
  | quote | item | summary | content =>
      cases hcoded
      exact wholeNumber_payloadOf hn

/-- The payload of a deep link is decoded as the link. -/
theorem encodes_deepLink (link : DeepLink) :
    (Item.note link.tag link.payload).Encodes (.link link) :=
  ⟨link.payload, rfl, DeepLink.ofPayload_payload link⟩

/-- The payload of a span is decoded as its attributes. -/
theorem encodes_span (look : SpanLook) {p : Nat} (hp : p < 2147483648) :
    (Item.note .span (spanAttributes look p).payload).Encodes (.span (spanAttributes look p)) :=
  ⟨_, rfl, SpanAttributes.ofPayload_payload
    (spanAttributes_hasReadableNumbers look (digits_le_limit (by omega)))⟩

/-- A link holds a deep link just when its address is one. -/
theorem linkItem_encodes {address : List Char} (h : (linkItem address).isCoded = true) :
    ∃ link, DeepLink.ofUrl? address = some link ∧ (linkItem address).Encodes (.link link) := by
  rw [linkItem] at h ⊢
  cases haddress : DeepLink.ofUrl? address with
  | none =>
      rw [haddress] at h
      exact absurd h Bool.false_ne_true
  | some link => exact ⟨link, rfl, encodes_deepLink link⟩

/-- What the walk puts around content holds a value, if it is of a kind that
    does. -/
theorem Item.Encloses.isEncoded {limit : Nat} {item : Item} (h : item.Encloses limit)
    (hlimit : limit < 2147483648) : item.IsEncoded := by
  cases h with
  | emphasis | webLink | heading => exact isEncoded_of_not_isCoded rfl
  | bare tag htag =>
      simp only [List.mem_cons, List.not_mem_nil, or_false] at htag
      rcases htag with rfl | rfl | rfl | rfl <;> exact isEncoded_of_not_isCoded rfl
  | deepLink link => exact (encodes_deepLink link).isEncoded
  | counted tag htag depth hdepth =>
      -- a depth within the limit is read back as the number it was
      have hn := Nat.lt_of_le_of_lt hdepth hlimit
      simp only [List.mem_cons, List.not_mem_nil, or_false] at htag
      rcases htag with rfl | rfl | rfl | rfl | rfl
      · exact (encodes_payloadOf (.quote depth) rfl hn).isEncoded
      · exact isEncoded_of_not_isCoded rfl
      · exact (encodes_payloadOf (.item false depth) rfl hn).isEncoded
      · exact isEncoded_of_not_isCoded rfl
      · exact (encodes_payloadOf (.item true depth) rfl hn).isEncoded

/-- In a text whose length is a number of 31 bits every annotation holds a value, if
    it is of a kind that does. -/
theorem Fragment.Composed.isEncoded {style : RenderStyle} {limit o : Nat} {f : Fragment}
    (h : Composed style limit o f) (hlimit : limit < 2147483648)
    (hlength : o + f.text.length < 2147483648) : f.text.ItemsSatisfy Item.IsEncoded := by
  refine h.itemsSatisfy ⟨fun _ hitem => hitem.isEncoded hlimit, fun address hcoded => ?_,
    fun _ => Item.isEncoded_of_not_isCoded rfl, fun look p hp => ?_, fun p hp => ?_, fun p hp => ?_⟩
    (Nat.le_refl _)
  · obtain ⟨link, -, hlink⟩ := linkItem_encodes hcoded
    exact ⟨_, hlink⟩
  · exact (encodes_span look (by omega)).isEncoded
  · exact (encodes_payloadOf (.content p) rfl (by omega)).isEncoded
  · exact (encodes_payloadOf (.summary p) rfl (by omega)).isEncoded

/-! ## Those that read payloads -/

/-- Whoever reads the payloads of the text understands them all: the text can be
    styled, and its constructs can be located, without a record of an error. -/
structure AnnotatedText.IsUnderstood (t : AnnotatedText) : Prop where
  styled : ∀ f : Formatter, f.MeasuresSp → ∃ styled, f.apply t = ⟨[], .ok styled⟩
  located : ∀ (layout : TextLayout Float) (s : DrawStyle),
    ∃ p, Placement.ofText t layout s = ⟨[], .ok p⟩

/-- A payload that reads leaves no record. -/
theorem Formatter.Reads.complaint?_eq_none {tag : Tag} {payload : String}
    (h : Formatter.Reads tag payload) : complaint? tag payload = none := by
  cases tag with
  | userMention | roomLink | messageLink | span =>
      obtain ⟨value, hvalue⟩ := h
      simp only [complaint?, decodingComplaint?, hvalue]
  | blockQuote | unorderedListItem | orderedListItem | detailsSummary | detailsContent =>
      obtain ⟨n, hn⟩ := h
      simp only [complaint?, numberComplaint?, hn]
  | _ => rfl

theorem Coded.IsReadFrom.reads {coded : Coded} {payload : String}
    (h : coded.IsReadFrom payload) : Formatter.Reads coded.tag payload := by
  cases coded with
  | link target => cases target <;> exact ⟨_, h⟩
  | item isOrdered => cases isOrdered <;> exact ⟨_, h⟩
  | _ => exact ⟨_, h⟩

namespace Item.IsEncoded

variable {tag : Tag} {payload : String}

/-- An encoded annotation is read by the formatter. -/
theorem reads (h : (Item.note tag payload).IsEncoded) (hcoded : tag.isCoded = true) :
    Formatter.Reads tag payload := by
  obtain ⟨coded, payload', heq, hread⟩ := h hcoded
  cases heq
  exact hread.reads

/-- Styling takes the payload and leaves no record. -/
theorem settled (h : (Item.note tag payload).IsEncoded) :
    Settled tag payload ∧ complaint? tag payload = none := by
  by_cases hcoded : tag.isCoded = true
  · exact ⟨(h.reads hcoded).settled, (h.reads hcoded).complaint?_eq_none⟩
  · cases tag with
    | span | userMention | roomLink | messageLink | blockQuote | unorderedListItem
    | orderedListItem | detailsSummary | detailsContent => exact absurd rfl hcoded
    | _ => exact ⟨trivial, rfl⟩

/-- The deep link in the mention of a user is one to a user. -/
theorem exists_user (h : (Item.note .userMention payload).IsEncoded) :
    ∃ userId url, DeepLink.ofPayload payload = .ok (.user userId url) := by
  obtain ⟨coded, payload', heq, hread⟩ := h rfl
  obtain ⟨htag, rfl⟩ := Item.note.inj heq
  cases coded with
  | link target =>
      cases target with
      | user userId url => exact ⟨userId, url, hread⟩
      | _ => exact nomatch htag
  | item isOrdered => cases isOrdered <;> exact nomatch htag
  | _ => exact nomatch htag

/-- Locating a construct decodes its payload. -/
theorem decode_eq_ok {s : DrawStyle} {q : Placement.Request} (hq : q ∈ Placement.requests s)
    (h : (Item.note q.tag payload).IsEncoded) :
    ∃ decoration, q.decode payload = .ok decoration := by
  have hnumber : (∃ n, Text.wholeNumber payload.toList = .ok (some n)) →
      ∃ decoration, Placement.decodeNumber payload = .ok decoration := by
    rintro ⟨n, hn⟩
    exact ⟨.number n, by rw [Placement.decodeNumber, hn]⟩
  simp only [Placement.requests, List.mem_cons, List.not_mem_nil, or_false] at hq
  -- each request decodes what was encoded for its tag
  rcases hq with rfl | rfl | rfl | rfl | rfl | rfl | rfl | rfl | rfl
  · obtain ⟨userId, url, huser⟩ := h.exists_user
    refine ⟨.link (.user userId url), ?_⟩
    show Placement.decodeUser payload = _
    rw [Placement.decodeUser, huser]
    rfl
  · exact ⟨.nothing, rfl⟩
  · exact hnumber (h.reads rfl)
  · exact ⟨.nothing, rfl⟩
  · exact ⟨.nothing, rfl⟩
  · obtain ⟨attributes, hspan⟩ := h.reads rfl
    refine ⟨.span attributes, ?_⟩
    show Placement.decodeSpan payload = _
    rw [Placement.decodeSpan, hspan]
    rfl
  · exact hnumber (h.reads rfl)
  · exact hnumber (h.reads rfl)
  · exact hnumber (h.reads rfl)

end Item.IsEncoded

section

variable {t : AnnotatedText}

/-- Styling leaves no record where annotations hold values. -/
theorem complaints_eq_nil (h : t.ItemsSatisfy Item.IsEncoded) :
    t.ranges.flatMap complaintsOf = [] := by
  refine List.flatMap_eq_nil_iff.mpr fun r hr => ?_
  have hitem := h r hr
  rw [complaintsOf]
  cases hr : r.item with
  | directive d => rfl
  | note tag payload =>
      rw [hr] at hitem
      exact Option.toList_eq_nil_iff.mpr hitem.settled.2

/-- Locating leaves no record where annotations hold values. -/
theorem records_eq_nil (h : t.ItemsSatisfy Item.IsEncoded) (s : DrawStyle) :
    (Placement.requests s).flatMap (Placement.Request.records t) = [] := by
  refine List.flatMap_eq_nil_iff.mpr fun q hq => ?_
  rw [Placement.Request.records]
  split
  · refine List.flatMap_eq_nil_iff.mpr fun r hr => ?_
    obtain ⟨hmem, htag⟩ := List.mem_filter.mp hr
    have hitem := h r hmem
    rw [Placement.recordsOf]
    cases hr : r.item with
    | directive d => rfl
    | note tag payload =>
        rw [hr] at hitem htag
        -- the request is for annotations of this kind
        cases beq_iff_eq.mp htag
        obtain ⟨decoration, hdecode⟩ := hitem.decode_eq_ok hq
        simp only [hdecode]
  · rfl

/-- A text is understood where annotations hold values. -/
theorem AnnotatedText.isUnderstood_of_isEncoded (h : t.ItemsSatisfy Item.IsEncoded) :
    t.IsUnderstood := by
  have hsettled : SettledAll t.ranges := by
    intro r hr tag payload hitem
    have hencoded := h r hr
    rw [hitem] at hencoded
    exact hencoded.settled.1
  constructor
  · intro f hf
    have hresult := (Formatter.presents hf hsettled).result
    rw [complaints_eq_nil h] at hresult
    exact ⟨_, hresult⟩
  · intro layout s
    obtain ⟨p, hp, -⟩ := Placement.ofText_eq layout (s := s) fun q _ _ r hr =>
      hsettled r (List.mem_filter.mp hr).1
    rw [records_eq_nil h] at hp
    exact ⟨p, hp⟩

end

end MessageBody
