import Mathlib.Data.List.Forall2
import MessageBody.Proofs.AddressSearch
import MessageBody.Proofs.Encoding
import MessageBody.Proofs.LinkPaths
import MessageBody.Proofs.Mentions

/-! # Links and mentions where they stand

    The segments of running text stand one after the other, with the text of a mention
    between any two of them.  Every segment is searched for addresses on its own, and its
    links stand where the segment stands, behind everything that was written before
    (`links_of_richText`).  In a plain body nothing else is annotated but the mentions,
    each of them where it is shown (`replaced_of_plain`). -/

namespace MessageBody

open AnnotatedText

/-! ## Links -/

/-- An annotation of a link. -/
def Tag.isLink : Tag → Bool
  | .webLink | .userMention | .roomLink | .messageLink => true
  | _ => false

/-- The item is a link. -/
def Item.isLink (item : Item) : Bool :=
  item.tag?.any Tag.isLink

/-- The item is the link to an address: to the address itself, or to what it points to as
    a deep link, and then the address is kept in the payload. -/
def Item.LinksTo (address : List Char) (item : Item) : Prop :=
  (DeepLink.ofUrl? address = none ∧ item = .note .webLink (String.ofList address))
    ∨ ∃ link payload, DeepLink.ofUrl? address = some link ∧ item = .note link.tag payload
      ∧ DeepLink.ofPayload payload = .ok link ∧ link.url = String.ofList address

/-- What an address gets is a link. -/
theorem isLink_linkItem (address : List Char) : (linkItem address).isLink = true := by
  rw [linkItem]
  split
  · rename_i link _
    cases link <;> rfl
  · rfl

/-- The ranges of linked text are links. -/
theorem isLink_of_mem_linkedText {autoLink : Bool} {s : List Char} {r : Range}
    (hr : r ∈ (linkedText autoLink s).ranges) : r.item.isLink = true := by
  obtain ⟨o, -, rfl⟩ := exists_of_mem_linkedText hr
  exact isLink_linkItem _

/-- A link is no mention of the room. -/
theorem tag?_ne_roomMention_of_isLink {item : Item} (h : item.isLink = true) :
    item.tag? ≠ some .roomMention := by
  intro htag
  rw [Item.isLink, htag] at h
  exact nomatch h

/-! ## Segments -/

/-- A segment of a text and the position where it begins. -/
structure Segment where
  start : Nat
  text : List Char

namespace Segment

/-- The position where the segment ends. -/
def stop (segment : Segment) : Nat := segment.start + segment.text.length

/-- Segments one after the other from position `o` on, with `gap` characters between any
    two of them. -/
def place (gap : Nat) : (o : Nat) → List (List Char) → List Segment
  | _, [] => []
  | o, text :: rest => ⟨o, text⟩ :: place gap (o + text.length + gap) rest

/-- The mention of `width` characters behind a segment. -/
def mentionBehind (width : Nat) (segment : Segment) : Range :=
  ⟨.note .roomMention "", segment.stop, segment.stop + width⟩

/-- The link on an address that lies in the segment. -/
def link (segment : Segment) (o : Link.Occurrence) : Range :=
  (Range.mk (linkItem (o.slice segment.text)) o.start o.stop).shift segment.start

/-- The ranges `links` of a document are the links on the addresses in a segment of it,
    found greedily: each of them covers an address and links to what it covers. -/
def IsLinkedBy (doc : List Char) (segment : Segment) (links : List Range) : Prop :=
  ∃ os, Link.AreGreedy segment.text os
    ∧ List.Forall₂ (fun (o : Link.Occurrence) (r : Range) =>
        r.start = segment.start + o.start ∧ r.stop = segment.start + o.stop
          ∧ r.item.LinksTo (r.slice doc)) os links

end Segment

/-- A link links to its address. -/
theorem linksTo_linkItem (address : List Char) : (linkItem address).LinksTo address := by
  rw [linkItem]
  split
  · rename_i link hlink
    exact .inr ⟨link, link.payload, hlink, rfl, link.ofPayload_payload,
      DeepLink.url_of_ofUrl? hlink⟩
  · rename_i hnone
    exact .inl ⟨hnone, rfl⟩

/-- A range covers the characters that stand there. -/
theorem StandsAt.slice_eq {doc s : List Char} {o : Nat} (h : StandsAt doc o s) {item : Item} :
    (Range.mk item o (o + s.length)).slice doc = s := by
  have hslice := h.slice_shift (r := ⟨item, 0, s.length⟩) (Nat.zero_le _) le_rfl
  rw [Range.slice, Range.slice, Nat.sub_zero, List.drop_zero, List.take_length] at hslice
  exact hslice

section Segments

variable {style : RenderStyle} {doc : List Char} {o : Nat}

/-- Every segment stands where it is placed. -/
theorem standsAt_place {sep : List Char} {texts : List (List Char)}
    (h : StandsAt doc o (List.intercalate sep texts)) :
    ∀ segment ∈ Segment.place sep.length o texts, StandsAt doc segment.start segment.text := by
  induction texts generalizing o with
  | nil => exact nofun
  | cons text rest ih =>
      cases rest with
      | nil =>
          rw [List.intercalate_singleton] at h
          exact List.forall_mem_singleton.mpr h
      | cons text' rest =>
          rw [List.intercalate_cons_cons, List.append_assoc] at h
          exact List.forall_mem_cons.mpr ⟨h.left, ih h.right.right⟩

/-- Behind every segment but the last stands what separates it from the next one. -/
theorem standsAt_stop {sep : List Char} {texts : List (List Char)}
    (h : StandsAt doc o (List.intercalate sep texts)) :
    ∀ segment ∈ (Segment.place sep.length o texts).dropLast,
      StandsAt doc segment.stop sep := by
  induction texts generalizing o with
  | nil => exact nofun
  | cons text rest ih =>
      cases rest with
      | nil => exact nofun
      | cons text' rest =>
          rw [List.intercalate_cons_cons, List.append_assoc] at h
          exact List.forall_mem_cons.mpr ⟨h.right.left, ih h.right.right⟩

/-- What is found in segments, other than the mentions between them, is found in one of
    them. -/
theorem selected_interleaved {p : Item → Bool} (hp : p (.note .roomMention "") = false)
    (autoLink : Bool) (o : Nat) (texts : List (List Char)) :
    (interleaved style autoLink texts).selected p o
      = (Segment.place style.roomMention.toList.length o texts).flatMap fun segment =>
          (linkedText autoLink segment.text).selected p segment.start := by
  induction texts generalizing o with
  | nil => rfl
  | cons text rest ih =>
      cases rest with
      | nil =>
          rw [Segment.place, Segment.place, List.flatMap_singleton]
          rfl
      | cons text' rest =>
          rw [interleaved, selected_append, selected_append, ih, mentionText,
            selected_marked_of_not hp, Segment.place, List.flatMap_cons]
          rfl

/-- The mentions are found behind every segment but the last. -/
theorem selected_roomMention_interleaved (autoLink : Bool) (o : Nat)
    (texts : List (List Char)) :
    (interleaved style autoLink texts).selected (fun item => item.tag? == some .roomMention) o
      = (Segment.place style.roomMention.toList.length o texts).dropLast.map
          (Segment.mentionBehind style.roomMention.toList.length) := by
  have hlinked : ∀ (text : List Char) (o : Nat),
      (linkedText autoLink text).selected (fun item => item.tag? == some .roomMention) o = [] := by
    intro text o
    refine selected_eq_nil fun r hr => ?_
    exact beq_eq_false_iff_ne.mpr (tag?_ne_roomMention_of_isLink (isLink_of_mem_linkedText hr))
  induction texts generalizing o with
  | nil => rfl
  | cons text rest ih =>
      cases rest with
      | nil => exact hlinked text o
      | cons text' rest =>
          rw [interleaved, selected_append, selected_append, hlinked, ih, mentionText,
            selected_marked rfl]
          rfl

end Segments

/-! ## Links in a segment -/

/-- The range is a link in a segment of a document, to the address that it covers. -/
def Range.IsLinkIn (doc : List Char) (segment : Segment) (r : Range) : Prop :=
  segment.start ≤ r.start ∧ r.start < r.stop ∧ r.stop ≤ segment.stop
    ∧ r.item.LinksTo (r.slice doc)

section Links

variable {doc : List Char} {segment : Segment}

/-- The links in a segment are those on the addresses that are found in it. -/
theorem selected_linkedText {p : Item → Bool} (hp : ∀ address, p (linkItem address) = true)
    (segment : Segment) :
    (linkedText true segment.text).selected p segment.start
      = (Link.occurrences segment.text).map segment.link := by
  have hall : ∀ r ∈ addressRanges segment.text, p r.item = true := by
    intro r hr
    obtain ⟨o, -, rfl⟩ := List.mem_map.mp hr
    exact hp _
  rw [selected, linkedText, if_pos rfl, List.filter_eq_self.mpr hall, addressRanges, List.map_map]
  rfl

/-- An occurrence in a segment has its link in the document. -/
theorem isLinkIn_link (h : StandsAt doc segment.start segment.text) {o : Link.Occurrence}
    (ho : o ∈ Link.occurrences segment.text) : (segment.link o).IsLinkIn doc segment := by
  obtain ⟨-, hstart, hstop⟩ := (Link.occurrencesFrom_spec 0 0 false segment.text).1 o ho
  rw [Nat.zero_add] at hstop
  refine ⟨Nat.le_add_right _ _, Nat.add_lt_add_left hstart _, Nat.add_le_add_left hstop _, ?_⟩
  have hslice := h.slice_shift (r := ⟨linkItem (o.slice segment.text), o.start, o.stop⟩)
    hstart.le hstop
  rw [Segment.link, hslice]
  exact linksTo_linkItem _

/-- The links of a segment are links in the document. -/
theorem isLinkIn_of_mem_linkedText (h : StandsAt doc segment.start segment.text)
    {p : Item → Bool} (hp : ∀ address, p (linkItem address) = true) {autoLink : Bool} {r : Range}
    (hr : r ∈ (linkedText autoLink segment.text).selected p segment.start) :
    r.IsLinkIn doc segment := by
  cases autoLink with
  | false => exact nomatch hr
  | true =>
      rw [selected_linkedText hp] at hr
      obtain ⟨o, ho, rfl⟩ := List.mem_map.mp hr
      exact isLinkIn_link h ho

/-- A segment is linked by the links that are selected in it. -/
theorem isLinkedBy_selected (h : StandsAt doc segment.start segment.text) :
    segment.IsLinkedBy doc ((linkedText true segment.text).selected Item.isLink segment.start) := by
  refine ⟨Link.occurrences segment.text, Link.areGreedy_occurrences _, ?_⟩
  rw [selected_linkedText isLink_linkItem, List.forall₂_map_right_iff, List.forall₂_same]
  exact fun o ho => ⟨rfl, rfl, (isLinkIn_link h ho).2.2.2⟩

end Links

/-! ## Running text -/

/-- **Links stand on the addresses that are found greedily.**  Running text outside of
    links is put at the end of a text.  Where addresses become links, the links that this
    adds are those on the addresses in the segments, each segment searched on its own. -/
theorem links_of_richText {ctx : Context} (hauto : ctx.style.autoLink = true)
    (hlinked : ctx.isLinked = false) (t : AnnotatedText) (s : List Char) :
    ∃ links : List (List Range),
      (t ++ ctx.richText s).ranges.filter (fun r => r.item.isLink)
          = t.ranges.filter (fun r => r.item.isLink) ++ links.flatten
        ∧ List.Forall₂ (Segment.IsLinkedBy (t ++ ctx.richText s).text)
            (Segment.place ctx.style.roomMention.toList.length t.length
              (segments ctx.allowMention s)) links
        ∧ ∀ segment ∈ Segment.place ctx.style.roomMention.toList.length t.length
              (segments ctx.allowMention s),
            StandsAt (t ++ ctx.richText s).text segment.start segment.text := by
  have hauto' : (ctx.style.autoLink && !ctx.isLinked) = true := by
    rw [hauto, hlinked]
    rfl
  rw [Context.richText, hauto']
  have htext : StandsAt (t ++ richText ctx.style ctx.allowMention true s).text t.length
      (List.intercalate ctx.style.roomMention.toList (segments ctx.allowMention s)) := by
    rw [← text_richText_eq_intercalate ctx.style ctx.allowMention true]
    have hright := (StandsAt.refl (t ++ richText ctx.style ctx.allowMention true s).text).right
    rwa [Nat.zero_add] at hright
  have hplaced := standsAt_place htext
  refine ⟨(Segment.place ctx.style.roomMention.toList.length t.length
    (segments ctx.allowMention s)).map fun segment =>
      (linkedText true segment.text).selected Item.isLink segment.start, ?_, ?_, hplaced⟩
  · rw [← selected_zero, selected_append, selected_zero, Nat.zero_add, richText_eq_interleaved,
      selected_interleaved rfl, List.flatMap]
  · rw [List.forall₂_map_right_iff, List.forall₂_same]
    exact fun segment hsegment => isLinkedBy_selected (hplaced segment hsegment)

/-- Behind other text, an address is left without the comma after it, and behind a mention
    another address begins although the mention ends with a letter. -/
theorem links_of_roomAddresses :
    ∃ links : List (List Range),
      (plain "see ".toList
            ++ ({} : Settings).context.richText "http://a.b, @roomftp://c".toList).ranges.filter
          (fun r => r.item.isLink) = links.flatten
        ∧ List.Forall₂ (Segment.IsLinkedBy "see http://a.b, @roomftp://c".toList)
            [⟨4, "http://a.b, ".toList⟩, ⟨21, "ftp://c".toList⟩] links := by
  have hauto : ({} : Settings).context.style.autoLink = true := rfl
  obtain ⟨links, hranges, hlinked, -⟩ :=
    links_of_richText hauto rfl (plain "see ".toList) "http://a.b, @roomftp://c".toList
  exact ⟨links, hranges, hlinked⟩

/-- A plain text is shown with its mentions replaced: `t` shows `s`, cut up into the
    stretches around its mentions, with `shown` between any two of them; it is annotated
    with the mentions, and with links inside the stretches. -/
structure AnnotatedText.ReplacesMentions (shown s : List Char) (stretches : List (List Char))
    (t : AnnotatedText) : Prop where
  /-- The stretches are what is around the mentions. -/
  source : s = List.intercalate RenderStyle.mention.toList stretches
  /-- No mention is left in a stretch. -/
  unmentioned : ∀ stretch ∈ stretches, ¬ RenderStyle.mention.toList <:+: stretch
  text_eq : t.text = List.intercalate shown stretches
  /-- There is one mention between any two stretches. -/
  mentions : t.tagged .roomMention
    = (Segment.place shown.length 0 stretches).dropLast.map (Segment.mentionBehind shown.length)
  /-- A mention covers what is shown for it. -/
  covers : ∀ r ∈ t.tagged .roomMention, r.slice t.text = shown
  /-- Everything else is a link in a stretch. -/
  links : ∀ r ∈ t.ranges, r.item.tag? ≠ some .roomMention →
    ∃ segment ∈ Segment.place shown.length 0 stretches,
      StandsAt t.text segment.start segment.text ∧ r.IsLinkIn t.text segment

section Interleaved

variable {style : RenderStyle} {texts : List (List Char)}

/-- A mention covers what is shown for it. -/
theorem slice_of_mem_tagged {autoLink : Bool} {r : Range}
    (hr : r ∈ (interleaved style autoLink texts).tagged .roomMention) :
    r.slice (interleaved style autoLink texts).text = style.roomMention.toList := by
  rw [tagged, ← selected_zero fun item => item.tag? == some .roomMention,
    selected_roomMention_interleaved] at hr
  obtain ⟨segment, hsegment, rfl⟩ := List.mem_map.mp hr
  exact (standsAt_stop (text_interleaved .. ▸ StandsAt.refl _) segment hsegment).slice_eq

/-- What is no mention is a link in a segment. -/
theorem isLinkIn_of_mem_interleaved {autoLink : Bool} {r : Range}
    (hr : r ∈ (interleaved style autoLink texts).ranges)
    (hmention : r.item.tag? ≠ some .roomMention) :
    ∃ segment ∈ Segment.place style.roomMention.toList.length 0 texts,
      StandsAt (interleaved style autoLink texts).text segment.start segment.text
        ∧ r.IsLinkIn (interleaved style autoLink texts).text segment := by
  -- as the range is no mention, it was made for one of the segments
  have hselected : r ∈ (interleaved style autoLink texts).selected
      (fun item => item.tag? != some .roomMention) 0 := by
    rw [selected_zero]
    exact List.mem_filter.mpr ⟨hr, bne_iff_ne.mpr hmention⟩
  rw [selected_interleaved rfl] at hselected
  obtain ⟨segment, hsegment, hlink⟩ := List.mem_flatMap.mp hselected
  have htext := StandsAt.refl (interleaved style autoLink texts).text
  have hstands := standsAt_place (text_interleaved style autoLink texts ▸ htext) segment hsegment
  rw [← text_interleaved style autoLink texts] at hstands
  refine ⟨segment, hsegment, hstands, isLinkIn_of_mem_linkedText hstands (fun address => ?_) hlink⟩
  exact bne_iff_ne.mpr (tag?_ne_roomMention_of_isLink (isLink_linkItem address))

end Interleaved

/-- **A plain text is shown with its mentions replaced, and not altered otherwise.** -/
theorem replaced_of_plain (settings : Settings) (s : List Char) :
    (settings.allowMention = true →
        (Body.ofPlain settings s).text.text
            = Text.replace RenderStyle.mention.toList settings.style.roomMention.toList s
          ∧ (Body.ofPlain settings s).text.ReplacesMentions settings.style.roomMention.toList s
              (Text.stretches RenderStyle.mention.toList s))
      ∧ (settings.allowMention = false →
          (Body.ofPlain settings s).text.text = s
            ∧ (Body.ofPlain settings s).text.tagged .roomMention = []
            ∧ ∀ r ∈ (Body.ofPlain settings s).text.ranges, r.IsLinkIn s ⟨0, s⟩)
      ∧ (settings.style.roomMention = RenderStyle.mention →
          (Body.ofPlain settings s).text.text = s) := by
  have htext : (Body.ofPlain settings s).text
      = interleaved settings.style (settings.style.autoLink && !settings.context.isLinked)
          (segments settings.allowMention s) :=
    richText_eq_interleaved ..
  refine ⟨fun hallow => ?_, fun hallow => ?_, fun hmention => text_richText hmention ..⟩
  · -- the segments are the stretches between the mentions
    rw [htext, hallow]
    refine ⟨text_interleaved .., ?_⟩
    exact {
      source := (Text.replace_self (by decide) s).symm
      unmentioned := Text.not_infix_of_mem_stretches (by decide) s
      text_eq := text_interleaved ..
      mentions := by
        rw [tagged, ← selected_zero fun item => item.tag? == some .roomMention]
        exact selected_roomMention_interleaved ..
      covers := fun r hr => slice_of_mem_tagged hr
      links := fun r hr => isLinkIn_of_mem_interleaved hr }
  · -- without mentions the whole text is the one segment
    rw [htext, hallow]
    refine ⟨rfl, ?_, fun r hr => ?_⟩
    · rw [tagged, ← selected_zero fun item => item.tag? == some .roomMention]
      exact selected_roomMention_interleaved ..
    · have hmention := tag?_ne_roomMention_of_isLink (isLink_of_mem_linkedText hr)
      obtain ⟨segment, hsegment, -, hlink⟩ := isLinkIn_of_mem_interleaved hr hmention
      cases List.mem_singleton.mp hsegment
      exact hlink

/-- Settings with a mention and an address in what is shown for a mention. -/
def Settings.withBusyMention : Settings where
  style := { RenderStyle.standard with roomMention := "@room http://m" }

/-- What is shown for a mention is searched neither for addresses nor for mentions. -/
theorem replaced_of_busyMention :
    (Body.ofPlain .withBusyMention "@room@room ftp://c".toList).text.text
        = "@room http://m@room http://m ftp://c".toList
      ∧ (Body.ofPlain .withBusyMention "@room@room ftp://c".toList).text.tagged .roomMention
        = [⟨.note .roomMention "", 0, 14⟩, ⟨.note .roomMention "", 14, 28⟩]
      ∧ ∀ r ∈ (Body.ofPlain .withBusyMention "@room@room ftp://c".toList).text.ranges,
          r.item.tag? ≠ some .roomMention →
          ∃ segment ∈ [(⟨0, []⟩ : Segment), ⟨14, []⟩, ⟨28, " ftp://c".toList⟩],
            r.IsLinkIn "@room http://m@room http://m ftp://c".toList segment := by
  obtain ⟨htext, hreplaces⟩ := (replaced_of_plain .withBusyMention "@room@room ftp://c".toList).1 rfl
  refine ⟨htext, hreplaces.mentions, fun r hr hmention => ?_⟩
  obtain ⟨segment, hsegment, -, hlink⟩ := hreplaces.links r hr hmention
  exact ⟨segment, hsegment, hlink⟩

end MessageBody
