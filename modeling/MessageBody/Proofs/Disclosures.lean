import MessageBody.Proofs.BodyPayloads

/-! # The marks of details elements

    A details element is marked in parts: what it hides before its summary, the
    summary, and what it hides after it.  All of them have one payload, the
    position where the first one starts.  Which marks belong together cannot be
    seen from the ranges alone.  `Content.DisclosedBy` reads off the content which
    marks its details elements call for, in the order in which their parts open,
    and the walk is shown to make these and no others. -/

namespace MessageBody

open Fragment

/-! ## What content calls for -/

/-- Whether an item marks a part of a details element. -/
def Item.isDisclosure (item : Item) : Bool :=
  item.tag? == some .detailsSummary || item.tag? == some .detailsContent

/-- Summaries and hidden contents are told by numbers. -/
theorem Item.isDisclosure_of_not_isKeyed {item : Item} (h : item.isKeyed = false) :
    item.isDisclosure = false := by
  rw [isDisclosure, Bool.or_eq_false_iff, beq_eq_false_iff_ne, beq_eq_false_iff_ne]
  exact ⟨tag?_ne_of_not_isKeyed h rfl, tag?_ne_of_not_isKeyed h rfl⟩

/-- The first of the ranges `rs` starts at position `p`. -/
def StartAt (p : Nat) (rs : List Range) : Prop :=
  rs.head?.map Range.start = some p

/-- The ranges `rs` are the mark of a part of the details element `id`, and after
    it what is inside the part. -/
def MarkedPart (tag : Tag) (id : Nat) (inside : List Range → Prop) (rs : List Range) : Prop :=
  ∃ r inner, rs = r :: inner ∧ r.item = .note tag (payloadOf id) ∧ inside inner

/-- What a list of ranges begins with, a longer one begins with. -/
theorem StartAt.append {p : Nat} {rs : List Range} (h : StartAt p rs) (rs' : List Range) :
    StartAt p (rs ++ rs') := by
  cases rs with
  | nil => exact nomatch h
  | cons r rs => exact h

/-- The ranges `rs` are those of the parts of a details element, one part after the
    other; there is none for content that is not there.  The element is identified
    by the position where the first range starts. -/
def InParts (isHidden isShown : Nat → List Content → List Range → Prop)
    (before summary after : List Content) (rs : List Range) : Prop :=
  ∃ id opening label closing, rs = opening ++ label ++ closing ∧ StartAt id rs
    ∧ (before = [] ∧ opening = [] ∨ before ≠ [] ∧ isHidden id before opening)
    ∧ isShown id summary label
    ∧ (after = [] ∧ closing = [] ∨ after ≠ [] ∧ isHidden id after closing)

namespace Content

mutual

/-- The ranges `rs` are the marks that the details elements in a piece of content
    call for, in the order in which their parts open.  The parts of one element
    all have the same payload, which is the position where the first of them
    starts. -/
def DisclosedBy : Content → List Range → Prop
  | .details before summary after, rs =>
      ∃ id opening label closing, rs = opening ++ label ++ closing ∧ StartAt id rs
        ∧ (before = [] ∧ opening = [] ∨ before ≠ []
          ∧ MarkedPart .detailsContent id (fun inner => DisclosedByAll before inner) opening)
        ∧ MarkedPart .detailsSummary id (fun inner => DisclosedByAll summary inner) label
        ∧ (after = [] ∧ closing = [] ∨ after ≠ []
          ∧ MarkedPart .detailsContent id (fun inner => DisclosedByAll after inner) closing)
  | .text _, rs | .lineBreak, rs | .image _, rs | .rule, rs => rs = []
  | .emphasis _ children, rs | .code children, rs | .span _ children, rs
  | .anchor _ children, rs | .foreignImage children, rs | .heading _ children, rs
  | .paragraph _ children, rs | .quote children, rs | .preformatted children, rs
  | .unorderedList children, rs | .orderedList _ children, rs | .listItem _ children, rs
  | .unsupported _ children, rs => DisclosedByAll children rs

/-- The ranges `rs` are the marks that the details elements in pieces of content
    call for. -/
def DisclosedByAll : List Content → List Range → Prop
  | [], rs => rs = []
  | c :: cs, rs => ∃ first rest, rs = first ++ rest ∧ c.DisclosedBy first ∧ DisclosedByAll cs rest

end

end Content

/-! ## The ranges of a text with certain items -/

namespace AnnotatedText

section Selected

variable {p : Item → Bool} {o : Nat} {t u : AnnotatedText}

/-- The ranges whose items satisfy `p` in a text that begins at position `o` of the
    document, where they stand in the document. -/
def selected (p : Item → Bool) (o : Nat) (t : AnnotatedText) : List Range :=
  (t.ranges.filter fun r => p r.item).map (Range.shift o)

/-- In a text that begins where the document begins, ranges stand where they
    are. -/
theorem selected_zero (p : Item → Bool) (t : AnnotatedText) :
    t.selected p 0 = t.ranges.filter fun r => p r.item := by
  rw [selected, List.map_congr_left fun r _ => Range.shift_zero r, List.map_id']

/-- The selected ranges of the second text are seen from behind the first. -/
theorem selected_append :
    (t ++ u).selected p o = t.selected p o ++ u.selected p (o + t.length) := by
  have hshift : ∀ rs : List Range,
      (rs.map (Range.shift t.length)).map (Range.shift o)
        = rs.map (Range.shift (o + t.length)) := by
    intro rs
    rw [List.map_map]
    exact List.map_congr_left fun r _ => Range.shift_shift ..
  rw [selected, ranges_append, List.filter_append, List.map_append, List.filter_map, hshift]
  rfl

/-- A selected item that is put around a text comes first. -/
theorem selected_marked {item : Item} (h : p item = true) :
    (t.marked item).selected p o = ⟨item, o, o + t.length⟩ :: t.selected p o := by
  simp [selected, marked, h, Range.shift]

/-- An item that is not selected leaves the selection as it is. -/
theorem selected_marked_of_not {item : Item} (h : p item = false) :
    (t.marked item).selected p o = t.selected p o := by
  simp [selected, marked, h]

/-- A text without selected items has none. -/
theorem selected_eq_nil (h : t.ItemsSatisfy fun item => p item = false) :
    t.selected p o = [] := by
  rw [selected, List.map_eq_nil_iff, List.filter_eq_nil_iff]
  intro r hr hitem
  exact Bool.noConfusion ((h r hr).symm.trans hitem)

end Selected

/-! ## The marks of a text -/

variable {o : Nat} {t u : AnnotatedText}

/-- The marks of details elements in a text that begins at position `o` of the
    document, where they stand in the document. -/
def disclosures (o : Nat) (t : AnnotatedText) : List Range :=
  (t.ranges.filter fun r => r.item.isDisclosure).map (Range.shift o)

/-- In a text that begins where the document begins, ranges stand where they
    are. -/
theorem disclosures_zero (t : AnnotatedText) :
    t.disclosures 0 = t.ranges.filter (·.item.isDisclosure) :=
  t.selected_zero Item.isDisclosure

@[simp] theorem disclosures_plain (s : List Char) : (plain s).disclosures o = [] := rfl

@[simp] theorem disclosures_append :
    (t ++ u).disclosures o = t.disclosures o ++ u.disclosures (o + t.length) :=
  selected_append (p := Item.isDisclosure)

theorem disclosures_marked {item : Item} (h : item.isDisclosure = true) :
    (t.marked item).disclosures o = ⟨item, o, o + t.length⟩ :: t.disclosures o :=
  selected_marked h

theorem disclosures_marked_of_not {item : Item} (h : item.isDisclosure = false) :
    (t.marked item).disclosures o = t.disclosures o :=
  selected_marked_of_not h

/-- A text in which no item has a key marks no details element. -/
theorem disclosures_eq_nil (h : t.ItemsSatisfy fun item => item.isKeyed = false) :
    t.disclosures o = [] :=
  selected_eq_nil (h.imp fun _ => Item.isDisclosure_of_not_isKeyed)

end AnnotatedText

open AnnotatedText

/-- Running text is put together of mentions and stretches with their links, one
    after the other. -/
theorem richText_induction {P : AnnotatedText → Prop} {style : RenderStyle} {autoLink : Bool}
    (hempty : P .empty) (happend : ∀ t u, P t → P u → P (t ++ u)) (hmention : P (mentionText style))
    (hlinked : ∀ s, P (linkedText autoLink s)) (allowMention : Bool) (s : List Char) :
    P (richText style allowMention autoLink s) := by
  have hmentions : ∀ rest : List (List Char), P (AnnotatedText.concat
      (rest.map fun stretch => mentionText style ++ linkedText autoLink stretch)) := by
    intro rest
    induction rest with
    | nil => exact hempty
    | cons stretch rest ih => exact happend _ _ (happend _ _ hmention (hlinked _)) ih
  rw [richText]
  split
  · split
    · exact hempty
    · exact happend _ _ (hlinked _) (hmentions _)
  · exact hlinked s

/-- The items of running text are mentions and links. -/
theorem itemsSatisfy_richText {P : Item → Prop} (hmention : P (.note .roomMention ""))
    (hlink : ∀ address, P (linkItem address)) (style : RenderStyle) (allowMention autoLink : Bool)
    (s : List Char) : (richText style allowMention autoLink s).ItemsSatisfy P := by
  refine richText_induction (itemsSatisfy_plain []) (fun _ _ => itemsSatisfy_append)
    (itemsSatisfy_marked hmention (itemsSatisfy_plain _)) (fun s r hr => ?_) allowMention s
  obtain ⟨o, -, rfl⟩ := exists_of_mem_linkedText hr
  exact hlink _

/-! ## The walk -/

section Walk

variable {o : Nat}

/-- What a part of a details element marks when it stands at position `o`: the part
    itself, if it is there, and what is inside it. -/
def PartDisclosed (tag : Tag) (id o : Nat) (content : List Content) (t : AnnotatedText) : Prop :=
  StartAt o (t.disclosures o)
    ∧ MarkedPart tag id (fun inner => Content.DisclosedByAll content inner) (t.disclosures o)

/-- A part of a details element has a range of its own in front of the disclosures inside. -/
theorem partDisclosed_marked {tag : Tag} {id o : Nat} {content : List Content} {t : AnnotatedText}
    (htag : (Item.note tag (payloadOf id)).isDisclosure = true)
    (h : Content.DisclosedByAll content (t.disclosures o)) :
    PartDisclosed tag id o content (t.marked (.note tag (payloadOf id))) := by
  rw [PartDisclosed, disclosures_marked htag]
  exact ⟨rfl, _, _, rfl, rfl, h⟩

/-- Content that a details element hides is marked; without content there is
    nothing. -/
theorem text_hideContent (id : String) (content : List Content) (next : Int) (body : Rendered) :
    let hidden := hideContent id content next body
    content = [] ∧ hidden.fragment.text = .empty ∨ content ≠ []
      ∧ hidden.fragment.text = body.fragment.text.marked (.note .detailsContent id) := by
  cases content with
  | nil => exact Or.inl ⟨rfl, rfl⟩
  | cons c cs => exact Or.inr ⟨List.cons_ne_nil c cs, rfl⟩

/-- Hidden content has a disclosure of its own, and none where there is nothing to hide. -/
theorem hideContent_disclosed (id : Nat) {o : Nat} {content : List Content} (next : Int)
    {body : Rendered}
    (h : Content.DisclosedByAll content (body.fragment.text.disclosures o)) :
    let hidden := hideContent (payloadOf id) content next body
    content = [] ∧ hidden.fragment.text = .empty
      ∨ content ≠ [] ∧ PartDisclosed .detailsContent id o content hidden.fragment.text := by
  rcases text_hideContent (payloadOf id) content next body with hnone | ⟨hne, htext⟩
  · exact Or.inl hnone
  · refine Or.inr ⟨hne, ?_⟩
    rw [htext]
    exact partDisclosed_marked rfl h

/-- The parts of a details element, each of which opens with a range of its own,
    are identified by the position of the first one. -/
theorem inParts_details {p : Item → Bool}
    {isHidden isShown : Nat → List Content → List Range → Prop}
    {before summary after : List Content} {o : Nat} {opening label closing : AnnotatedText}
    (hbefore : before = [] ∧ opening = .empty ∨ before ≠ []
      ∧ StartAt o (opening.selected p o) ∧ isHidden o before (opening.selected p o))
    (hsummary : StartAt (o + opening.length) (label.selected p (o + opening.length))
      ∧ isShown o summary (label.selected p (o + opening.length)))
    (hafter : after = [] ∧ closing = .empty ∨ after ≠ []
      ∧ isHidden o after (closing.selected p (o + (opening.length + label.length)))) :
    InParts isHidden isShown before summary after
      ((opening ++ label ++ closing).selected p o) := by
  have hsplit : (opening ++ label ++ closing).selected p o
      = opening.selected p o ++ label.selected p (o + opening.length)
        ++ closing.selected p (o + (opening.length + label.length)) := by
    rw [selected_append, selected_append, length_append]
  refine ⟨o, _, _, _, hsplit, ?_, ?_, hsummary.2, ?_⟩
  · -- what comes before the summary opens first, if there is anything
    rw [hsplit]
    refine StartAt.append ?_ _
    rcases hbefore with ⟨-, rfl⟩ | ⟨-, hstart, -⟩
    · exact hsummary.1
    · exact hstart.append _
  · rcases hbefore with ⟨hnil, rfl⟩ | ⟨hne, -, hpart⟩
    · exact Or.inl ⟨hnil, rfl⟩
    · exact Or.inr ⟨hne, hpart⟩
  · rcases hafter with ⟨hnil, rfl⟩ | ⟨hne, hpart⟩
    · exact Or.inl ⟨hnil, rfl⟩
    · exact Or.inr ⟨hne, hpart⟩

/-- The parts of a details element, each marked where it opens, have the position
    of the first one for their payload. -/
theorem disclosedBy_details {before summary after : List Content} {o : Nat}
    {opening label closing : AnnotatedText}
    (hbefore : before = [] ∧ opening = .empty
      ∨ before ≠ [] ∧ PartDisclosed .detailsContent o o before opening)
    (hsummary : PartDisclosed .detailsSummary o (o + opening.length) summary label)
    (hafter : after = [] ∧ closing = .empty ∨ after ≠ []
      ∧ PartDisclosed .detailsContent o (o + (opening.length + label.length)) after closing) :
    (Content.details before summary after).DisclosedBy
      ((opening ++ label ++ closing).disclosures o) := by
  rw [Content.DisclosedBy]
  show InParts (fun id content => MarkedPart .detailsContent id (Content.DisclosedByAll content))
    (fun id content => MarkedPart .detailsSummary id (Content.DisclosedByAll content))
    before summary after ((opening ++ label ++ closing).selected Item.isDisclosure o)
  exact inParts_details hbefore hsummary (hafter.imp_right fun h => ⟨h.1, h.2.2⟩)

section Selected

variable {p : Item → Bool}

/-- Marking a rendering with an item that is not selected leaves the selection as it is. -/
theorem selected_rendered_marked {item : Item} (h : p item = false) (r : Rendered) :
    (r.marked item).fragment.text.selected p o = r.fragment.text.selected p o := by
  rw [Rendered.fragment_marked, Fragment.text_marked, selected_marked_of_not h]

/-- Characters in front only move the ranges to where the rendering stands then. -/
theorem selected_after (s : List Char) (r : Rendered) (position : Cursor) :
    (r.after s).fragment.text.selected p position.offset
      = r.fragment.text.selected p (position.advance (.plain s)).offset := by
  rw [Cursor.offset_advance]
  exact selected_append.trans (List.nil_append _)

/-- Characters behind a rendering leave the selection as it is. -/
theorem selected_followedBy (s : List Char) (r : Rendered) :
    (r.followedBy s).fragment.text.selected p o = r.fragment.text.selected p o :=
  selected_append.trans (List.append_nil _)

/-- The line breaks of a paragraph leave the selection as it is. -/
theorem selected_closeParagraph (ctx : Context) (isDivision : Bool) (ahead : List Content)
    (body : Rendered) : (closeParagraph ctx isDivision ahead body).fragment.text.selected p o
      = body.fragment.text.selected p o := by
  rw [closeParagraph]
  split
  · rfl
  · exact selected_followedBy _ body

theorem selected_closePreformatted (ctx : Context) (ahead : List Content) (position : Cursor)
    (body : Rendered) : (closePreformatted ctx ahead position body).fragment.text.selected p o
      = body.fragment.text.selected p o := by
  rw [closePreformatted]
  split
  · rfl
  · exact selected_followedBy _ body

end Selected

theorem disclosures_ofChars (o : Nat) (s : List Char) :
    (ofChars s).text.disclosures o = [] := rfl

/-- What is around a rendering marks no details element. -/
theorem disclosures_rendered_marked {item : Item} (h : item.isDisclosure = false) (r : Rendered) :
    (r.marked item).fragment.text.disclosures o = r.fragment.text.disclosures o :=
  selected_rendered_marked h r

/-- Characters in front of a rendering move its disclosures. -/
theorem disclosures_after (s : List Char) (r : Rendered) (position : Cursor) :
    (r.after s).fragment.text.disclosures position.offset
      = r.fragment.text.disclosures (position.advance (.plain s)).offset :=
  selected_after (p := Item.isDisclosure) s r position

/-- The line breaks of a paragraph disclose nothing. -/
theorem closeParagraph_disclosures (ctx : Context) (isDivision : Bool) (ahead : List Content)
    (body : Rendered) : (closeParagraph ctx isDivision ahead body).fragment.text.disclosures o
      = body.fragment.text.disclosures o :=
  selected_closeParagraph (p := Item.isDisclosure) ctx isDivision ahead body

theorem closePreformatted_disclosures (ctx : Context) (ahead : List Content) (position : Cursor)
    (body : Rendered) : (closePreformatted ctx ahead position body).fragment.text.disclosures o
      = body.fragment.text.disclosures o :=
  selected_closePreformatted (p := Item.isDisclosure) ctx ahead position body

/-- Under callbacks that keep the content of links, an anchor marks what its
    content calls for, a deep link or not. -/
theorem closeAnchor_disclosed {ctx : Context} (hstyle : ctx.style.KeepsLinkContent)
    {address : String} {link? : Option DeepLink} {body : Rendered} {content : List Content}
    (h : Content.DisclosedByAll content (body.fragment.text.disclosures o)) :
    Content.DisclosedByAll content
      ((closeAnchor ctx address link? body).fragment.text.disclosures o) := by
  cases link? with
  | none =>
      rw [closeAnchor, Rendered.fragment_withTrace, disclosures_rendered_marked rfl]
      exact h
  | some link =>
      have hitem : (Item.note link.tag link.payload).isDisclosure = false := by
        cases link <;> rfl
      rw [closeAnchor, Rendered.fragment_withTrace, Fragment.text_marked,
        disclosures_marked_of_not hitem, linkText_eq hstyle]
      exact h

/-- The range of a list item is no disclosure. -/
theorem itemLabel?_not_isDisclosure {ctx : Context} {value : Option Int} {next number : Int}
    {label : List Char} {tag : Tag} (h : itemLabel? ctx value next = some (label, tag, number)) :
    (Item.note tag (payloadOf ctx.depth)).isDisclosure = false := by
  rw [itemLabel?] at h
  cases hscope : ctx.scope with
  | none =>
      rw [hscope] at h
      cases h
  | unordered bullet =>
      rw [hscope] at h
      cases h
      rfl
  | ordered =>
      rw [hscope] at h
      cases h
      rfl

mutual

/-- The walk marks the details elements in a piece of content as the piece calls
    for. -/
theorem renderOne_disclosed : (c : Content) → (ctx : Context) → (ahead : List Content) →
    (previous : Option Trace) → (position : Cursor) → (next : Int) →
    ctx.style.KeepsLinkContent →
    c.DisclosedBy ((renderOne c ctx ahead previous position next).fragment.text.disclosures
      position.offset)
  | .text data, ctx, ahead, previous, position, next, _ => by
      rw [renderOne, Content.DisclosedBy]
      split
      · rfl
      · exact disclosures_eq_nil (itemsSatisfy_richText (P := fun item => item.isKeyed = false) rfl
          isKeyed_linkItem _ _ _ _)
  | .emphasis e children, ctx, _, _, position, next, hstyle => by
      rw [renderOne, Content.DisclosedBy, Rendered.fragment_withTrace,
        disclosures_rendered_marked rfl]
      exact renderAll_disclosed children ctx none position next hstyle
  | .code children, ctx, _, _, position, next, hstyle => by
      rw [renderOne, Content.DisclosedBy]
      have hbody := renderAll_disclosed children ctx none position next hstyle
      split
      · rw [Rendered.fragment_setTrace, disclosures_rendered_marked rfl]
        exact hbody
      · rw [Rendered.fragment_withTrace, disclosures_rendered_marked rfl]
        exact hbody
  | .span look children, ctx, _, _, position, next, hstyle => by
      rw [renderOne, Content.DisclosedBy, Rendered.fragment_withTrace,
        disclosures_rendered_marked rfl]
      exact renderAll_disclosed children ctx none position next hstyle
  | .anchor address children, ctx, _, _, position, next, hstyle => by
      rw [renderOne, Content.DisclosedBy]
      refine closeAnchor_disclosed hstyle ?_
      -- on a layer of its own or not, the content begins where the link stands
      have hoffset : (if (DeepLink.ofUrl? address.toList).isSome then position.fork
          else position).offset = position.offset := by
        split <;> rfl
      rw [← hoffset]
      exact renderAll_disclosed children { ctx with isLinked := true } none _ next hstyle
  | .lineBreak, ctx, ahead, previous, position, next, _ => by
      rw [renderOne, Content.DisclosedBy]
      exact disclosures_plain _
  | .image info, ctx, _, _, position, next, _ => by
      rw [renderOne, Content.DisclosedBy]
      exact disclosures_marked_of_not rfl
  | .foreignImage children, ctx, _, _, position, next, hstyle => by
      rw [renderOne, Content.DisclosedBy, Rendered.fragment_setTrace]
      exact renderAll_disclosed children ctx none position next hstyle
  | .heading level children, ctx, _, _, position, next, hstyle => by
      rw [renderOne, Content.DisclosedBy, Rendered.fragment_setTrace,
        disclosures_rendered_marked rfl]
      exact renderAll_disclosed children ctx none position next hstyle
  | .paragraph isDivision children, ctx, ahead, previous, position, next, hstyle => by
      rw [renderOne, Content.DisclosedBy, disclosures_after, closeParagraph_disclosures]
      exact renderAll_disclosed children ctx none _ next hstyle
  | .quote children, ctx, _, _, position, next, hstyle => by
      rw [renderOne, Content.DisclosedBy, Rendered.fragment_setTrace,
        disclosures_rendered_marked rfl]
      exact renderAll_disclosed children { ctx with depth := ctx.depth + 1 } none position next hstyle
  | .preformatted children, ctx, ahead, previous, position, next, hstyle => by
      rw [renderOne, Content.DisclosedBy, disclosures_after, closePreformatted_disclosures]
      exact renderAll_disclosed children { ctx with isPreformatted := true } none _ next hstyle
  | .rule, ctx, ahead, _, position, next, _ => by
      rw [renderOne, Content.DisclosedBy, renderRule, Fragment.text_append, Fragment.text_append,
        disclosures_append, disclosures_append, disclosures_ofChars, disclosures_ofChars]
      exact (List.append_nil _).trans (disclosures_marked_of_not rfl)
  | .details before summary after, ctx, _, previous, position, next, hstyle => by
      rw [renderOne]
      have hbefore := hideContent_disclosed position.offset next
        (renderAll_disclosed before ctx previous position next hstyle)
      generalize hideContent (payloadOf position.offset) before next
        (renderAll before ctx previous position next) = hiddenBefore at hbefore ⊢
      refine disclosedBy_details hbefore (partDisclosed_marked rfl ?_) (hideContent_disclosed _ _ ?_)
      · rw [← Cursor.offset_advance, disclosures_after]
        exact renderAll_disclosed summary ctx none _ hiddenBefore.next hstyle
      · rw [← Nat.add_assoc, ← Cursor.offset_advance, ← Cursor.offset_advance]
        exact renderAll_disclosed after ctx (some .block) _ _ hstyle
  | .unorderedList children, ctx, _, _, position, next, hstyle => by
      rw [renderOne, Content.DisclosedBy, Rendered.fragment_setNext, Rendered.fragment_setTrace,
        disclosures_rendered_marked rfl]
      exact renderAll_disclosed children
        { ctx with scope := .unordered (ctx.style.bullet ctx.depth) } none position next hstyle
  | .orderedList start children, ctx, _, _, position, next, hstyle => by
      rw [renderOne, Content.DisclosedBy, Rendered.fragment_setNext, Rendered.fragment_setTrace,
        disclosures_rendered_marked rfl]
      exact renderAll_disclosed children { ctx with scope := .ordered } none position _ hstyle
  | .listItem value children, ctx, _, _, position, next, hstyle => by
      rw [renderOne, Content.DisclosedBy]
      split
      · exact renderAll_disclosed children ctx none position next hstyle
      · rename_i label tag number hlabel
        extract_lets inner
        split
        · exact renderAll_disclosed children inner none position number hstyle
        · rw [Rendered.fragment_withTrace,
            disclosures_rendered_marked (itemLabel?_not_isDisclosure hlabel), disclosures_after]
          exact renderAll_disclosed children inner none _ number hstyle
  | .unsupported _ children, ctx, _, _, position, next, hstyle => by
      rw [renderOne, Content.DisclosedBy]
      exact renderAll_disclosed children ctx none position next hstyle

/-- Pieces of content disclose one after the other what each of them discloses. -/
theorem renderAll_disclosed : (cs : List Content) → (ctx : Context) → (previous : Option Trace) →
    (position : Cursor) → (next : Int) → ctx.style.KeepsLinkContent →
    Content.DisclosedByAll cs ((renderAll cs ctx previous position next).fragment.text.disclosures
      position.offset)
  | [], ctx, previous, position, next, _ => by
      rw [renderAll, Content.DisclosedByAll]
      rfl
  | c :: cs, ctx, previous, position, next, hstyle => by
      rw [renderAll, Content.DisclosedByAll, Fragment.text_append, disclosures_append]
      refine ⟨_, _, rfl, renderOne_disclosed c ctx cs previous position next hstyle, ?_⟩
      rw [← Cursor.offset_advance]
      exact renderAll_disclosed cs ctx _ _ _ hstyle

end

end Walk

end MessageBody
