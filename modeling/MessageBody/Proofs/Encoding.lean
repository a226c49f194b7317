import MessageBody.Proofs.Brackets
import MessageBody.Proofs.Disclosures
import MessageBody.Proofs.Understanding

/-! # What message bodies encode

    Every annotation that holds a value holds the value that the content calls for:
    a span its look and where it starts, a link what its address points to, a quote
    or a list item the number of quotes and list items around it, a part of a
    details element where the element starts.  `Content.EncodedBy` reads these
    values off the content, in the order in which the annotations open, and the walk
    is shown to write them and no others.  An address in running text has no
    counterpart in the content, so its link is compared with the characters that it
    covers in the document. -/

namespace MessageBody

open Fragment AnnotatedText

/-! ## Parts of a document -/

/-- The characters that a range covers. -/
def Range.slice (doc : List Char) (r : Range) : List Char :=
  (doc.drop r.start).take (r.stop - r.start)

/-- The characters `s` stand at position `o` of the document. -/
def StandsAt (doc : List Char) (o : Nat) (s : List Char) : Prop :=
  ∃ before after, doc = before ++ s ++ after ∧ before.length = o

namespace StandsAt

variable {doc s s' : List Char} {o : Nat}

/-- The first of two texts stands where both stand together. -/
theorem left (h : StandsAt doc o (s ++ s')) : StandsAt doc o s := by
  obtain ⟨before, after, rfl, hlength⟩ := h
  exact ⟨before, s' ++ after, by simp, hlength⟩

/-- The second of two texts stands behind the first. -/
theorem right (h : StandsAt doc o (s ++ s')) : StandsAt doc (o + s.length) s' := by
  obtain ⟨before, after, rfl, rfl⟩ := h
  exact ⟨before ++ s, after, by simp, List.length_append⟩

theorem refl (s : List Char) : StandsAt s 0 s :=
  ⟨[], [], by simp, rfl⟩

/-- A text in a document begins within it. -/
theorem offset_le (h : StandsAt doc o s) : o ≤ doc.length := by
  obtain ⟨before, after, rfl, rfl⟩ := h
  simp

/-- A range covers the same characters in a text and where the text stands. -/
theorem slice_shift (h : StandsAt doc o s) {r : Range} (hstart : r.start ≤ r.stop)
    (hstop : r.stop ≤ s.length) : (r.shift o).slice doc = r.slice s := by
  obtain ⟨before, after, rfl, rfl⟩ := h
  have hwidth : before.length + r.stop - (before.length + r.start) = r.stop - r.start := by omega
  simp only [Range.slice, Range.shift, hwidth, List.append_assoc]
  rw [← List.drop_drop, List.drop_left, List.drop_append_of_le_length (by omega),
    List.take_append_of_le_length (by rw [List.length_drop]; omega)]

end StandsAt

/-! ## Links in running text -/

namespace AnnotatedText

variable {t u : AnnotatedText}

/-- Every annotation that holds a value is the link to the address that it
    covers. -/
def LinksAddresses (t : AnnotatedText) : Prop :=
  ∀ r ∈ t.ranges, r.item.isCoded = true →
    r.start ≤ r.stop ∧ r.stop ≤ t.length ∧ r.item = linkItem (r.slice t.text)

theorem linksAddresses_plain (s : List Char) : (plain s).LinksAddresses :=
  fun _ hr => nomatch hr

/-- Two texts with links on addresses alone make one. -/
theorem linksAddresses_append (ht : t.LinksAddresses) (hu : u.LinksAddresses) :
    (t ++ u).LinksAddresses := by
  have hstands : StandsAt (t ++ u).text 0 (t.text ++ u.text) := StandsAt.refl _
  intro r hr hcoded
  rw [length_append]
  rcases List.mem_append.mp hr with hr | hr
  · obtain ⟨hstart, hstop, hitem⟩ := ht r hr hcoded
    have hslice := hstands.left.slice_shift hstart hstop
    rw [Range.shift_zero] at hslice
    exact ⟨hstart, Nat.le_add_right_of_le hstop, hslice ▸ hitem⟩
  · obtain ⟨r', hr', rfl⟩ := List.mem_map.mp hr
    obtain ⟨hstart, hstop, hitem⟩ := hu r' hr' hcoded
    have hslice := hstands.right.slice_shift hstart hstop
    rw [Nat.zero_add] at hslice
    refine ⟨Nat.add_le_add_left hstart _, Nat.add_le_add_left hstop _, ?_⟩
    exact hslice ▸ hitem

/-- An item that encodes nothing does not change what is a link. -/
theorem linksAddresses_marked {item : Item} (hitem : item.isCoded = false)
    (ht : t.LinksAddresses) : (t.marked item).LinksAddresses := by
  intro r hr hcoded
  rcases List.mem_cons.mp hr with rfl | hr
  · exact Bool.noConfusion (hitem.symm.trans hcoded)
  · exact ht r hr hcoded

end AnnotatedText

/-- The links of running text are on its addresses. -/
theorem linksAddresses_richText (style : RenderStyle) (allowMention autoLink : Bool)
    (s : List Char) : (richText style allowMention autoLink s).LinksAddresses := by
  refine richText_induction (linksAddresses_plain []) (fun _ _ => linksAddresses_append)
    (linksAddresses_marked rfl (linksAddresses_plain _)) (fun s r hr _ => ?_) allowMention s
  obtain ⟨o, ho, rfl⟩ := exists_of_mem_linkedText hr
  obtain ⟨-, hstart, hstop⟩ := (Link.occurrencesFrom_spec 0 0 false s).1 o ho
  rw [Nat.zero_add] at hstop
  exact ⟨Nat.le_of_lt hstart, hstop, rfl⟩

/-! ## What content calls for -/

/-- The first of the ranges `rs` satisfies `P`, and after it comes what is inside
    it. -/
def Enclosed (P : Range → Prop) (inside : List Range → Prop) (rs : List Range) : Prop :=
  ∃ r inner, rs = r :: inner ∧ P r ∧ inside inner

namespace Content

mutual

/-- The ranges `rs` of a document are the annotations with the values that a piece
    of content calls for, in the order in which they open.  The piece stands in a
    list that is ordered or not, or in none, and `depth` quotes and list items are
    around it. -/
def EncodedBy (doc : List Char) :
    Content → (isOrdered? : Option Bool) → (depth : Nat) → List Range → Prop
  | .text _, _, _, rs => ∀ r ∈ rs,
      ∃ link, DeepLink.ofUrl? (r.slice doc) = some link ∧ r.item.Encodes (.link link)
  | .lineBreak, _, _, rs | .image _, _, _, rs | .rule, _, _, rs => rs = []
  | .span look children, isOrdered?, depth, rs =>
      Enclosed (fun r => r.item.Encodes (.span (spanAttributes look r.start)))
        (fun inner => EncodedByAll doc children isOrdered? depth inner) rs
  | .anchor address children, isOrdered?, depth, rs =>
      match DeepLink.ofUrl? address.toList with
      | none => EncodedByAll doc children isOrdered? depth rs
      | some link =>
          Enclosed (fun r => r.item.Encodes (.link link))
            (fun inner => EncodedByAll doc children isOrdered? depth inner) rs
  | .quote children, isOrdered?, depth, rs =>
      Enclosed (fun r => r.item.Encodes (.quote (depth + 1)))
        (fun inner => EncodedByAll doc children isOrdered? (depth + 1) inner) rs
  | .details before summary after, isOrdered?, depth, rs =>
      ∃ id opening label closing, rs = opening ++ label ++ closing ∧ StartAt id rs
        ∧ (before = [] ∧ opening = [] ∨ before ≠ []
          ∧ Enclosed (fun r => r.item.Encodes (.content id))
            (fun inner => EncodedByAll doc before isOrdered? depth inner) opening)
        ∧ Enclosed (fun r => r.item.Encodes (.summary id))
            (fun inner => EncodedByAll doc summary isOrdered? depth inner) label
        ∧ (after = [] ∧ closing = [] ∨ after ≠ []
          ∧ Enclosed (fun r => r.item.Encodes (.content id))
            (fun inner => EncodedByAll doc after isOrdered? depth inner) closing)
  | .unorderedList children, _, depth, rs => EncodedByAll doc children (some false) depth rs
  | .orderedList _ children, _, depth, rs => EncodedByAll doc children (some true) depth rs
  | .listItem _ children, isOrdered?, depth, rs =>
      match isOrdered? with
      | none => EncodedByAll doc children none depth rs
      | some isOrdered =>
          -- an item that only holds further lists has no bullet
          if !isOrdered && !hasOwnText children then
            EncodedByAll doc children (some isOrdered) (depth + 1) rs
          else
            Enclosed (fun r => r.item.Encodes (.item isOrdered depth))
              (fun inner => EncodedByAll doc children (some isOrdered) (depth + 1) inner) rs
  | .emphasis _ children, isOrdered?, depth, rs | .code children, isOrdered?, depth, rs
  | .foreignImage children, isOrdered?, depth, rs | .heading _ children, isOrdered?, depth, rs
  | .paragraph _ children, isOrdered?, depth, rs | .preformatted children, isOrdered?, depth, rs
  | .unsupported _ children, isOrdered?, depth, rs =>
      EncodedByAll doc children isOrdered? depth rs

/-- The ranges `rs` are the annotations with the values that pieces of content call
    for. -/
def EncodedByAll (doc : List Char) :
    List Content → (isOrdered? : Option Bool) → (depth : Nat) → List Range → Prop
  | [], _, _, rs => rs = []
  | c :: cs, isOrdered?, depth, rs =>
      ∃ first rest, rs = first ++ rest ∧ EncodedBy doc c isOrdered? depth first
        ∧ EncodedByAll doc cs isOrdered? depth rest

end

end Content

/-! ## The walk -/

/-- Whether the list is ordered, if there is one. -/
def ListScope.isOrdered? : ListScope → Option Bool
  | .none => .none
  | .unordered _ => some false
  | .ordered => some true

section Walk

variable {doc : List Char} {o depth : Nat} {isOrdered? : Option Bool} {ctx : Context}

/-- The content of a paragraph stands where the paragraph does. -/
theorem standsAt_closeParagraph {isDivision : Bool} {ahead : List Content} {body : Rendered}
    (h : StandsAt doc o (closeParagraph ctx isDivision ahead body).fragment.text.text) :
    StandsAt doc o body.fragment.text.text := by
  rw [closeParagraph] at h
  split at h
  · exact h
  · exact h.left

theorem standsAt_closePreformatted {ahead : List Content} {position : Cursor} {body : Rendered}
    (h : StandsAt doc o (closePreformatted ctx ahead position body).fragment.text.text) :
    StandsAt doc o body.fragment.text.text := by
  rw [closePreformatted] at h
  split at h
  · exact h
  · exact h.left

/-- A link that shows its content has it where it stands. -/
theorem standsAt_closeAnchor (hstyle : ctx.style.KeepsLinkContent) {address : String}
    {link? : Option DeepLink} {body : Rendered}
    (h : StandsAt doc o (closeAnchor ctx address link? body).fragment.text.text) :
    StandsAt doc o body.fragment.text.text := by
  cases link? with
  | none => exact h
  | some link =>
      rw [closeAnchor, Rendered.fragment_withTrace, Fragment.text_marked, linkText_eq hstyle] at h
      exact h

/-- What comes after a text stands where the text ends. -/
theorem standsAt_advance {position : Cursor} {t u : AnnotatedText}
    (h : StandsAt doc position.offset (t ++ u).text) :
    StandsAt doc (position.advance t).offset u.text := by
  rw [Cursor.offset_advance]
  exact h.right

/-- What comes after characters stands behind them. -/
theorem standsAt_after {s : List Char} {r : Rendered} {position : Cursor}
    (h : StandsAt doc position.offset (r.after s).fragment.text.text) :
    StandsAt doc (position.advance (.plain s)).offset r.fragment.text.text :=
  standsAt_advance h

/-- The parts of a details element stand one after the other. -/
theorem standsAt_closeDetails {position : Cursor} {before label after : Rendered}
    (h : StandsAt doc position.offset
      (closeDetails position before label after).fragment.text.text) :
    StandsAt doc position.offset before.fragment.text.text
      ∧ StandsAt doc (position.advance before.fragment.text).offset label.fragment.text.text
      ∧ StandsAt doc ((position.advance before.fragment.text).advance label.fragment.text).offset
        after.fragment.text.text := by
  have hparts : StandsAt doc position.offset
      (before.fragment.text ++ (label.fragment.text ++ after.fragment.text)).text := by
    rw [← append_assoc]
    exact h
  have hrest := standsAt_advance hparts
  exact ⟨hparts.left, hrest.left, standsAt_advance hrest⟩

/-- A marked text opens with its mark. -/
theorem enclosed_marked {P : Range → Prop} {inside : List Range → Prop} {item : Item}
    {coded : Coded} (hitem : item.Encodes coded) {t : AnnotatedText}
    (hP : P ⟨item, o, o + t.length⟩) (h : inside (t.selected Item.isCoded o)) :
    Enclosed P inside ((t.marked item).selected Item.isCoded o) := by
  rw [selected_marked hitem.isCoded]
  exact ⟨_, _, rfl, hP, h⟩

/-- The links in running text are those to the addresses that they cover. -/
theorem richText_encoded {style : RenderStyle} {allowMention autoLink : Bool} {s : List Char}
    (h : StandsAt doc o (richText style allowMention autoLink s).text) :
    ∀ r ∈ (richText style allowMention autoLink s).selected Item.isCoded o,
      ∃ link, DeepLink.ofUrl? (r.slice doc) = some link ∧ r.item.Encodes (.link link) := by
  intro r hr
  obtain ⟨r', hr', rfl⟩ := List.mem_map.mp hr
  obtain ⟨hmem, hcoded⟩ := List.mem_filter.mp hr'
  obtain ⟨hstart, hstop, hitem⟩ := linksAddresses_richText _ _ _ _ r' hmem hcoded
  rw [hitem] at hcoded
  obtain ⟨link, haddress, hlink⟩ := linkItem_encodes hcoded
  refine ⟨link, (h.slice_shift hstart hstop).symm ▸ haddress, ?_⟩
  show r'.item.Encodes (.link link)
  rw [hitem]
  exact hlink

/-- Under callbacks that keep the content of links, an anchor holds the deep link
    that its address is. -/
theorem closeAnchor_encoded (hstyle : ctx.style.KeepsLinkContent) {address : String}
    {children : List Content} {body : Rendered}
    (h : Content.EncodedByAll doc children isOrdered? depth
      (body.fragment.text.selected Item.isCoded o)) :
    (Content.anchor address children).EncodedBy doc isOrdered? depth
      ((closeAnchor ctx address (DeepLink.ofUrl? address.toList) body).fragment.text.selected
        Item.isCoded o) := by
  rw [Content.EncodedBy]
  cases DeepLink.ofUrl? address.toList with
  | none =>
      rw [closeAnchor, Rendered.fragment_withTrace, selected_rendered_marked rfl]
      exact h
  | some link =>
      rw [closeAnchor, Rendered.fragment_withTrace, Fragment.text_marked, linkText_eq hstyle]
      exact enclosed_marked (encodes_deepLink link) (encodes_deepLink link) h

/-- A list item is marked for the list around it. -/
theorem itemLabel?_cases (ctx : Context) (value : Option Int) (next : Int) :
    itemLabel? ctx value next = none ∧ ctx.scope.isOrdered? = none
      ∨ ∃ label isOrdered number,
        itemLabel? ctx value next = some (label, (Coded.item isOrdered ctx.depth).tag, number)
        ∧ ctx.scope.isOrdered? = some isOrdered := by
  rw [itemLabel?]
  cases ctx.scope with
  | none => exact Or.inl ⟨rfl, rfl⟩
  | unordered bullet => exact Or.inr ⟨_, false, _, rfl, rfl⟩
  | ordered => exact Or.inr ⟨_, true, _, rfl, rfl⟩

/-- What a part of a details element encodes when it stands at position `o`: the
    part itself and what is inside it. -/
def PartEncoded (coded : Coded) (o : Nat) (inside : List Range → Prop) (t : AnnotatedText) : Prop :=
  StartAt o (t.selected Item.isCoded o)
    ∧ Enclosed (fun r => r.item.Encodes coded) inside (t.selected Item.isCoded o)

/-- A part with an item of its own encodes what the item does. -/
theorem partEncoded_marked {coded : Coded} {item : Item} (hitem : item.Encodes coded)
    {inside : List Range → Prop} {t : AnnotatedText} (h : inside (t.selected Item.isCoded o)) :
    PartEncoded coded o inside (t.marked item) := by
  refine ⟨?_, enclosed_marked hitem hitem h⟩
  rw [selected_marked hitem.isCoded]
  rfl

/-- Hidden content is encoded with the number of its details element. -/
theorem hideContent_encoded {id : Nat} (hid : id < 2147483648) {content : List Content}
    (next : Int) {body : Rendered}
    (h : StandsAt doc o body.fragment.text.text →
      Content.EncodedByAll doc content isOrdered? depth
        (body.fragment.text.selected Item.isCoded o)) :
    let hidden := hideContent (payloadOf id) content next body
    StandsAt doc o hidden.fragment.text.text →
      content = [] ∧ hidden.fragment.text = .empty ∨ content ≠ []
        ∧ PartEncoded (.content id) o (Content.EncodedByAll doc content isOrdered? depth)
          hidden.fragment.text := by
  intro hidden hstands
  rcases text_hideContent (payloadOf id) content next body with hnone | ⟨hne, htext⟩
  · exact Or.inl hnone
  · refine Or.inr ⟨hne, ?_⟩
    rw [htext] at hstands ⊢
    exact partEncoded_marked (encodes_payloadOf (.content id) rfl hid) (h hstands)

/-- The parts of a details element, each marked where it opens, hold the position
    of the first one. -/
theorem encodedBy_details {before summary after : List Content}
    {opening label closing : AnnotatedText}
    (hbefore : before = [] ∧ opening = .empty ∨ before ≠ [] ∧ PartEncoded (.content o) o
      (Content.EncodedByAll doc before isOrdered? depth) opening)
    (hsummary : PartEncoded (.summary o) (o + opening.length)
      (Content.EncodedByAll doc summary isOrdered? depth) label)
    (hafter : after = [] ∧ closing = .empty ∨ after ≠ []
      ∧ PartEncoded (.content o) (o + (opening.length + label.length))
        (Content.EncodedByAll doc after isOrdered? depth) closing) :
    (Content.details before summary after).EncodedBy doc isOrdered? depth
      ((opening ++ label ++ closing).selected Item.isCoded o) := by
  rw [Content.EncodedBy]
  show InParts
    (fun id content => Enclosed (fun r => r.item.Encodes (.content id))
      (Content.EncodedByAll doc content isOrdered? depth))
    (fun id content => Enclosed (fun r => r.item.Encodes (.summary id))
      (Content.EncodedByAll doc content isOrdered? depth))
    before summary after ((opening ++ label ++ closing).selected Item.isCoded o)
  exact inParts_details hbefore hsummary (hafter.imp_right fun h => ⟨h.1, h.2.2⟩)

mutual

/-- The annotations that the walk makes of a piece of content hold the values that
    the piece calls for. -/
theorem renderOne_encoded (hdoc : doc.length < 2147483648) : (c : Content) → (ctx : Context) →
    (ahead : List Content) → (previous : Option Trace) → (position : Cursor) → (next : Int) →
    ctx.style.KeepsLinkContent → ctx.depth + c.height < 2147483648 →
    StandsAt doc position.offset
      (renderOne c ctx ahead previous position next).fragment.text.text →
    c.EncodedBy doc ctx.scope.isOrdered? ctx.depth
      ((renderOne c ctx ahead previous position next).fragment.text.selected Item.isCoded
        position.offset)
  | .text data, ctx, ahead, previous, position, next, _, _, hstands => by
      rw [renderOne] at hstands ⊢
      rw [Content.EncodedBy]
      split at hstands
      · exact fun _ hr => nomatch hr
      · exact richText_encoded hstands
  | .emphasis e children, ctx, _, _, position, next, hstyle, hheight, hstands => by
      rw [Content.height] at hheight
      rw [renderOne] at hstands ⊢
      rw [Content.EncodedBy, Rendered.fragment_withTrace, selected_rendered_marked rfl]
      exact renderAll_encoded hdoc children ctx none position next hstyle (by omega) hstands
  | .code children, ctx, _, _, position, next, hstyle, hheight, hstands => by
      rw [Content.height] at hheight
      rw [renderOne] at hstands ⊢
      have hbody := renderAll_encoded hdoc children ctx none position next hstyle (by omega)
      rw [Content.EncodedBy]
      split at hstands
      · rename_i hpre
        rw [if_pos hpre, Rendered.fragment_setTrace, selected_rendered_marked rfl]
        exact hbody hstands
      · rename_i hpre
        rw [if_neg hpre, Rendered.fragment_withTrace, selected_rendered_marked rfl]
        exact hbody hstands
  | .span look children, ctx, _, _, position, next, hstyle, hheight, hstands => by
      rw [Content.height] at hheight
      rw [renderOne] at hstands ⊢
      have hspan := encodes_span look (Nat.lt_of_le_of_lt hstands.offset_le hdoc)
      rw [Content.EncodedBy, Rendered.fragment_withTrace]
      exact enclosed_marked hspan hspan
        (renderAll_encoded hdoc children ctx none position next hstyle (by omega) hstands)
  | .anchor address children, ctx, _, _, position, next, hstyle, hheight, hstands => by
      rw [Content.height] at hheight
      rw [renderOne] at hstands ⊢
      refine closeAnchor_encoded hstyle ?_
      -- on a layer of its own or not, the content begins where the link stands
      have hoffset : (if (DeepLink.ofUrl? address.toList).isSome then position.fork
          else position).offset = position.offset := by
        split <;> rfl
      have hbody := standsAt_closeAnchor hstyle hstands
      rw [← hoffset] at hbody ⊢
      exact renderAll_encoded hdoc children { ctx with isLinked := true } none _ next hstyle
        (by simp only; omega) hbody
  | .lineBreak, ctx, ahead, previous, position, next, _, _, _ => by
      rw [renderOne, Content.EncodedBy]
      rfl
  | .image info, ctx, _, _, position, next, _, _, _ => by
      rw [renderOne, Content.EncodedBy]
      exact selected_marked_of_not rfl
  | .foreignImage children, ctx, _, _, position, next, hstyle, hheight, hstands => by
      rw [Content.height] at hheight
      rw [renderOne] at hstands ⊢
      rw [Content.EncodedBy, Rendered.fragment_setTrace]
      exact renderAll_encoded hdoc children ctx none position next hstyle (by omega) hstands
  | .heading level children, ctx, _, _, position, next, hstyle, hheight, hstands => by
      rw [Content.height] at hheight
      rw [renderOne] at hstands ⊢
      rw [Content.EncodedBy, Rendered.fragment_setTrace, selected_rendered_marked rfl]
      exact renderAll_encoded hdoc children ctx none position next hstyle (by omega) hstands
  | .paragraph isDivision children, ctx, ahead, previous, position, next, hstyle, hheight,
      hstands => by
      rw [Content.height] at hheight
      rw [renderOne] at hstands ⊢
      rw [Content.EncodedBy, selected_after, selected_closeParagraph]
      exact renderAll_encoded hdoc children ctx none _ next hstyle (by omega)
        (standsAt_closeParagraph (standsAt_after hstands))
  | .quote children, ctx, _, _, position, next, hstyle, hheight, hstands => by
      rw [Content.height] at hheight
      rw [renderOne] at hstands ⊢
      have hquote := encodes_payloadOf (.quote (ctx.depth + 1)) rfl (by omega)
      rw [Content.EncodedBy, Rendered.fragment_setTrace]
      exact enclosed_marked hquote hquote (renderAll_encoded hdoc children
        { ctx with depth := ctx.depth + 1 } none position next hstyle (by simp only; omega) hstands)
  | .preformatted children, ctx, ahead, previous, position, next, hstyle, hheight, hstands => by
      rw [Content.height] at hheight
      rw [renderOne] at hstands ⊢
      rw [Content.EncodedBy, selected_after, selected_closePreformatted]
      exact renderAll_encoded hdoc children { ctx with isPreformatted := true } none _ next hstyle
        (by simp only; omega) (standsAt_closePreformatted (standsAt_after hstands))
  | .rule, ctx, ahead, _, position, next, _, _, _ => by
      rw [renderOne, Content.EncodedBy, renderRule, Fragment.text_append, Fragment.text_append,
        selected_append, selected_append]
      exact (List.append_nil _).trans (selected_marked_of_not rfl)
  | .details before summary after, ctx, _, previous, position, next, hstyle, hheight, hstands => by
      rw [Content.height] at hheight
      rw [renderOne] at hstands ⊢
      have hid := Nat.lt_of_le_of_lt hstands.offset_le hdoc
      obtain ⟨hopening, hlabel, hclosing⟩ := standsAt_closeDetails hstands
      have hbefore := hideContent_encoded hid next
        (renderAll_encoded hdoc before ctx previous position next hstyle (by omega)) hopening
      generalize hideContent (payloadOf position.offset) before next
        (renderAll before ctx previous position next) = hiddenBefore at hbefore hlabel hclosing ⊢
      refine encodedBy_details hbefore
        (partEncoded_marked (encodes_payloadOf (.summary position.offset) rfl hid) ?_)
        (hideContent_encoded hid _ ?_ ?_)
      · rw [← Cursor.offset_advance, selected_after]
        exact renderAll_encoded hdoc summary ctx none _ hiddenBefore.next hstyle (by omega)
          (standsAt_after hlabel)
      · rw [← Nat.add_assoc, ← Cursor.offset_advance, ← Cursor.offset_advance]
        exact renderAll_encoded hdoc after ctx (some .block) _ _ hstyle (by omega)
      · rw [← Nat.add_assoc, ← Cursor.offset_advance, ← Cursor.offset_advance]
        exact hclosing
  | .unorderedList children, ctx, _, _, position, next, hstyle, hheight, hstands => by
      rw [Content.height] at hheight
      rw [renderOne] at hstands ⊢
      rw [Content.EncodedBy, Rendered.fragment_setNext, Rendered.fragment_setTrace,
        selected_rendered_marked rfl]
      exact renderAll_encoded hdoc children
        { ctx with scope := .unordered (ctx.style.bullet ctx.depth) } none position next hstyle
        (by simp only; omega) hstands
  | .orderedList start children, ctx, _, _, position, next, hstyle, hheight, hstands => by
      rw [Content.height] at hheight
      rw [renderOne] at hstands ⊢
      rw [Content.EncodedBy, Rendered.fragment_setNext, Rendered.fragment_setTrace,
        selected_rendered_marked rfl]
      exact renderAll_encoded hdoc children { ctx with scope := .ordered } none position _ hstyle
        (by simp only; omega) hstands
  | .listItem value children, ctx, _, _, position, next, hstyle, hheight, hstands => by
      rw [Content.height] at hheight
      rw [renderOne] at hstands ⊢
      rcases itemLabel?_cases ctx value next with ⟨hlabel, hscope⟩
        | ⟨label, isOrdered, number, hlabel, hscope⟩
      · rw [hlabel] at hstands ⊢
        rw [hscope, Content.EncodedBy, ← hscope]
        exact renderAll_encoded hdoc children ctx none position next hstyle (by omega) hstands
      · rw [hlabel] at hstands ⊢
        dsimp only at hstands ⊢
        rw [hscope, Content.EncodedBy, ← hscope]
        have htag : decide ((Coded.item isOrdered ctx.depth).tag = .unorderedListItem)
            = !isOrdered := by
          cases isOrdered <;> rfl
        rw [htag] at hstands ⊢
        split at hstands
        · rename_i hlists
          rw [if_pos hlists, if_pos hlists]
          exact renderAll_encoded hdoc children { ctx with depth := ctx.depth + 1 } none position
            number hstyle (by simp only; omega) hstands
        · rename_i hlists
          rw [if_neg hlists, if_neg hlists]
          have hitem := encodes_payloadOf (.item isOrdered ctx.depth) rfl (by omega)
          refine enclosed_marked hitem hitem ?_
          rw [selected_after]
          exact renderAll_encoded hdoc children { ctx with depth := ctx.depth + 1 } none _ number
            hstyle (by simp only; omega) (standsAt_after hstands)
  | .unsupported _ children, ctx, _, _, position, next, hstyle, hheight, hstands => by
      rw [Content.height] at hheight
      rw [renderOne] at hstands ⊢
      rw [Content.EncodedBy]
      exact renderAll_encoded hdoc children ctx none position next hstyle (by omega) hstands

/-- Pieces of content encode one after the other what each of them encodes. -/
theorem renderAll_encoded (hdoc : doc.length < 2147483648) : (cs : List Content) →
    (ctx : Context) → (previous : Option Trace) → (position : Cursor) → (next : Int) →
    ctx.style.KeepsLinkContent → ctx.depth + Content.heightOf cs < 2147483648 →
    StandsAt doc position.offset (renderAll cs ctx previous position next).fragment.text.text →
    Content.EncodedByAll doc cs ctx.scope.isOrdered? ctx.depth
      ((renderAll cs ctx previous position next).fragment.text.selected Item.isCoded
        position.offset)
  | [], ctx, previous, position, next, _, _, _ => by
      rw [renderAll, Content.EncodedByAll]
      rfl
  | c :: cs, ctx, previous, position, next, hstyle, hheight, hstands => by
      rw [Content.heightOf] at hheight
      rw [renderAll] at hstands ⊢
      rw [Content.EncodedByAll, Fragment.text_append, selected_append]
      refine ⟨_, _, rfl, renderOne_encoded hdoc c ctx cs previous position next hstyle (by omega)
        hstands.left, ?_⟩
      -- what stands in the document behind the first piece is the text of the others
      rw [← Cursor.offset_advance]
      exact renderAll_encoded hdoc cs ctx _ _ _ hstyle (by omega) (standsAt_advance hstands)

end

end Walk

/-! ## Message bodies -/

/-- The annotations of a text that stands alone hold the values that the content
    calls for. -/
def AnnotatedText.Encodes (t : AnnotatedText) (content : List Content) : Prop :=
  Content.EncodedByAll t.text content none 0 (t.ranges.filter fun r => r.item.isCoded)

namespace Body

variable {settings : Settings}

/-- What the body of a tree shows: the content of the tree, or only its text where
    elements are nested too deeply. -/
def shownContent (nodes : List Markup.Node) : List Content :=
  match Obstacle.inNodes? false Obstacle.depthLimit nodes with
  | some .tooDeep => [.text (Markup.Node.shownText nodes)]
  | _ => Content.ofNodes nodes

/-- The body of content encodes it as far as its numbers have 32 bits. -/
theorem encodes_ofContent (hstyle : settings.style.KeepsLinkContent) {content : List Content}
    (hheight : Content.heightOf content < 2147483648)
    (hlength : (ofContent settings content).text.length < 2147483648) :
    (ofContent settings content).text.Encodes content := by
  have hencoded := renderAll_encoded hlength content settings.context none (.startAt 0) 1 hstyle
    (by show 0 + _ < _; omega) (StandsAt.refl _)
  rw [show (Cursor.startAt 0).offset = 0 from rfl, selected_zero] at hencoded
  exact hencoded

/-- The body of a plain text encodes a run of text. -/
theorem encodes_ofPlain (settings : Settings) (s : List Char) :
    (ofPlain settings s).text.Encodes [.text s] := by
  have hlinks : ∀ r ∈ (ofPlain settings s).text.selected Item.isCoded 0, ∃ link,
      DeepLink.ofUrl? (r.slice (ofPlain settings s).text.text) = some link
        ∧ r.item.Encodes (.link link) := richText_encoded (StandsAt.refl _)
  rw [selected_zero] at hlinks
  rw [AnnotatedText.Encodes, Content.EncodedByAll]
  refine ⟨_, [], (List.append_nil _).symm, ?_, ?_⟩
  · rw [Content.EncodedBy]
    exact hlinks
  · rw [Content.EncodedByAll]

/-- The values in the body of a tree are those that what it shows calls for. -/
theorem encodes_of_nodes (hstyle : settings.style.KeepsLinkContent) {nodes : List Markup.Node}
    {body : Body} {log : List LogRecord} (h : ofNodes settings nodes = .ok (body, log))
    (hlength : body.text.length < 2147483648) : body.text.Encodes (shownContent nodes) := by
  rw [ofNodes] at h
  rw [shownContent]
  split at h
  · rename_i hnone
    cases h
    rw [hnone]
    have hheight := Obstacle.height_of_inNodes? nodes _ _ hnone
    exact encodes_ofContent hstyle (Nat.lt_of_le_of_lt hheight (by decide)) hlength
  · cases h
  · rename_i hdeep
    cases h
    rw [hdeep]
    exact encodes_ofPlain settings _

/-- A text that is composed of what content encloses is understood. -/
theorem isUnderstood_of_composed {f : Fragment} {style : RenderStyle} {limit : Nat}
    (h : Composed style limit 0 f) (hlimit : limit < 2147483648)
    (hlength : f.text.length < 2147483648) : f.text.IsUnderstood :=
  isUnderstood_of_isEncoded (h.isEncoded hlimit (by omega))

end Body

/-- **What is written into payloads is read from them**: for every tree, whatever
    texts are chosen for bullets, mentions, placeholders and images, whoever reads
    the payloads of the body understands them all, and the value that each of them
    is read as is the one that the content of the tree calls for.  This holds of the
    body of the tree, and of its content when nothing limits how deeply elements are
    nested. -/
theorem understood_of_nodes (settings : Settings) (hstyle : settings.style.KeepsLinkContent)
    (nodes : List Markup.Node) :
    (∀ body log, Body.ofNodes settings nodes = .ok (body, log) → body.text.length < 2147483648 →
      body.text.IsUnderstood ∧ body.text.Encodes (Body.shownContent nodes))
    ∧ (Content.heightOf (Content.ofNodes nodes) < 2147483648 →
      (Body.ofContent settings (Content.ofNodes nodes)).text.length < 2147483648 →
      (Body.ofContent settings (Content.ofNodes nodes)).text.IsUnderstood
        ∧ (Body.ofContent settings (Content.ofNodes nodes)).text.Encodes (Content.ofNodes nodes)) := by
  refine ⟨?_, ?_⟩
  · intro body log hbody hlength
    refine ⟨?_, Body.encodes_of_nodes hstyle hbody hlength⟩
    obtain ⟨f, hf, rfl⟩ := Body.ofNodes_composed hstyle hbody
    exact Body.isUnderstood_of_composed hf (by decide) hlength
  · intro hheight hlength
    exact ⟨Body.isUnderstood_of_composed (Body.render_composed hstyle _) hheight hlength,
      Body.encodes_ofContent hstyle hheight hlength⟩

/-- A spoiler with a letter beyond the basic plane in a link to a user in a link to a
    room, lists in a quote, one of them without a bullet of its own, details with
    something on both sides of the summary, and an address in text. -/
def nestedValues : List Markup.Node :=
  [.element "a" [("href", "https://matrix.to/#/!r\"é:s?via=v&via=😀")]
    [.element "a" [("href", "https://matrix.to/#/@😀:s")]
      [.element "span" [("data-mx-spoiler", ""), ("color", "#00ff7f")] [.text "a😀".toList]]],
   .element "blockquote" []
    [.element "ol" [("start", "3")]
      [.element "li" [] [.text "b".toList,
        .element "ul" [] [.element "li" []
          [.element "ul" [] [.element "li" [] [.text "c".toList]]]]]]],
   .element "details" []
    [.text "d".toList, .element "summary" [] [.text "e".toList],
     .element "blockquote" [] [.text "f".toList]],
   .text " https://matrix.to/#/@u%20:s".toList]

/-- Eleven values, the last of them from an address in running text. -/
theorem understood_nestedValues :
    ((Body.ofContent {} (Content.ofNodes nestedValues)).text.IsUnderstood
        ∧ (Body.ofContent {} (Content.ofNodes nestedValues)).text.Encodes
          (Body.shownContent nestedValues))
      ∧ ((Body.ofContent {} (Content.ofNodes nestedValues)).text.IsUnderstood
        ∧ (Body.ofContent {} (Content.ofNodes nestedValues)).text.Encodes
          (Content.ofNodes nestedValues))
      ∧ ((Body.ofContent {} (Content.ofNodes nestedValues)).text.ranges.filter
          fun r => r.item.isCoded).map (fun r => (r.item.tag?, r.start, r.stop))
        = [(some .roomLink, 0, 2), (some .userMention, 0, 2), (some .span, 0, 2),
          (some .blockQuote, 2, 9), (some .orderedListItem, 2, 9), (some .unorderedListItem, 6, 9),
          (some .detailsContent, 9, 10), (some .detailsSummary, 10, 13),
          (some .detailsContent, 13, 14), (some .blockQuote, 13, 14),
          (some .userMention, 14, 41)] := by
  obtain ⟨hbody, hcontent⟩ :=
    understood_of_nodes {} RenderStyle.standard_keepsLinkContent nestedValues
  exact ⟨hbody _ _ rfl (by decide +kernel), hcontent (by decide +kernel) (by decide +kernel),
    by decide +kernel⟩

end MessageBody
