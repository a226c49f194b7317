import MessageBody.Proofs.Composition
import MessageBody.Proofs.Summaries

/-! # Links on a text of their own

    The content of a deep link is rendered on a text of its own, which begins where the
    link stands, and is put in when it is complete; the content of any other link is
    rendered in place.  Paragraphs, preformatted text and rules look back at the text in
    front of them, for they may need a line break there, and a text of its own has
    nothing in front.  All other content asks only where it stands in the document
    (`renderOne_offset`), and is rendered the same both ways (`differAtLink_anchors`). -/

namespace MessageBody

/-! ## Content that looks back -/

namespace Content

mutual

/-- Some piece inside looks at the text in front of it, or the piece itself does. -/
def looksBack : Content → Bool
  | .text _ | .lineBreak | .image _ => false
  | .paragraph _ _ | .preformatted _ | .rule => true
  | .details before summary after =>
      looksBackAny before || (looksBackAny summary || looksBackAny after)
  | .emphasis _ children | .code children | .span _ children | .anchor _ children
  | .foreignImage children | .heading _ children | .quote children | .unorderedList children
  | .orderedList _ children | .listItem _ children | .unsupported _ children =>
      looksBackAny children

/-- Some of the pieces look back. -/
def looksBackAny : List Content → Bool
  | [] => false
  | c :: cs => c.looksBack || looksBackAny cs

end

/-- Pieces look back if some of them do. -/
theorem looksBackAny_append (as bs : List Content) :
    looksBackAny (as ++ bs) = (looksBackAny as || looksBackAny bs) := by
  induction as with
  | nil => exact (Bool.false_or _).symm
  | cons a as ih => rw [List.cons_append, looksBackAny, looksBackAny, ih, Bool.or_assoc]

end Content

namespace Cursor

variable {position position' : Cursor}

/-- The position in the document moves alike wherever the text under construction begins. -/
theorem offset_advance_congr (h : position.offset = position'.offset) (t : AnnotatedText) :
    (position.advance t).offset = (position'.advance t).offset := by
  rw [offset_advance, offset_advance, h]

end Cursor

mutual

/-- A piece that does not look back is rendered the same wherever the position in the
    document is the same. -/
theorem renderOne_offset : (c : Content) → (ctx : Context) → (ahead : List Content) →
    (previous : Option Trace) → (position position' : Cursor) → (next : Int) →
    c.looksBack = false → position.offset = position'.offset →
    renderOne c ctx ahead previous position next = renderOne c ctx ahead previous position' next
  | .text _, _, _, _, _, _, _, _, _ => by rw [renderOne, renderOne]
  | .emphasis _ children, ctx, _, _, position, position', next, hc, h => by
      rw [Content.looksBack] at hc
      rw [renderOne, renderOne, renderAll_offset children ctx none position position' next hc h]
  | .code children, ctx, _, _, position, position', next, hc, h => by
      rw [Content.looksBack] at hc
      rw [renderOne, renderOne, renderAll_offset children ctx none position position' next hc h]
  | .span _ children, ctx, _, _, position, position', next, hc, h => by
      rw [Content.looksBack] at hc
      rw [renderOne, renderOne, renderAll_offset children ctx none position position' next hc h, h]
  | .anchor address children, ctx, _, _, position, position', next, hc, h => by
      rw [Content.looksBack] at hc
      -- on a text of its own or in place, the content begins at the same position
      have hstart : ∀ isForked : Bool, (if isForked then position.fork else position).offset
          = (if isForked then position'.fork else position').offset := by
        intro isForked
        cases isForked with
        | false => exact h
        | true => exact h
      rw [renderOne, renderOne]
      exact congrArg _ (renderAll_offset children _ none _ _ next hc (hstart _))
  | .lineBreak, _, _, _, _, _, _, _, _ => by rw [renderOne, renderOne]
  | .image _, _, _, _, _, _, _, _, _ => by rw [renderOne, renderOne]
  | .foreignImage children, ctx, _, _, position, position', next, hc, h => by
      rw [Content.looksBack] at hc
      rw [renderOne, renderOne, renderAll_offset children ctx none position position' next hc h]
  | .heading _ children, ctx, _, _, position, position', next, hc, h => by
      rw [Content.looksBack] at hc
      rw [renderOne, renderOne, renderAll_offset children ctx none position position' next hc h]
  | .paragraph _ _, _, _, _, _, _, _, hc, _ => nomatch hc
  | .quote children, ctx, _, _, position, position', next, hc, h => by
      rw [Content.looksBack] at hc
      rw [renderOne, renderOne, renderAll_offset children _ none position position' next hc h]
  | .preformatted _, _, _, _, _, _, _, hc, _ => nomatch hc
  | .rule, _, _, _, _, _, _, hc, _ => nomatch hc
  | .details before summary after, ctx, _, previous, position, position', next, hc, h => by
      rw [Content.looksBack, Bool.or_eq_false_iff, Bool.or_eq_false_iff] at hc
      obtain ⟨hbefore, hsummary, hafter⟩ := hc
      -- each part begins where the ones in front of it end, which is the same position
      rw [renderOne, renderOne, h, renderAll_offset before ctx previous position position' next
        hbefore h]
      generalize hideContent (payloadOf position'.offset) before next
        (renderAll before ctx previous position' next) = hidden
      have hend := Cursor.offset_advance_congr h hidden.fragment.text
      have hsign := Cursor.offset_advance_congr hend (.plain ctx.style.summaryPlaceholder.toList)
      simp only [renderAll_offset summary ctx none _ _ hidden.next hsummary hsign]
      generalize ((renderAll summary ctx none _ hidden.next).after
        ctx.style.summaryPlaceholder.toList).marked _ = label
      have hlabel := Cursor.offset_advance_congr hend label.fragment.text
      rw [renderAll_offset after ctx _ _ _ label.next hafter hlabel, closeDetails, closeDetails, h]
  | .unorderedList children, ctx, _, _, position, position', next, hc, h => by
      rw [Content.looksBack] at hc
      rw [renderOne, renderOne, renderAll_offset children _ none position position' next hc h]
  | .orderedList start children, ctx, _, _, position, position', next, hc, h => by
      rw [Content.looksBack] at hc
      rw [renderOne, renderOne, renderAll_offset children _ none position position' _ hc h]
  | .listItem value children, ctx, _, _, position, position', next, hc, h => by
      rw [Content.looksBack] at hc
      rw [renderOne, renderOne]
      split
      · exact renderAll_offset children ctx none position position' next hc h
      · rename_i label tag number _
        have hlabel := Cursor.offset_advance_congr h (.plain label)
        simp only [renderAll_offset children _ none position position' number hc h,
          renderAll_offset children _ none _ _ number hc hlabel]
  | .unsupported _ children, ctx, _, _, position, position', next, hc, h => by
      rw [Content.looksBack] at hc
      rw [renderOne, renderOne, renderAll_offset children ctx none position position' next hc h]

/-- The same for pieces of content one after the other. -/
theorem renderAll_offset : (cs : List Content) → (ctx : Context) → (previous : Option Trace) →
    (position position' : Cursor) → (next : Int) → Content.looksBackAny cs = false →
    position.offset = position'.offset →
    renderAll cs ctx previous position next = renderAll cs ctx previous position' next
  | [], _, _, _, _, _, _, _ => by rw [renderAll, renderAll]
  | c :: cs, ctx, previous, position, position', next, hcs, h => by
      rw [Content.looksBackAny, Bool.or_eq_false_iff] at hcs
      rw [renderAll, renderAll, renderOne_offset c ctx cs previous position position' next hcs.1 h]
      generalize renderOne c ctx cs previous position' next = first
      have hrest := Cursor.offset_advance_congr h first.fragment.text
      rw [renderAll_offset cs ctx _ _ _ _ hcs.2 hrest]

end

/-! ## Elements that look back -/

namespace Markup.Node

mutual

/-- The node is an element with one of the names, or there is one inside it. -/
def holds (names : List String) : Node → Bool
  | .text _ => false
  | .element name _ children => names.contains name || anyHolds names children

/-- Some of the nodes is such an element, or there is one inside it. -/
def anyHolds (names : List String) : List Node → Bool
  | [] => false
  | node :: nodes => node.holds names || anyHolds names nodes

end

/-- The names of the elements that look at the text in front of them. -/
def namesLookingBack : List String := ["p", "div", "pre", "hr"]

end Markup.Node

namespace Content

/-- A details element looks back if something inside does, for it has no gap of its own. -/
theorem looksBack_detailsOf (cs : List Content) : (detailsOf cs).looksBack = looksBackAny cs := by
  rcases detailsOf_cases cs with h | ⟨before, summary, after, rfl, h⟩
  · rw [h, looksBack]
  · rw [h, looksBack, looksBackAny_append, looksBackAny_append, Bool.or_assoc]

/-- An element looks back by its name or by its content. -/
theorem looksBack_ofElement {name : String}
    (hname : Markup.Node.namesLookingBack.contains name = false)
    (attributes : List (String × String)) {cs : List Content} (hcs : looksBackAny cs = false) :
    (ofElement name attributes cs).looksBack = false := by
  unfold ofElement
  split
  case h_16 | h_17 | h_19 | h_20 => exact absurd hname (by decide)
  case h_21 => rw [looksBack_detailsOf, hcs]
  case h_24 => split <;> simp only [looksBack, hcs]
  all_goals simp only [looksBack, hcs]

mutual

/-- A tree without the elements that look back has no such content. -/
theorem looksBack_ofNode : (node : Markup.Node) →
    node.holds Markup.Node.namesLookingBack = false → (ofNode node).looksBack = false
  | .text _, _ => rfl
  | .element name attributes children, h => by
      rw [Markup.Node.holds, Bool.or_eq_false_iff] at h
      rw [ofNode]
      exact looksBack_ofElement h.1 attributes (looksBackAny_ofNodes children h.2)

/-- Only the elements that bear one of the names look back. -/
theorem looksBackAny_ofNodes : (nodes : List Markup.Node) →
    Markup.Node.anyHolds Markup.Node.namesLookingBack nodes = false →
    looksBackAny (ofNodes nodes) = false
  | [], _ => rfl
  | node :: nodes, h => by
      rw [Markup.Node.anyHolds, Bool.or_eq_false_iff] at h
      rw [ofNodes, looksBackAny, looksBack_ofNode node h.1, looksBackAny_ofNodes nodes h.2]
      rfl

end

end Content

/-! ## Links -/

/-- Two renderings of a link are the same but for the annotation of the link itself, which
    is `item` in the one and `item'` in the other. -/
structure Rendered.DifferAtLink (item item' : Item) (r r' : Rendered) : Prop where
  text_eq : r.fragment.text.text = r'.fragment.text.text
  images_eq : r.fragment.images = r'.fragment.images
  reveals_eq : r.fragment.reveals = r'.fragment.reveals
  trace_eq : r.trace = r'.trace
  next_eq : r.next = r'.next
  ranges : ∃ inside : List Range,
    r.fragment.text.ranges = ⟨item, 0, r.fragment.text.length⟩ :: inside
      ∧ r'.fragment.text.ranges = ⟨item', 0, r'.fragment.text.length⟩ :: inside

/-- Two annotations around one rendering are all that differs. -/
theorem Rendered.differAtLink_marked (item item' : Item) (body : Rendered) :
    DifferAtLink item item' ((body.marked item).withTrace .plain)
      ((body.marked item').withTrace .plain) where
  text_eq := rfl
  images_eq := rfl
  reveals_eq := rfl
  trace_eq := rfl
  next_eq := rfl
  ranges := ⟨body.fragment.text.ranges, rfl, rfl⟩

/-- A deep link that shows its content is the content with an annotation around it. -/
theorem closeAnchor_deepLink {ctx : Context} (hstyle : ctx.style.KeepsLinkContent)
    (address : String) (link : DeepLink) (body : Rendered) :
    closeAnchor ctx address (some link) body
      = (body.marked (.note link.tag link.payload)).withTrace .plain := by
  simp only [closeAnchor, linkText_eq hstyle]
  rfl

/-- **The content of a link is rendered on a text of its own as in place.**  With the same
    content, a deep link and any other link are rendered alike but for their own
    annotations, wherever they stand, as long as no element in the content looks back. -/
theorem differAtLink_anchors {ctx : Context} (hstyle : ctx.style.KeepsLinkContent)
    {attributes attributes' : List (String × String)} {link : DeepLink} {address : String}
    (hlink : DeepLink.ofUrl? ((Content.attribute? "href" attributes).getD "").toList = some link)
    (haddress : (Content.attribute? "href" attributes').getD "" = address)
    (hplain : DeepLink.ofUrl? address.toList = none) {nodes : List Markup.Node}
    (hnodes : Markup.Node.anyHolds Markup.Node.namesLookingBack nodes = false)
    (ahead : List Content) (previous : Option Trace) (position : Cursor) (next : Int) :
    Rendered.DifferAtLink (.note link.tag link.payload) (.note .webLink address)
      (renderOne (Content.ofNode (.element "a" attributes nodes)) ctx ahead previous position next)
      (renderOne (Content.ofNode (.element "a" attributes' nodes)) ctx ahead previous position
        next) := by
  have hcontent := Content.looksBackAny_ofNodes nodes hnodes
  rw [Content.ofNode, Content.ofNode, Content.ofElement, Content.ofElement, haddress, renderOne,
    renderOne, hlink, hplain]
  simp only [Option.isSome_some, Option.isSome_none, if_true, Bool.false_eq_true, if_false]
  -- the content of the deep link has a builder of its own, so its offsets begin elsewhere
  rw [renderAll_offset _ _ none _ position next hcontent position.offset_fork,
    closeAnchor_deepLink hstyle]
  exact Rendered.differAtLink_marked ..

/-- A spoiler, and details with a deep link in what they hide. -/
def spoilerAndDetails : List Markup.Node :=
  [.element "span" [("data-mx-spoiler", "")] [.text "a".toList],
    .element "details" [] [.element "summary" [] [.text "b".toList],
      .element "a" [("href", "https://matrix.to/#/!r:m.org")] [.text "c".toList]]]

/-- Behind other text they are rendered alike in a link to a user and in one to a page. -/
theorem differAtLink_userAndPage :
    Rendered.DifferAtLink
      (.note .userMention (DeepLink.user "@u:m.org" "https://matrix.to/#/@u:m.org").payload)
      (.note .webLink "https://m.org")
      (renderOne (Content.ofNode
          (.element "a" [("href", "https://matrix.to/#/@u:m.org")] spoilerAndDetails))
        ({} : Settings).context [] (some .plain) ⟨0, 1, some 'x', false⟩ 1)
      (renderOne (Content.ofNode (.element "a" [("href", "https://m.org")] spoilerAndDetails))
        ({} : Settings).context [] (some .plain) ⟨0, 1, some 'x', false⟩ 1) := by
  have hstyle : ({} : Settings).context.style.KeepsLinkContent :=
    RenderStyle.standard_keepsLinkContent
  have hlink : DeepLink.ofUrl? ((Content.attribute? "href"
      [("href", "https://matrix.to/#/@u:m.org")]).getD "").toList
        = some (.user "@u:m.org" "https://matrix.to/#/@u:m.org") := by decide
  have haddress : (Content.attribute? "href" [("href", "https://m.org")]).getD ""
      = "https://m.org" := rfl
  have hplain : DeepLink.ofUrl? "https://m.org".toList = none := by decide
  have hnodes : Markup.Node.anyHolds Markup.Node.namesLookingBack spoilerAndDetails = false := by
    decide
  exact differAtLink_anchors hstyle hlink haddress hplain hnodes [] _ _ 1

/-- A rule begins a new line in a link that is rendered in place, and none in a link on a
    text of its own. -/
example :
    (Body.ofContent {} (Content.ofNodes [.text "x".toList,
        .element "a" [("href", "https://m.org")] [.element "hr" [] []]])).text.text
        = "x\n\u00a0\n".toList
      ∧ (Body.ofContent {} (Content.ofNodes [.text "x".toList,
        .element "a" [("href", "https://matrix.to/#/@u:m.org")] [.element "hr" [] []]])).text.text
        = "x\u00a0\n".toList := by
  decide

end MessageBody
