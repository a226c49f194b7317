import MessageBody.Body

/-! # How a rendering is put together

    `Composed style limit o f` lists the ways in which the walk over content puts
    together the fragment `f` that begins at position `o` of the document: from
    characters, linked text and images, by putting one fragment after another,
    and by putting ranges around a fragment.  What the walk does beyond that,
    such as leaving out blank text, only chooses among these ways.  Whatever all
    of them keep therefore holds of every message body: `ofNodes_composed`.

    The content of a deep link is composed at the position where the link stands,
    although it is rendered on its own. -/

namespace MessageBody

/-! ## The height of content -/

namespace Content

mutual

/-- How deeply content is nested in a piece of content, the piece itself
    included. -/
def height : Content → Nat
  | .text _ => 0
  | .emphasis _ children => heightOf children + 1
  | .code children => heightOf children + 1
  | .span _ children => heightOf children + 1
  | .anchor _ children => heightOf children + 1
  | .lineBreak => 0
  | .image _ => 0
  | .foreignImage children => heightOf children + 1
  | .heading _ children => heightOf children + 1
  | .paragraph _ children => heightOf children + 1
  | .quote children => heightOf children + 1
  | .preformatted children => heightOf children + 1
  | .rule => 0
  | .details before summary after =>
      max (heightOf before) (max (heightOf summary) (heightOf after)) + 1
  | .unorderedList children => heightOf children + 1
  | .orderedList _ children => heightOf children + 1
  | .listItem _ children => heightOf children + 1
  | .unsupported _ children => heightOf children + 1

/-- The height of the highest piece. -/
def heightOf : List Content → Nat
  | [] => 0
  | c :: cs => max c.height (heightOf cs)

end

/-- Content is as high as its highest piece. -/
theorem heightOf_le {cs : List Content} {n : Nat} :
    heightOf cs ≤ n ↔ ∀ c ∈ cs, c.height ≤ n := by
  induction cs with
  | nil => simp [heightOf]
  | cons c cs ih =>
      rw [heightOf, Nat.max_le, ih, List.forall_mem_cons]

/-- Leaving pieces out makes content no higher. -/
theorem heightOf_subset {cs ds : List Content} (h : cs ⊆ ds) : heightOf cs ≤ heightOf ds :=
  heightOf_le.mpr fun c hc => heightOf_le.mp (Nat.le_refl _) c (h hc)

/-- A details element is one higher than its content at most. -/
theorem height_detailsOf_le (cs : List Content) : (detailsOf cs).height ≤ heightOf cs + 1 := by
  unfold detailsOf
  extract_lets before
  split
  · rename_i summary after hdrop
    have hsuffix : summary :: after ⊆ cs := by
      rw [← hdrop]
      exact (List.dropWhile_suffix _).subset
    split
    · exact Nat.le_refl _
    · rw [height]
      refine Nat.succ_le_succ (Nat.max_le.mpr ⟨?_, Nat.max_le.mpr ⟨?_, ?_⟩⟩)
      · exact heightOf_subset (List.takeWhile_prefix _).subset
      · exact heightOf_subset fun c hc => hsuffix (List.mem_singleton.mp hc ▸ List.mem_cons_self ..)
      · exact heightOf_subset fun c hc => hsuffix (List.mem_cons_of_mem _ hc)
  · exact Nat.le_refl _

/-- A dropped line break changes no height. -/
theorem heightOf_withoutFirstBreak (cs : List Content) :
    heightOf (withoutFirstBreak cs) = heightOf cs := by
  unfold withoutFirstBreak
  split
  · split <;> simp [heightOf, height]
  · rfl

/-- An element is at most one higher than what is inside it. -/
theorem height_ofElement_le (name : String) (attributes : List (String × String))
    (cs : List Content) : (ofElement name attributes cs).height ≤ heightOf cs + 1 := by
  unfold ofElement
  split
  case h_21 => exact height_detailsOf_le cs
  case h_24 => split <;> simp only [height, Nat.le_refl, Nat.zero_le]
  all_goals simp only [height, heightOf_withoutFirstBreak, Nat.le_refl, Nat.zero_le]

end Content

/-! ## Composition -/

/-- The items that the walk puts around content without asking where it stands;
    depths among them are at most `limit`. -/
inductive Item.Encloses (limit : Nat) : Item → Prop
  | emphasis (e : Emphasis) : Encloses limit (.directive (.run e.style))
  | bare (tag : Tag) (h : tag ∈ [.inlineCode, .blockCode, .roomMention, .horizontalRule]) :
      Encloses limit (.note tag "")
  | webLink (address : String) : Encloses limit (.note .webLink address)
  | deepLink (link : DeepLink) : Encloses limit (.note link.tag link.payload)
  | heading (level : String) : Encloses limit (.note .heading level)
  | counted (tag : Tag) (h : tag ∈
      [.blockQuote, .unorderedList, .unorderedListItem, .orderedList, .orderedListItem])
      (depth : Nat) (hdepth : depth ≤ limit) : Encloses limit (.note tag (payloadOf depth))

/-- Linked text is annotated with the links on the addresses in it, if at all. -/
theorem exists_of_mem_linkedText {autoLink : Bool} {s : List Char} {r : Range}
    (hr : r ∈ (linkedText autoLink s).ranges) :
    ∃ o ∈ Link.occurrences s, r = ⟨linkItem (o.slice s), o.start, o.stop⟩ := by
  cases autoLink with
  | false => exact nomatch hr
  | true =>
      obtain ⟨o, ho, rfl⟩ := List.mem_map.mp hr
      exact ⟨o, ho, rfl⟩

namespace Fragment

/-- A span that begins at position `o` of the document. -/
def asSpan (look : SpanLook) (o : Nat) (f : Fragment) : Fragment :=
  { f with reveals := (if look.isSpoiler then [o] else []) ++ f.reveals }.marked
    (.note .span (spanAttributes look o).payload)

/-- The content of a details element that is identified by `o`, if there is
    any. -/
def hidden (o : Nat) : Option Fragment → Fragment
  | none => .empty
  | some f => f.marked (.note .detailsContent (payloadOf o))

/-- A details element that begins at position `o` of the document. -/
def asDetails (o : Nat) (before : Option Fragment) (label : Fragment)
    (after : Option Fragment) : Fragment :=
  let body := hidden o before ++ label.marked (.note .detailsSummary (payloadOf o))
    ++ hidden o after
  { body with reveals := o :: body.reveals }

/-- An image and the text that stands for it. -/
def ofImage (style : RenderStyle) (info : ImageInfo) : Fragment :=
  ⟨(AnnotatedText.plain (style.imageText info).toList).marked
    (.note .inlineImage (imageKey info)), [(imageKey info, info)], []⟩

/-- The ways in which the walk puts together what begins at a position of the
    document. -/
inductive Composed (style : RenderStyle) (limit : Nat) : Nat → Fragment → Prop
  | chars {o : Nat} (s : List Char) : Composed style limit o (.ofChars s)
  | linked {o : Nat} (s : List Char) : Composed style limit o (.ofText (linkedText true s))
  | image {o : Nat} (info : ImageInfo) : Composed style limit o (ofImage style info)
  | append {o : Nat} {f g : Fragment} (hf : Composed style limit o f)
      (hg : Composed style limit (o + f.text.length) g) : Composed style limit o (f ++ g)
  | marked {o : Nat} {f : Fragment} {item : Item} (hitem : item.Encloses limit)
      (hf : Composed style limit o f) : Composed style limit o (f.marked item)
  | span {o : Nat} {f : Fragment} (look : SpanLook) (hf : Composed style limit o f) :
      Composed style limit o (f.asSpan look o)
  | details {o : Nat} {before after : Option Fragment} {label summary : Fragment}
      (hlabel : label = .ofChars style.summaryPlaceholder.toList ++ summary)
      (hbefore : ∀ f, before = some f → Composed style limit o f)
      (hsummary : Composed style limit (o + (hidden o before).text.length
        + style.summaryPlaceholder.toList.length) summary)
      (hafter : ∀ f, after = some f →
        Composed style limit (o + (hidden o before).text.length + label.text.length) f) :
      Composed style limit o (asDetails o before label after)

namespace Composed

variable {style : RenderStyle} {limit o : Nat}

theorem empty : Composed style limit o .empty := .chars []

/-- Linked text is composed of addresses and the characters between them. -/
theorem ofText_linkedText (autoLink : Bool) (s : List Char) :
    Composed style limit o (.ofText (linkedText autoLink s)) := by
  cases autoLink with
  | false => exact .chars s
  | true => exact .linked s

/-- Running text is composed of stretches with their links, and mentions. -/
theorem ofText_richText (style' : RenderStyle) (allowMention autoLink : Bool) (s : List Char) :
    Composed style limit o (.ofText (richText style' allowMention autoLink s)) := by
  have hmention : ∀ (rest : List (List Char)) (o : Nat), Composed style limit o (.ofText
      (.concat (rest.map fun stretch => mentionText style' ++ linkedText autoLink stretch))) := by
    intro rest
    -- each further stretch has a mention in front
    induction rest with
    | nil => exact fun _ => empty
    | cons stretch rest ih =>
        intro o
        refine .append (f := .ofText (mentionText style' ++ linkedText autoLink stretch)) ?_ (ih _)
        exact .append (.marked (.bare .roomMention (by simp)) (.chars style'.roomMention.toList))
          (ofText_linkedText autoLink stretch)
  rw [richText]
  split
  · split
    · exact empty
    · rename_i first rest _
      exact .append (f := .ofText (linkedText autoLink first)) (ofText_linkedText autoLink first)
        (hmention rest _)
  · exact ofText_linkedText autoLink s

end Composed

end Fragment

/-! ## The walk -/

open Fragment

section Walk

variable {style : RenderStyle} {limit : Nat}

/-- The line breaks of a paragraph are composed as characters behind its content. -/
theorem closeParagraph_composed {ctx : Context} {isDivision : Bool} {ahead : List Content}
    {body : Rendered} {o : Nat} (h : Composed style limit o body.fragment) :
    Composed style limit o (closeParagraph ctx isDivision ahead body).fragment := by
  rw [closeParagraph]
  split
  · exact h
  · exact .append h (.chars _)

theorem closePreformatted_composed {ctx : Context} {ahead : List Content} {position : Cursor}
    {body : Rendered} {o : Nat} (h : Composed style limit o body.fragment) :
    Composed style limit o (closePreformatted ctx ahead position body).fragment := by
  rw [closePreformatted]
  split
  · exact h
  · exact .append h (.chars _)

/-- Under callbacks that keep the content of links, a deep link shows its
    content. -/
theorem linkText_eq {style : RenderStyle} (hstyle : style.KeepsLinkContent) (link : DeepLink)
    (content : AnnotatedText) : style.linkText link content = content := by
  cases link with
  | user => exact hstyle.user ..
  | room => exact hstyle.room ..
  | message => exact hstyle.message ..

/-- Under callbacks that keep the content of links, an anchor is a range around
    its content, a deep link or not. -/
theorem closeAnchor_composed {ctx : Context} (hstyle : ctx.style.KeepsLinkContent)
    {address : String} {link? : Option DeepLink} {body : Rendered} {o : Nat}
    (h : Composed style limit o body.fragment) :
    Composed style limit o (closeAnchor ctx address link? body).fragment := by
  cases link? with
  | none => exact .marked (.webLink address) h
  | some link =>
      have heq : (closeAnchor ctx address (some link) body).fragment
          = body.fragment.marked (.note link.tag link.payload) := by
        simp only [closeAnchor, linkText_eq hstyle, Rendered.fragment_withTrace]
      rw [heq]
      exact .marked (.deepLink link) h

/-- The label of a list item is counted among the items that enclose content. -/
theorem itemLabel?_encloses {ctx : Context} {value : Option Int} {next number : Int}
    {label : List Char} {tag : Tag} (h : itemLabel? ctx value next = some (label, tag, number))
    (hdepth : ctx.depth ≤ limit) : (Item.note tag (payloadOf ctx.depth)).Encloses limit := by
  rw [itemLabel?] at h
  split at h
  · exact nomatch h
  · cases h
    exact .counted .unorderedListItem (by simp) ctx.depth hdepth
  · cases h
    exact .counted .orderedListItem (by simp) ctx.depth hdepth

/-- What a details element hides is composed where it stands, if there is any. -/
theorem hideContent_composed (o' : Nat) (content : List Content) (next : Int) {o : Nat}
    {body : Rendered} (h : Composed style limit o body.fragment) :
    ∃ f? : Option Fragment, (hideContent (payloadOf o') content next body).fragment = hidden o' f?
      ∧ ∀ f, f? = some f → Composed style limit o f := by
  rw [hideContent]
  split
  · exact ⟨none, rfl, fun _ hf => nomatch hf⟩
  · exact ⟨some body.fragment, rfl, fun f hf => Option.some.inj hf ▸ h⟩

/-- A details element is composed of what it hides and its label. -/
theorem closeDetails_composed {position : Cursor} {before summary after : Rendered}
    (hbefore : ∃ f? : Option Fragment, before.fragment = hidden position.offset f?
      ∧ ∀ f, f? = some f → Composed style limit position.offset f)
    (hsummary : Composed style limit (position.offset + before.fragment.text.length
      + style.summaryPlaceholder.toList.length) summary.fragment)
    (hafter : ∃ f? : Option Fragment, after.fragment = hidden position.offset f?
      ∧ ∀ f, f? = some f → Composed style limit (position.offset + before.fragment.text.length
        + (summary.after style.summaryPlaceholder.toList).fragment.text.length) f) :
    Composed style limit position.offset (closeDetails position before
      ((summary.after style.summaryPlaceholder.toList).marked
        (.note .detailsSummary (payloadOf position.offset))) after).fragment := by
  obtain ⟨b, hb, hbefore⟩ := hbefore
  obtain ⟨a, ha, hafter⟩ := hafter
  rw [hb] at hsummary hafter
  have heq : (closeDetails position before ((summary.after style.summaryPlaceholder.toList).marked
      (.note .detailsSummary (payloadOf position.offset))) after).fragment
      = asDetails position.offset b
        (.ofChars style.summaryPlaceholder.toList ++ summary.fragment) a := by
    rw [closeDetails, hb, ha]
    rfl
  rw [heq]
  exact .details rfl hbefore hsummary hafter

mutual

/-- What the walk makes of a piece of content is composed at the position where
    it stands. -/
theorem renderOne_composed : (c : Content) → (ctx : Context) → (ahead : List Content) →
    (previous : Option Trace) → (position : Cursor) → (next : Int) →
    ctx.style.KeepsLinkContent → ctx.depth + c.height ≤ limit →
    Composed ctx.style limit position.offset
      (renderOne c ctx ahead previous position next).fragment
  | .text data, ctx, ahead, previous, position, next, _, _ => by
      rw [renderOne]
      split
      · exact Composed.empty
      · exact Composed.ofText_richText ..
  | .emphasis e children, ctx, _, _, position, next, hstyle, hheight => by
      rw [renderOne]
      rw [Content.height] at hheight
      exact .marked (.emphasis e)
        (renderAll_composed children ctx none position next hstyle (by omega))
  | .code children, ctx, _, _, position, next, hstyle, hheight => by
      rw [renderOne]
      rw [Content.height] at hheight
      have hbody := renderAll_composed children ctx none position next hstyle (by omega)
      split
      · exact .marked (.bare .blockCode (by simp)) hbody
      · exact .marked (.bare .inlineCode (by simp)) hbody
  | .span look children, ctx, _, _, position, next, hstyle, hheight => by
      rw [renderOne]
      rw [Content.height] at hheight
      exact .span look (renderAll_composed children ctx none position next hstyle (by omega))
  | .anchor address children, ctx, _, _, position, next, hstyle, hheight => by
      rw [renderOne]
      rw [Content.height] at hheight
      refine closeAnchor_composed hstyle ?_
      -- on a layer of its own or not, the content begins where the link stands
      have hoffset : (if (DeepLink.ofUrl? address.toList).isSome then position.fork
          else position).offset = position.offset := by
        split <;> rfl
      rw [← hoffset]
      exact renderAll_composed children { ctx with isLinked := true } none _ next hstyle
        (by simp only; omega)
  | .lineBreak, ctx, ahead, previous, position, next, _, _ => by
      rw [renderOne]
      exact .chars _
  | .image info, ctx, _, _, position, next, _, _ => by
      rw [renderOne]
      exact .image info
  | .foreignImage children, ctx, _, _, position, next, hstyle, hheight => by
      rw [renderOne]
      rw [Content.height] at hheight
      exact renderAll_composed children ctx none position next hstyle (by omega)
  | .heading level children, ctx, _, _, position, next, hstyle, hheight => by
      rw [renderOne]
      rw [Content.height] at hheight
      exact .marked (.heading level)
        (renderAll_composed children ctx none position next hstyle (by omega))
  | .paragraph isDivision children, ctx, ahead, previous, position, next, hstyle, hheight => by
      rw [renderOne]
      rw [Content.height] at hheight
      refine .append (f := .ofChars _) (.chars _) (closeParagraph_composed ?_)
      have hbody := renderAll_composed children ctx none
        (position.advance (.plain (gapBefore ctx previous position "p1"))) next hstyle (by omega)
      rw [Cursor.offset_advance] at hbody
      exact hbody
  | .quote children, ctx, _, _, position, next, hstyle, hheight => by
      rw [renderOne]
      rw [Content.height] at hheight
      refine .marked (.counted .blockQuote (by simp) (ctx.depth + 1) (by omega)) ?_
      exact renderAll_composed children { ctx with depth := ctx.depth + 1 } none position next
        hstyle (by simp only; omega)
  | .preformatted children, ctx, ahead, previous, position, next, hstyle, hheight => by
      rw [renderOne]
      rw [Content.height] at hheight
      refine .append (f := .ofChars _) (.chars _) (closePreformatted_composed ?_)
      have hbody := renderAll_composed children { ctx with isPreformatted := true } none
        (position.advance (.plain (gapBefore ctx previous position "pre1"))) next hstyle
        (by simp only; omega)
      rw [Cursor.offset_advance] at hbody
      exact hbody
  | .rule, ctx, ahead, _, position, next, _, _ => by
      rw [renderOne]
      exact .append (.append (.chars _)
        (.marked (f := .ofChars ruleText) (.bare .horizontalRule (by simp)) (.chars _))) (.chars _)
  | .details before summary after, ctx, _, previous, position, next, hstyle, hheight => by
      rw [renderOne]
      rw [Content.height] at hheight
      have hbefore := hideContent_composed position.offset before next
        (renderAll_composed before ctx previous position next hstyle (by omega))
      generalize hideContent (payloadOf position.offset) before next
        (renderAll before ctx previous position next) = hiddenBefore at hbefore ⊢
      refine closeDetails_composed hbefore ?_ (hideContent_composed _ _ _ ?_)
      · have hsummary := renderAll_composed summary ctx none
          ((position.advance hiddenBefore.fragment.text).advance
            (.plain ctx.style.summaryPlaceholder.toList)) hiddenBefore.next hstyle (by omega)
        rw [Cursor.offset_advance, Cursor.offset_advance] at hsummary
        exact hsummary
      · generalize Rendered.after _ _ = label
        have hafter := renderAll_composed after ctx (some .block)
          ((position.advance hiddenBefore.fragment.text).advance
            (label.marked (.note .detailsSummary (payloadOf position.offset))).fragment.text)
          label.next hstyle (by omega)
        rw [Cursor.offset_advance, Cursor.offset_advance] at hafter
        exact hafter
  | .unorderedList children, ctx, _, _, position, next, hstyle, hheight => by
      rw [renderOne]
      rw [Content.height] at hheight
      refine .marked (.counted .unorderedList (by simp) ctx.depth (by omega)) ?_
      exact renderAll_composed children { ctx with scope := .unordered (ctx.style.bullet ctx.depth) }
        none position next hstyle (by simp only; omega)
  | .orderedList start children, ctx, _, _, position, next, hstyle, hheight => by
      rw [renderOne]
      rw [Content.height] at hheight
      refine .marked (.counted .orderedList (by simp) ctx.depth (by omega)) ?_
      exact renderAll_composed children { ctx with scope := .ordered } none position _ hstyle
        (by simp only; omega)
  | .listItem value children, ctx, _, _, position, next, hstyle, hheight => by
      rw [renderOne]
      rw [Content.height] at hheight
      split
      · exact renderAll_composed children ctx none position next hstyle (by omega)
      · rename_i label tag number hlabel
        extract_lets inner
        split
        · exact renderAll_composed children inner none position number hstyle
            (by show ctx.depth + 1 + _ ≤ limit; omega)
        · refine .marked (itemLabel?_encloses hlabel (by omega)) ?_
          refine .append (f := .ofChars label) (.chars label) ?_
          have hbody := renderAll_composed children inner none (position.advance (.plain label))
            number hstyle (by show ctx.depth + 1 + _ ≤ limit; omega)
          rw [Cursor.offset_advance] at hbody
          exact hbody
  | .unsupported _ children, ctx, _, _, position, next, hstyle, hheight => by
      rw [renderOne]
      rw [Content.height] at hheight
      exact renderAll_composed children ctx none position next hstyle (by omega)

/-- What the walk makes of pieces of content is composed at the position where
    they stand. -/
theorem renderAll_composed : (cs : List Content) → (ctx : Context) → (previous : Option Trace) →
    (position : Cursor) → (next : Int) →
    ctx.style.KeepsLinkContent → ctx.depth + Content.heightOf cs ≤ limit →
    Composed ctx.style limit position.offset (renderAll cs ctx previous position next).fragment
  | [], ctx, previous, position, next, _, _ => by
      rw [renderAll]
      exact Composed.empty
  | c :: cs, ctx, previous, position, next, hstyle, hheight => by
      rw [renderAll]
      rw [Content.heightOf] at hheight
      refine .append (renderOne_composed c ctx cs previous position next hstyle (by omega)) ?_
      generalize renderOne c ctx cs previous position next = first
      have hrest := renderAll_composed cs ctx (first.trace.or previous)
        (position.advance first.fragment.text) first.next hstyle (by omega)
      rw [Cursor.offset_advance] at hrest
      exact hrest

end

end Walk

/-! ## Bodies -/

namespace Obstacle

mutual

/-- A node in which nothing keeps it from being rendered is not higher than
    elements may be nested. -/
theorem height_of_inNode? : (node : Markup.Node) → (inOrdered : Bool) → (depth : Nat) →
    inNode? inOrdered depth node = none → (Content.ofNode node).height ≤ depth
  | .text data, _, depth, _ => by
      rw [Content.ofNode, Content.height]
      exact Nat.zero_le depth
  | .element name attributes children, inOrdered, depth, h => by
      rw [inNode?.eq_def] at h
      rw [Content.ofNode]
      cases depth with
      | zero => exact nomatch h
      | succ depth =>
          -- neither the attributes nor the children are an obstacle
          have hchildren : inNodes? (insideOrdered inOrdered name) depth children = none :=
            (Option.or_eq_none_iff.mp h).2
          calc (Content.ofElement name attributes (Content.ofNodes children)).height
              ≤ Content.heightOf (Content.ofNodes children) + 1 :=
                Content.height_ofElement_le name attributes _
            _ ≤ depth + 1 := Nat.succ_le_succ (height_of_inNodes? children _ depth hchildren)

/-- Nodes in which nothing keeps them from being rendered are not higher than
    elements may be nested. -/
theorem height_of_inNodes? : (nodes : List Markup.Node) → (inOrdered : Bool) → (depth : Nat) →
    inNodes? inOrdered depth nodes = none → Content.heightOf (Content.ofNodes nodes) ≤ depth
  | [], _, depth, _ => by
      rw [Content.ofNodes, Content.heightOf]
      exact Nat.zero_le depth
  | node :: nodes, inOrdered, depth, h => by
      rw [inNodes?] at h
      obtain ⟨hnode, hnodes⟩ := Option.or_eq_none_iff.mp h
      rw [Content.ofNodes, Content.heightOf]
      exact Nat.max_le.mpr ⟨height_of_inNode? node inOrdered depth hnode,
        height_of_inNodes? nodes inOrdered depth hnodes⟩

end

end Obstacle

namespace Body

variable {settings : Settings}

/-- What content makes up is composed from the start of the document. -/
theorem render_composed (hstyle : settings.style.KeepsLinkContent) (content : List Content) :
    Composed settings.style (Content.heightOf content) 0 (render settings content) :=
  renderAll_composed content settings.context none (.startAt 0) 1 hstyle
    (Nat.le_of_eq (Nat.zero_add _))

/-- A body that is read from a tree is made up by a composed fragment, also where
    only the text of the tree shows. -/
theorem ofNodes_composed (hstyle : settings.style.KeepsLinkContent) {nodes : List Markup.Node}
    {body : Body} {log : List LogRecord} (h : ofNodes settings nodes = .ok (body, log)) :
    ∃ f, Composed settings.style Obstacle.depthLimit 0 f ∧ body = ofFragment f := by
  rw [ofNodes] at h
  split at h
  · rename_i hnone
    cases h
    refine ⟨_, ?_, rfl⟩
    have hheight := Obstacle.height_of_inNodes? nodes _ _ hnone
    exact renderAll_composed _ settings.context none (.startAt 0) 1 hstyle
      (by show 0 + _ ≤ _; omega)
  · exact nomatch h
  · cases h
    exact ⟨_, Composed.ofText_richText .., rfl⟩

end Body

end MessageBody
