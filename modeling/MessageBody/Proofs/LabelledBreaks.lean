import MessageBody.Proofs.Labels
import MessageBody.Proofs.StoredTrees
import MessageBody.Proofs.TreeWording

/-! # Labelled line breaks

    Where line breaks are made visible, a label stands in front of each of them, and the
    text is the same otherwise.  Two renderings of the same content are compared
    (`Rendered.Alike`), of which one may label its line breaks.  What rendering asks of the
    text before, whether it ends a line, is answered alike behind both, since a label
    stands in front of the line break and not behind it.  So both may as well stand at
    different positions, as long as a line break is needed before both or before neither.
    A text gets back to what it is without labels when these are deleted:
    `unlabelled_of_nodes`. -/

namespace MessageBody

open AnnotatedText

/-! ## Texts that are put in -/

/-- What is known of an image lacks the character `ch`. -/
def ImageInfo.Lacks (ch : Char) (info : ImageInfo) : Prop :=
  ch ∉ info.uri.toList ∧ (∀ title ∈ info.title, ch ∉ title.toList)
    ∧ ∀ alt ∈ info.alt, ch ∉ alt.toList

/-- The texts that are chosen for rendering lack the character `ch`, and so does what
    stands for an image of which nothing is known that has it. -/
structure RenderStyle.Lacks (ch : Char) (style : RenderStyle) : Prop where
  bullet : ∀ depth, ch ∉ (style.bullet depth).toList
  roomMention : ch ∉ style.roomMention.toList
  summaryPlaceholder : ch ∉ style.summaryPlaceholder.toList
  imageText : ∀ info : ImageInfo, info.Lacks ch → ch ∉ (style.imageText info).toList

/-- The standard texts are free of square brackets. -/
theorem RenderStyle.standard_lacks : standard.Lacks '[' where
  bullet _ := show '[' ∉ standardBullet.toList by decide
  roomMention := by decide
  summaryPlaceholder := by decide
  imageText info h := by
    obtain ⟨-, htitle, halt⟩ := h
    show '[' ∉ (standardImageText info).toList
    unfold standardImageText
    extract_lets visible
    cases hshown : (info.title.filter visible).or (info.alt.filter visible) with
    | none => decide
    | some s =>
        rcases Option.or_eq_some_iff.mp hshown with h | ⟨-, h⟩
        · exact htitle s (Option.filter_eq_some_iff.mp h).1
        · exact halt s (Option.filter_eq_some_iff.mp h).1

/-- The bullet of the list around lacks the character `ch`. -/
def ListScope.Lacks (ch : Char) : ListScope → Prop
  | .unordered bullet => ch ∉ bullet.toList
  | .none | .ordered => True

/-- What rendering in a context relies on: links show their content, and where line breaks
    are labelled, no text that is put in has a bracket. -/
structure Context.IsPlain (ctx : Context) : Prop where
  links : ctx.style.KeepsLinkContent
  style : ctx.labelled = true → ctx.style.Lacks '['
  scope : ctx.labelled = true → ctx.scope.Lacks '['

/-- The context where line breaks are not labelled. -/
def Context.unlabelled (ctx : Context) : Context :=
  { ctx with labelled := false }

namespace Content

/-- A piece of content lacks the character `ch`: its text, and what is known of its
    images. -/
def Lacks (ch : Char) (c : Content) : Prop :=
  ch ∉ c.data ∧ ∀ info ∈ c.images, info.Lacks ch

/-- Pieces of content lack the character `ch`. -/
def AllLack (ch : Char) (cs : List Content) : Prop :=
  ch ∉ dataOf cs ∧ ∀ info ∈ imagesOf cs, info.Lacks ch

/-- Two parts lack a character if each of them does. -/
theorem allLack_append {ch : Char} {cs ds : List Content} :
    AllLack ch (cs ++ ds) ↔ AllLack ch cs ∧ AllLack ch ds := by
  rw [AllLack, AllLack, AllLack, dataOf_append, imagesOf_append, List.mem_append, not_or,
    List.forall_mem_append]
  exact and_and_and_comm

theorem allLack_cons {ch : Char} {c : Content} {cs : List Content} :
    AllLack ch (c :: cs) ↔ c.Lacks ch ∧ AllLack ch cs := by
  rw [AllLack, AllLack, Lacks, dataOf, imagesOf, List.mem_append, not_or, List.forall_mem_append]
  exact and_and_and_comm

/-- A details element lacks a character if its three parts do. -/
theorem lacks_details {ch : Char} {before summary after : List Content} :
    (details before summary after).Lacks ch
      ↔ AllLack ch before ∧ AllLack ch summary ∧ AllLack ch after := by
  rw [← allLack_append, ← allLack_append, AllLack, Lacks, data, images, dataOf_append,
    dataOf_append, imagesOf_append, imagesOf_append, List.append_assoc (imagesOf before)]

end Content

/-! ## The walk -/

namespace AnnotatedText

/-- No part of the text has the style of a paragraph. -/
def IsUnstyled (t : AnnotatedText) : Prop :=
  t.ItemsSatisfy fun item => item.isParagraph = false

variable {t u : AnnotatedText}

/-- No paragraph style ends where there is none. -/
theorem IsUnstyled.endsParagraph (h : t.IsUnstyled) : t.endsParagraph = false :=
  List.any_eq_false.mpr fun r hr hends => by
    rw [h r hr] at hends
    exact nomatch hends

theorem isUnstyled_plain (s : List Char) : (plain s).IsUnstyled :=
  itemsSatisfy_plain s

/-- An annotation is no style of a paragraph. -/
theorem isUnstyled_marked {tag : Tag} {payload : String} (h : t.IsUnstyled) :
    (t.marked (.note tag payload)).IsUnstyled :=
  itemsSatisfy_marked rfl h

end AnnotatedText

/-- Rendering gives no part of a text the style of a paragraph. -/
theorem Fragment.Composed.isUnstyled {style : RenderStyle} {limit o : Nat} {f : Fragment}
    (h : Composed style limit o f) : f.text.IsUnstyled := by
  refine h.onlyEmphasizes.imp fun item hitem => ?_
  cases item with
  | note => rfl
  | directive d =>
      obtain ⟨e, rfl⟩ := hitem d rfl
      rfl

/-- Rendering a piece of content brings no styles of paragraphs. -/
theorem isUnstyled_renderOne (ctx : Context) (hstyle : ctx.style.KeepsLinkContent) (c : Content)
    (ahead : List Content) (previous : Option Trace) (position : Cursor) (next : Int) :
    (renderOne c ctx ahead previous position next).fragment.text.IsUnstyled :=
  (renderOne_composed c ctx ahead previous position next hstyle (Nat.le_refl _)).isUnstyled

/-- Rendering brings no styles of paragraphs. -/
theorem isUnstyled_renderAll (ctx : Context) (hstyle : ctx.style.KeepsLinkContent)
    (cs : List Content) (previous : Option Trace) (position : Cursor) (next : Int) :
    (renderAll cs ctx previous position next).fragment.text.IsUnstyled :=
  (renderAll_composed cs ctx previous position next hstyle (Nat.le_refl _)).isUnstyled

theorem isUnstyled_after (s : List Char) {r : Rendered} (h : r.fragment.text.IsUnstyled) :
    (r.after s).fragment.text.IsUnstyled :=
  itemsSatisfy_append (isUnstyled_plain s) h

/-- Hiding content brings no styles of paragraphs. -/
theorem isUnstyled_hideContent (id : String) (content : List Content) (next : Int)
    {body : Rendered} (h : body.fragment.text.IsUnstyled) :
    (hideContent id content next body).fragment.text.IsUnstyled := by
  rw [hideContent]
  split
  · exact isUnstyled_plain []
  · exact isUnstyled_marked h

namespace Cursor

/-- Whether a line break is needed behind a text is said by its last character, if it has
    one. -/
theorem needsBreak_advance {t : AnnotatedText} (h : t.IsUnstyled) (c : Cursor) :
    (c.advance t).needsBreak
      = (t.text.getLast?.map fun last => last != '\n').getD c.needsBreak := by
  rw [needsBreak, advance, h.endsParagraph]
  cases hlast : t.text.getLast? with
  | none =>
      have hempty : t.text = [] := List.getLast?_eq_none_iff.mp hlast
      simp [needsBreak, AnnotatedText.length, hempty]
  | some last =>
      obtain ⟨init, hinit⟩ := List.getLast?_eq_some_iff.mp hlast
      simp [AnnotatedText.length, hinit, bne]

/-- A line break is needed behind both texts or behind neither. -/
theorem needsBreak_congr {labelled : Bool} {p q : Cursor} {t u : AnnotatedText}
    (hposition : p.needsBreak = q.needsBreak) (ht : t.IsUnstyled) (hu : u.IsUnstyled)
    (h : SameText labelled t.text u.text) :
    (p.advance t).needsBreak = (q.advance u).needsBreak := by
  rw [needsBreak_advance ht, needsBreak_advance hu, h.getLast?_eq, hposition]

/-- A line break is needed behind the one text if it is behind the other. -/
theorem needsBreak_congr_plain {labelled : Bool} {p q : Cursor} {s s' : List Char}
    (hposition : p.needsBreak = q.needsBreak) (h : SameText labelled s s') :
    (p.advance (.plain s)).needsBreak = (q.advance (.plain s')).needsBreak :=
  needsBreak_congr hposition (isUnstyled_plain s) (isUnstyled_plain s') h

end Cursor

/-- A rendering is another one but for the labels of line breaks, and tells what comes after
    it the same. -/
structure Rendered.Alike (labelled : Bool) (r r' : Rendered) : Prop where
  text : SameText labelled r.fragment.text.text r'.fragment.text.text
  trace : r.trace = r'.trace
  next : r.next = r'.next

namespace Rendered.Alike

variable {labelled : Bool} {r r' : Rendered}

theorem nothing (next : Int) : (Rendered.nothing next).Alike labelled (.nothing next) :=
  ⟨.nil, rfl, rfl⟩

/-- Two renderings stay alike under annotations, even different ones. -/
theorem marked (h : r.Alike labelled r') (item item' : Item) :
    (r.marked item).Alike labelled (r'.marked item') :=
  ⟨h.text, h.trace, h.next⟩

theorem withTrace (h : r.Alike labelled r') (trace : Trace) :
    (r.withTrace trace).Alike labelled (r'.withTrace trace) :=
  ⟨h.text, congrArg (fun t : Option Trace => some (t.getD trace)) h.trace, h.next⟩

theorem setTrace (h : r.Alike labelled r') (trace : Trace) :
    (r.setTrace trace).Alike labelled (r'.setTrace trace) :=
  ⟨h.text, rfl, h.next⟩

theorem setNext (h : r.Alike labelled r') (next : Int) :
    (r.setNext next).Alike labelled (r'.setNext next) :=
  ⟨h.text, h.trace, rfl⟩

/-- Two renderings stay alike behind texts that are the same without labels. -/
theorem after (h : r.Alike labelled r') {s s' : List Char} (hs : SameText labelled s s') :
    (r.after s).Alike labelled (r'.after s') :=
  ⟨hs.append h.text, h.trace, h.next⟩

theorem followedBy (h : r.Alike labelled r') {s s' : List Char} (hs : SameText labelled s s') :
    (r.followedBy s).Alike labelled (r'.followedBy s') :=
  ⟨h.text.append hs, h.trace, h.next⟩

end Rendered.Alike

section Walk

variable {ctx : Context} {p q : Cursor}

/-- A line break where one is needed is the same without its label. -/
theorem sameText_separation (h : p.needsBreak = q.needsBreak) {label : String}
    (hlabel : label ∈ breakLabels) (ahead : List Content) :
    SameText ctx.labelled (ctx.separation p label ahead)
      (ctx.unlabelled.separation q label ahead) := by
  rw [Context.separation, Context.separation, h]
  split
  · exact sameText_lineBreak ctx.labelled hlabel
  · exact .nil

/-- The gap in front of block content is the same without its label. -/
theorem sameText_gapBefore (ctx : Context) (previous : Option Trace)
    (h : p.needsBreak = q.needsBreak) {label : String} (hlabel : label ∈ breakLabels) :
    SameText ctx.labelled (gapBefore ctx previous p label)
      (gapBefore ctx.unlabelled previous q label) := by
  rw [gapBefore, gapBefore]
  split
  · exact sameText_separation h hlabel []
  · exact .nil

/-- A run of text is rendered alike if it has no square brackets of its own. -/
theorem alike_renderText (hctx : ctx.IsPlain) {data : List Char}
    (hdata : ctx.labelled = true → '[' ∉ data) (ahead : List Content) (previous : Option Trace)
    (next : Int) : (renderOne (.text data) ctx ahead previous p next).Alike ctx.labelled
      (renderOne (.text data) ctx.unlabelled ahead previous q next) := by
  have hvisible : visibleText? ctx.unlabelled previous ahead data
      = visibleText? ctx previous ahead data := rfl
  rw [renderOne, renderOne, hvisible]
  split
  · exact .nothing next
  · rename_i s hs
    refine ⟨sameText_richText (fun h => (hctx.style h).roomMention) _ _ fun h hmem => ?_, rfl, rfl⟩
    rcases mem_visibleText? hs hmem with hspace | ⟨hmem, -⟩
    · exact absurd hspace (by decide)
    · exact hdata h hmem

/-- A line break is rendered alike, with the space in its place too. -/
theorem alike_renderLineBreak (ahead : List Content) (previous : Option Trace) (next : Int) :
    (renderLineBreak ctx ahead previous next).Alike ctx.labelled
      (renderLineBreak ctx.unlabelled ahead previous next) := by
  unfold renderLineBreak
  refine ⟨?_, rfl, rfl⟩
  show SameText ctx.labelled (if _ then _ else _) (if _ then _ else _)
  split
  · exact sameText_lineBreak ctx.labelled (by decide)
  · split
    · exact .refl fun _ => by decide
    · exact .nil

theorem alike_renderRule (h : p.needsBreak = q.needsBreak) (ahead : List Content) (next : Int) :
    (renderRule ctx ahead p next).Alike ctx.labelled
      (renderRule ctx.unlabelled ahead q next) := by
  have hgap : SameText ctx.labelled (ctx.separation p "hr1" [])
      (ctx.unlabelled.separation q "hr1" []) := sameText_separation h (by decide) []
  refine ⟨(hgap.append (.refl fun _ => by decide)).append ?_, rfl, rfl⟩
  show SameText ctx.labelled (if _ then _ else _) (if _ then _ else _)
  split
  · exact .nil
  · exact sameText_lineBreak ctx.labelled (by decide)

/-- A paragraph is closed alike, for whether it has content does not depend on labels. -/
theorem alike_closeParagraph (isDivision : Bool) (ahead : List Content) {body body' : Rendered}
    (h : body.Alike ctx.labelled body') :
    (closeParagraph ctx isDivision ahead body).Alike ctx.labelled
      (closeParagraph ctx.unlabelled isDivision ahead body') := by
  -- both bodies are empty or neither is, so the same breaks are asked for
  have hempty : (body.fragment.text.length == 0) = (body'.fragment.text.length == 0) := by
    rw [Bool.eq_iff_iff, beq_iff_eq, beq_iff_eq]
    exact h.text.length_eq_zero_iff
  rw [closeParagraph, closeParagraph, hempty]
  split
  · exact h.setTrace .plain
  · refine (h.followedBy ?_).setTrace .block
    have hbreak : SameText ctx.labelled (ctx.lineBreak "p2") (ctx.unlabelled.lineBreak "p2") :=
      sameText_lineBreak ctx.labelled (by decide)
    split
    · exact .nil
    · split
      · exact hbreak.append (sameText_lineBreak ctx.labelled (by decide))
      · exact hbreak

theorem alike_closePreformatted (ahead : List Content) {body body' : Rendered}
    (hposition : p.needsBreak = q.needsBreak) (h : body.Alike ctx.labelled body') :
    (closePreformatted ctx ahead p body).Alike ctx.labelled
      (closePreformatted ctx.unlabelled ahead q body') := by
  rw [closePreformatted, closePreformatted]
  split
  · exact h.setTrace .plain
  · exact (h.followedBy (sameText_separation hposition (by decide) ahead)).setTrace .block

/-- A link is closed alike if it shows its content. -/
theorem alike_closeAnchor (hlinks : ctx.style.KeepsLinkContent) (address : String)
    (link? : Option DeepLink) {body body' : Rendered} (h : body.Alike ctx.labelled body') :
    (closeAnchor ctx address link? body).Alike ctx.labelled
      (closeAnchor ctx.unlabelled address link? body') := by
  cases link? with
  | none => exact (h.marked _ _).withTrace .plain
  | some link =>
      have hlinks' : ctx.unlabelled.style.KeepsLinkContent := hlinks
      rw [closeAnchor, closeAnchor, linkText_eq hlinks, linkText_eq hlinks']
      exact (h.marked _ _).withTrace .plain

/-- Content is hidden alike, under whatever number. -/
theorem alike_hideContent {labelled : Bool} (id id' : String) (content : List Content)
    (next : Int) {body body' : Rendered} (h : body.Alike labelled body') :
    (hideContent id content next body).Alike labelled (hideContent id' content next body') := by
  rw [hideContent, hideContent]
  split
  · exact .nothing next
  · exact h.marked _ _

/-- A details element is closed alike if its parts are. -/
theorem alike_closeDetails {labelled : Bool} {before before' label label' after after' : Rendered}
    (hbefore : before.Alike labelled before') (hlabel : label.Alike labelled label')
    (hafter : after.Alike labelled after') :
    (closeDetails p before label after).Alike labelled (closeDetails q before' label' after') :=
  ⟨(hbefore.text.append hlabel.text).append hafter.text, rfl, hafter.next⟩

/-- A number is written in digits, with a sign in front of it at most. -/
theorem mem_toString_int {n : Int} {c : Char} (h : c ∈ (toString n).toList) :
    c = '-' ∨ c.isDigit := by
  cases n with
  | ofNat n =>
      have hdigits : (toString (Int.ofNat n)).toList = Nat.toDigits 10 n := Text.toList_toString n
      exact .inr (Text.isDigit_of_mem_toDigits (hdigits ▸ h))
  | negSucc n =>
      have hdigits : (toString (Int.negSucc n)).toList = '-' :: Nat.toDigits 10 (n + 1) := by
        show ("-" ++ toString (n + 1)).toList = _
        rw [String.toList_append, Text.toList_toString]
        rfl
      rw [hdigits] at h
      exact (List.mem_cons.mp h).imp_right Text.isDigit_of_mem_toDigits

/-- The label of a list item has no bracket. -/
theorem lacks_itemLabel? (hctx : ctx.IsPlain) (hlabelled : ctx.labelled = true)
    {value : Option Int} {next number : Int} {label : List Char} {tag : Tag}
    (h : itemLabel? ctx value next = some (label, tag, number)) : '[' ∉ label := by
  have hscope := hctx.scope hlabelled
  rw [itemLabel?] at h
  split at h
  · cases h
  · rename_i bullet hbullet
    cases h
    rw [hbullet] at hscope
    exact hscope
  · cases h
    rw [List.mem_append, not_or]
    refine ⟨fun hmem => ?_, by decide⟩
    rcases mem_toString_int hmem with h | h <;> exact absurd h (by decide)

/-- A details element is rendered alike if its parts are. -/
theorem alike_details (hctx : ctx.IsPlain) {before summary after : List Content}
    (ahead : List Content) {previous : Option Trace} {next : Int}
    (h : p.needsBreak = q.needsBreak)
    (hbefore : (renderAll before ctx previous p next).Alike ctx.labelled
      (renderAll before ctx.unlabelled previous q next))
    (hsummary : ∀ (p q : Cursor) (next : Int), p.needsBreak = q.needsBreak →
      (renderAll summary ctx none p next).Alike ctx.labelled
        (renderAll summary ctx.unlabelled none q next))
    (hafter : ∀ (p q : Cursor) (next : Int), p.needsBreak = q.needsBreak →
      (renderAll after ctx (some .block) p next).Alike ctx.labelled
        (renderAll after ctx.unlabelled (some .block) q next)) :
    (renderOne (.details before summary after) ctx ahead previous p next).Alike ctx.labelled
      (renderOne (.details before summary after) ctx.unlabelled ahead previous q next) := by
  rw [renderOne, renderOne]
  -- the labels move all offsets: the walks agree only in what a break asks of a position
  have hhidden := alike_hideContent (payloadOf p.offset) (payloadOf q.offset) before next hbefore
  have hunstyled := isUnstyled_hideContent (payloadOf p.offset) before next
    (isUnstyled_renderAll ctx hctx.links before previous p next)
  have hunstyled' := isUnstyled_hideContent (payloadOf q.offset) before next
    (isUnstyled_renderAll ctx.unlabelled hctx.links before previous q next)
  generalize hideContent (payloadOf p.offset) before next
    (renderAll before ctx previous p next) = hidden at hhidden hunstyled ⊢
  generalize hideContent (payloadOf q.offset) before next
    (renderAll before ctx.unlabelled previous q next) = hidden' at hhidden hunstyled' ⊢
  have hbehind := Cursor.needsBreak_congr h hunstyled hunstyled' hhidden.text
  have hsign : SameText ctx.labelled ctx.style.summaryPlaceholder.toList
      ctx.unlabelled.style.summaryPlaceholder.toList :=
    .refl fun h => (hctx.style h).summaryPlaceholder
  have hlabel := (hsummary _ _ hidden.next
    (Cursor.needsBreak_congr_plain hbehind hsign)).after hsign
  have hunstyled := isUnstyled_after ctx.style.summaryPlaceholder.toList
    (isUnstyled_renderAll ctx hctx.links summary none ((p.advance hidden.fragment.text).advance
      (.plain ctx.style.summaryPlaceholder.toList)) hidden.next)
  have hunstyled' := isUnstyled_after ctx.unlabelled.style.summaryPlaceholder.toList
    (isUnstyled_renderAll ctx.unlabelled hctx.links summary none
      ((q.advance hidden'.fragment.text).advance
        (.plain ctx.unlabelled.style.summaryPlaceholder.toList)) hidden.next)
  rw [← hhidden.next]
  generalize Rendered.after _ (renderAll summary ctx _ _ _) = label at hlabel hunstyled ⊢
  generalize Rendered.after _ (renderAll summary ctx.unlabelled _ _ _) = label'
    at hlabel hunstyled' ⊢
  have hmarked := hlabel.marked (.note .detailsSummary (payloadOf p.offset))
    (.note .detailsSummary (payloadOf q.offset))
  have hrest := hafter _ _ label.next (Cursor.needsBreak_congr hbehind
    (isUnstyled_marked hunstyled) (isUnstyled_marked hunstyled') hmarked.text)
  refine alike_closeDetails hhidden hmarked ?_
  rw [← hmarked.next]
  exact alike_hideContent _ _ after label.next hrest

/-- A list item is rendered alike if what is inside it is. -/
theorem alike_listItem (hctx : ctx.IsPlain) (value : Option Int) {children : List Content}
    (ahead : List Content) (previous : Option Trace) {next : Int}
    (h : p.needsBreak = q.needsBreak)
    (hunwrapped : (renderAll children ctx none p next).Alike ctx.labelled
      (renderAll children ctx.unlabelled none q next))
    (hinside : ∀ (p q : Cursor) (number : Int), p.needsBreak = q.needsBreak →
      (renderAll children { ctx with depth := ctx.depth + 1 } none p number).Alike ctx.labelled
        (renderAll children { ctx.unlabelled with depth := ctx.depth + 1 } none q number)) :
    (renderOne (.listItem value children) ctx ahead previous p next).Alike ctx.labelled
      (renderOne (.listItem value children) ctx.unlabelled ahead previous q next) := by
  have hitem : itemLabel? ctx.unlabelled value next = itemLabel? ctx value next := rfl
  rw [renderOne, renderOne, hitem]
  split
  · exact hunwrapped
  · rename_i label tag number hlabel
    extract_lets inner inner'
    split
    · exact hinside p q number h
    · -- labels of items have no bracket, so they are the same in both texts
      have hsame : SameText ctx.labelled label label :=
        .refl fun h => lacks_itemLabel? hctx h hlabel
      have hbody := hinside _ _ number (Cursor.needsBreak_congr_plain h hsame)
      exact ((hbody.after hsame).marked _ _).withTrace .block

mutual

/-- A piece of content is rendered alike with labels and without. -/
theorem renderOne_alike : (c : Content) → (ctx : Context) → (ahead : List Content) →
    (previous : Option Trace) → (p q : Cursor) → (next : Int) → ctx.IsPlain →
    (ctx.labelled = true → c.Lacks '[') → p.needsBreak = q.needsBreak →
    (renderOne c ctx ahead previous p next).Alike ctx.labelled
      (renderOne c ctx.unlabelled ahead previous q next)
  | .text data, ctx, ahead, previous, p, q, next, hctx, hc, _ =>
      alike_renderText hctx (fun h => (hc h).1) ahead previous next
  | .emphasis e children, ctx, _, _, p, q, next, hctx, hc, h => by
      rw [renderOne, renderOne]
      exact ((renderAll_alike children ctx none p q next hctx hc h).marked _ _).withTrace .plain
  | .code children, ctx, _, _, p, q, next, hctx, hc, h => by
      rw [renderOne, renderOne]
      have hbody := renderAll_alike children ctx none p q next hctx hc h
      show Rendered.Alike _ (if ctx.isPreformatted then _ else _)
        (if ctx.isPreformatted then _ else _)
      split
      · exact (hbody.marked _ _).setTrace .block
      · exact (hbody.marked _ _).withTrace .plain
  | .span look children, ctx, _, _, p, q, next, hctx, hc, h => by
      rw [renderOne, renderOne]
      have hbody := renderAll_alike children ctx none p q next hctx hc h
      refine Rendered.Alike.withTrace (Rendered.Alike.marked ?_ _ _) .plain
      exact ⟨hbody.text, hbody.trace, hbody.next⟩
  | .anchor address children, ctx, _, _, p, q, next, hctx, hc, h => by
      rw [renderOne, renderOne]
      refine alike_closeAnchor hctx.links address _ ?_
      -- on a layer of its own no line break is needed
      have hstart : (if (DeepLink.ofUrl? address.toList).isSome then p.fork else p).needsBreak
          = (if (DeepLink.ofUrl? address.toList).isSome then q.fork else q).needsBreak := by
        split
        · rfl
        · exact h
      exact renderAll_alike children { ctx with isLinked := true } none _ _ next
        ⟨hctx.links, hctx.style, hctx.scope⟩ hc hstart
  | .lineBreak, ctx, ahead, previous, p, q, next, _, _, _ => by
      rw [renderOne, renderOne]
      exact alike_renderLineBreak ahead previous next
  | .image info, ctx, _, _, p, q, next, hctx, hc, _ => by
      rw [renderOne, renderOne]
      refine ⟨.refl fun h => (hctx.style h).imageText info ?_, rfl, rfl⟩
      exact (hc h).2 info (List.mem_singleton_self info)
  | .foreignImage children, ctx, _, _, p, q, next, hctx, hc, h => by
      rw [renderOne, renderOne]
      exact (renderAll_alike children ctx none p q next hctx hc h).setTrace .plain
  | .heading level children, ctx, _, _, p, q, next, hctx, hc, h => by
      rw [renderOne, renderOne]
      exact ((renderAll_alike children ctx none p q next hctx hc h).marked _ _).setTrace .block
  | .paragraph isDivision children, ctx, ahead, previous, p, q, next, hctx, hc, h => by
      rw [renderOne, renderOne]
      have hgap := sameText_gapBefore ctx previous h (show "p1" ∈ breakLabels by decide)
      have hbody := renderAll_alike children ctx none _ _ next hctx hc
        (Cursor.needsBreak_congr_plain h hgap)
      exact (alike_closeParagraph isDivision ahead hbody).after hgap
  | .quote children, ctx, _, _, p, q, next, hctx, hc, h => by
      rw [renderOne, renderOne]
      have hbody := renderAll_alike children { ctx with depth := ctx.depth + 1 } none p q next
        ⟨hctx.links, hctx.style, hctx.scope⟩ hc h
      exact (hbody.marked _ _).setTrace .paragraph
  | .preformatted children, ctx, ahead, previous, p, q, next, hctx, hc, h => by
      rw [renderOne, renderOne]
      have hgap := sameText_gapBefore ctx previous h (show "pre1" ∈ breakLabels by decide)
      have hstart := Cursor.needsBreak_congr_plain h hgap
      have hbody := renderAll_alike children { ctx with isPreformatted := true } none _ _ next
        ⟨hctx.links, hctx.style, hctx.scope⟩ hc hstart
      have hstop := Cursor.needsBreak_congr hstart
        (isUnstyled_renderAll { ctx with isPreformatted := true } hctx.links children
          none _ next)
        (isUnstyled_renderAll { ctx.unlabelled with isPreformatted := true } hctx.links
          children none _ next) hbody.text
      exact (alike_closePreformatted ahead hstop hbody).after hgap
  | .rule, ctx, ahead, _, p, q, next, _, _, h => by
      rw [renderOne, renderOne]
      exact alike_renderRule h ahead next
  | .details before summary after, ctx, ahead, previous, p, q, next, hctx, hc, h => by
      have hparts := fun hlabelled => Content.lacks_details.mp (hc hlabelled)
      exact alike_details hctx ahead h
        (renderAll_alike before ctx previous p q next hctx (fun h => (hparts h).1) h)
        (fun p q next => renderAll_alike summary ctx none p q next hctx fun h => (hparts h).2.1)
        fun p q next => renderAll_alike after ctx (some .block) p q next hctx
          fun h => (hparts h).2.2
  | .unorderedList children, ctx, _, _, p, q, next, hctx, hc, h => by
      rw [renderOne, renderOne]
      have hbody := renderAll_alike children
        { ctx with scope := .unordered (ctx.style.bullet ctx.depth) } none p q next
        ⟨hctx.links, hctx.style, fun h => (hctx.style h).bullet ctx.depth⟩ hc h
      exact ((hbody.marked _ _).setTrace .paragraph).setNext next
  | .orderedList start children, ctx, _, _, p, q, next, hctx, hc, h => by
      rw [renderOne, renderOne]
      have hbody := renderAll_alike children { ctx with scope := .ordered } none p q
        (start.getD 1) ⟨hctx.links, hctx.style, fun _ => trivial⟩ hc h
      exact ((hbody.marked _ _).setTrace .paragraph).setNext next
  | .listItem value children, ctx, ahead, previous, p, q, next, hctx, hc, h =>
      alike_listItem hctx value ahead previous h
        (renderAll_alike children ctx none p q next hctx hc h)
        fun p q number => renderAll_alike children { ctx with depth := ctx.depth + 1 } none p q
          number ⟨hctx.links, hctx.style, hctx.scope⟩ hc
  | .unsupported _ children, ctx, _, _, p, q, next, hctx, hc, h => by
      rw [renderOne, renderOne]
      exact renderAll_alike children ctx none p q next hctx hc h

/-- Pieces of content are rendered alike with labels and without. -/
theorem renderAll_alike : (cs : List Content) → (ctx : Context) → (previous : Option Trace) →
    (p q : Cursor) → (next : Int) → ctx.IsPlain → (ctx.labelled = true → Content.AllLack '[' cs) →
    p.needsBreak = q.needsBreak →
    (renderAll cs ctx previous p next).Alike ctx.labelled
      (renderAll cs ctx.unlabelled previous q next)
  | [], ctx, previous, p, q, next, _, _, _ => by
      rw [renderAll, renderAll]
      exact ⟨.nil, rfl, rfl⟩
  | c :: cs, ctx, previous, p, q, next, hctx, hc, h => by
      rw [renderAll, renderAll]
      have hparts := fun hlabelled => Content.allLack_cons.mp (hc hlabelled)
      have hfirst := renderOne_alike c ctx cs previous p q next hctx (fun h => (hparts h).1) h
      have hunstyled := isUnstyled_renderOne ctx hctx.links c cs previous p next
      have hunstyled' := isUnstyled_renderOne ctx.unlabelled hctx.links c cs previous q next
      generalize renderOne c ctx cs previous p next = first at hfirst hunstyled ⊢
      generalize renderOne c ctx.unlabelled cs previous q next = first' at hfirst hunstyled' ⊢
      have hrest := renderAll_alike cs ctx (first.trace.or previous) _ _ first.next hctx
        (fun h => (hparts h).2) (Cursor.needsBreak_congr h hunstyled hunstyled' hfirst.text)
      rw [← hfirst.trace, ← hfirst.next]
      exact ⟨hfirst.text.append hrest.text, hrest.trace, hrest.next⟩

end

end Walk

/-! ## Trees -/

namespace Markup.Node

mutual

/-- Neither the text of a node nor the value of an attribute in it has the character
    `ch`. -/
def lacks (ch : Char) : Node → Bool
  | .text data => !data.contains ch
  | .element _ attributes children =>
      attributes.all (fun a => !a.2.toList.contains ch) && allLack ch children

/-- Neither the text of the nodes nor the value of an attribute in them has the character
    `ch`. -/
def allLack (ch : Char) : List Node → Bool
  | [] => true
  | node :: nodes => node.lacks ch && allLack ch nodes

end

end Markup.Node

namespace Content

open Markup

variable {ch : Char} {attributes : List (String × String)}

/-- An attribute that is found is there. -/
theorem mem_of_attribute? {name value : String} (h : attribute? name attributes = some value) :
    (name, value) ∈ attributes := by
  obtain ⟨before, after, rfl, -⟩ := List.lookup_eq_some_iff.mp h
  exact List.mem_append_right before (List.mem_cons_self ..)

/-- What is known of an image is said by the attributes. -/
theorem lacks_of_imageInfo? (hattributes : ∀ a ∈ attributes, ch ∉ a.2.toList)
    {info : ImageInfo} (h : imageInfo? attributes = some info) : info.Lacks ch := by
  have hvisible : ∀ {name : String}, ∀ s ∈ visibleAttribute? name attributes, ch ∉ s.toList :=
    fun s hs => hattributes _ (mem_of_attribute? (Option.filter_eq_some_iff.mp hs).1)
  unfold imageInfo? at h
  extract_lets uri at h
  split at h
  · cases h
    refine ⟨?_, hvisible, hvisible⟩
    show ch ∉ ((attribute? "src" attributes).getD "").toList
    cases hsrc : attribute? "src" attributes with
    | none => exact List.not_mem_nil
    | some value => exact hattributes _ (mem_of_attribute? hsrc)
  · exact nomatch h

/-- An element has no text but that of what is inside it. -/
theorem data_ofElement_subset (name : String) (attributes : List (String × String))
    (cs : List Content) : (ofElement name attributes cs).data ⊆ dataOf cs := by
  unfold ofElement
  split
  -- a break that is dropped takes its own character away and nothing else
  case h_19 =>
    rw [data]
    unfold withoutFirstBreak
    split
    · rename_i text rest
      have hbreak : dataOf (.text ('\n' :: text) :: rest) = '\n' :: (text ++ dataOf rest) := rfl
      rw [hbreak]
      split
      · exact List.Subset.trans (List.subset_append_right text _) (List.subset_cons_self ..)
      · exact List.subset_cons_self ..
    · exact List.Subset.refl _
  case h_20 => exact List.nil_subset _
  case h_21 => rw [data_detailsOf]; exact List.Subset.refl _
  case h_22 => exact List.nil_subset _
  case h_24 =>
    split
    · exact List.nil_subset _
    · exact List.Subset.refl _
  all_goals exact List.Subset.refl _

mutual

/-- Understanding a tree brings in no characters. -/
theorem lacks_ofNode : (node : Node) → node.lacks ch = true → (ofNode node).Lacks ch
  | .text data, h => by
      rw [Node.lacks, Bool.not_eq_true', List.contains_eq_mem, decide_eq_false_iff_not] at h
      exact ⟨h, fun _ hinfo => nomatch hinfo⟩
  | .element name attributes children, h => by
      rw [Node.lacks, Bool.and_eq_true, List.all_eq_true] at h
      have hattributes : ∀ a ∈ attributes, ch ∉ a.2.toList :=
        fun a ha => by simpa using h.1 a ha
      obtain ⟨hdata, himages⟩ := allLack_ofNodes children h.2
      rw [ofNode]
      refine ⟨fun hmem => hdata (data_ofElement_subset _ _ _ hmem), fun info hinfo => ?_⟩
      rcases images_ofElement hinfo with hinfo | hinfo
      · exact himages info hinfo
      · exact lacks_of_imageInfo? hattributes hinfo

/-- Content lacks a character that its nodes lack. -/
theorem allLack_ofNodes : (nodes : List Node) → Node.allLack ch nodes = true →
    AllLack ch (ofNodes nodes)
  | [], _ => ⟨List.not_mem_nil, fun _ hinfo => nomatch hinfo⟩
  | node :: nodes, h => by
      rw [Node.allLack, Bool.and_eq_true] at h
      rw [ofNodes, allLack_cons]
      exact ⟨lacks_ofNode node h.1, allLack_ofNodes nodes h.2⟩

end

end Content

namespace Markup.Node

variable {ch : Char}

mutual

/-- A character that a node lacks is not in its text. -/
theorem not_mem_data : (node : Node) → node.lacks ch = true → ch ∉ node.data
  | .text data, h => by
      rw [lacks, Bool.not_eq_true', List.contains_eq_mem, decide_eq_false_iff_not] at h
      exact h
  | .element name attributes children, h => by
      rw [lacks, Bool.and_eq_true] at h
      exact not_mem_dataOf children h.2

theorem not_mem_dataOf : (nodes : List Node) → allLack ch nodes = true → ch ∉ dataOf nodes
  | [], _ => List.not_mem_nil
  | node :: nodes, h => by
      rw [allLack, Bool.and_eq_true] at h
      rw [dataOf, List.mem_append, not_or]
      exact ⟨not_mem_data node h.1, not_mem_dataOf nodes h.2⟩

end

/-- The text of nodes shows their characters and spaces. -/
theorem mem_shownText {nodes : List Node} {c : Char} (h : c ∈ shownText nodes) :
    c = ' ' ∨ c ∈ dataOf nodes := by
  have hstart : c ∈ Text.trimStart (· == ' ') (Text.shown (dataOf nodes)) :=
    List.mem_reverse.mp ((List.dropWhile_suffix _).subset (List.mem_reverse.mp h))
  exact (Text.mem_shown ((List.dropWhile_suffix _).subset hstart)).imp_right And.left

end Markup.Node

/-! ## Bodies -/

/-- **Labelled line breaks**: whatever tree is rendered with labels in front of its line
    breaks, as far as neither the tree nor the texts that are chosen for rendering have an
    opening bracket, what it shows is the same without the labels, and so is the log; a
    tree that is refused is refused in both cases. -/
theorem unlabelled_of_nodes {style : RenderStyle} (hlinks : style.KeepsLinkContent)
    (hstyle : style.Lacks '[') (allowMention : Bool) {nodes : List Markup.Node}
    (h : Markup.Node.allLack '[' nodes = true) :
    (Body.ofNodes { style := style, allowMention := allowMention, labelled := true } nodes).map
        (fun r => (unlabelled r.1.text.text, r.2))
      = (Body.ofNodes { style := style, allowMention := allowMention, labelled := false }
          nodes).map fun r => (r.1.text.text, r.2) := by
  rw [Body.ofNodes, Body.ofNodes]
  split
  · have halike := renderAll_alike (Content.ofNodes nodes)
      (Settings.context { style := style, allowMention := allowMention, labelled := true }) none
      (.startAt 0) (.startAt 0) 1 ⟨hlinks, fun _ => hstyle, fun _ => trivial⟩
      (fun _ => Content.allLack_ofNodes nodes h) rfl
    exact congrArg (fun s => Except.ok (s, [])) halike.text.unlabelled_eq
  · rfl
  · -- the text of the tree shows without labels
    have hplain : '[' ∉ (Body.ofPlain { style := style, allowMention := allowMention }
        (Markup.Node.shownText nodes)).text.text := by
      intro hmem
      rcases mem_text_richText hmem with hmem | hmem
      · rcases Markup.Node.mem_shownText hmem with hspace | hmem
        · exact absurd hspace (by decide)
        · exact Markup.Node.not_mem_dataOf nodes h hmem
      · exact hstyle.roomMention hmem
    exact congrArg (fun s => Except.ok (s, _)) (SameText.refl fun _ => hplain).unlabelled_eq

/-- Paragraphs, one with a line break in it, a rule, preformatted text with a mention and
    line breaks in it, a list in a division, and details with an image in a deep link. -/
def brokenLines : List Markup.Node :=
  [.element "p" [] [.text "a".toList, .element "br" [] [], .text "b".toList],
   .element "p" [] [.text "@room c".toList], .element "hr" [] [], .text "d".toList,
   .element "pre" [] [.text "e\n@room\n\nf]".toList], .text "g".toList,
   .element "div" [] [.element "ol" [] [.element "li" [] [.text "h".toList]]],
   .element "details" []
    [.element "summary" [] [.text "i".toList],
     .element "a" [("href", "https://matrix.to/#/@u:s")]
      [.element "p" [] [.element "img" [("src", "mxc://s/i"), ("alt", "j")] []],
       .text "k".toList]]]

/-- Every kind of line break loses its label and nothing else. -/
theorem unlabelled_brokenLines :
    (Body.ofNodes { labelled := true } brokenLines).map
        (fun r => (unlabelled r.1.text.text, r.2))
      = (Body.ofNodes { labelled := false } brokenLines).map (fun r => (r.1.text.text, r.2))
    ∧ (Body.ofNodes { labelled := true } brokenLines).map (fun r => r.1.text.text)
      = .ok ("a[br]\nb[p2]\n[p3]\n@room c[hr1]\n\u00a0[hr2]\nd[pre1]\ne[T]\n@room[T]\n[T]\nf]"
        ++ "[pre2]\ng[p1]\n1. h\u2007\u2007ij[p2]\nk").toList :=
  ⟨unlabelled_of_nodes RenderStyle.standard_keepsLinkContent RenderStyle.standard_lacks true
    (by decide), by decide +kernel⟩

end MessageBody
