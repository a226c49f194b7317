import MessageBody.Body
import MessageBody.Proofs.Ink
import MessageBody.Proofs.Mentions

/-! # What message bodies say

    The wording of a tree is what it says in document order: the text of its
    nodes, the label in front of each list item that gets one, the texts that
    stand for images, and the placeholder in front of each summary that has
    something beside it.  Blank text, what stands before and after a piece, and
    trimming are not known to it.  They decide only about blanks: a body has the
    ink of the wording of its tree. -/

namespace MessageBody

/-- What is said, and the number of the next item of the ordered list around
    it. -/
structure Wording where
  text : List Char
  next : Int
  deriving DecidableEq

/-- The wording without the characters that leave no mark. -/
def Wording.inked (w : Wording) : Wording :=
  ⟨Text.ink w.text, w.next⟩

/-- The label of a list item.  In an unordered list only an item with text of its
    own has one. -/
def itemWording (scope : ListScope) (hasText : Bool) (value : Option Int) (next : Int) : Wording :=
  match scope with
  | .none => ⟨[], next⟩
  | .unordered bullet => ⟨if hasText then bullet.toList else [], next⟩
  | .ordered =>
      let number := value.getD next
      ⟨(toString number).toList ++ ['.', ' '], number + 1⟩

/-! ## Content -/

namespace Content

mutual

/-- What a piece of content says, of the characters that leave a mark. -/
def wording (scope : ListScope) (next : Int) : Content → Wording
  | .text data => ⟨Text.ink data, next⟩
  | .lineBreak => ⟨[], next⟩
  | .rule => ⟨[], next⟩
  | .image info => ⟨Text.ink (RenderStyle.standardImageText info).toList, next⟩
  | .details before summary after =>
      let opening := wordingOf scope next before
      let label := wordingOf scope opening.next summary
      let closing := wordingOf scope label.next after
      ⟨opening.text ++ label.text ++ closing.text, closing.next⟩
  | .unorderedList children =>
      ⟨(wordingOf (.unordered RenderStyle.standardBullet) next children).text, next⟩
  | .orderedList start children => ⟨(wordingOf .ordered (start.getD 1) children).text, next⟩
  | .listItem value children =>
      let label := itemWording scope (hasOwnText children) value next
      let inside := wordingOf scope label.next children
      ⟨Text.ink label.text ++ inside.text, inside.next⟩
  | .emphasis _ children => wordingOf scope next children
  | .code children => wordingOf scope next children
  | .span _ children => wordingOf scope next children
  | .anchor _ children => wordingOf scope next children
  | .foreignImage children => wordingOf scope next children
  | .heading _ children => wordingOf scope next children
  | .paragraph _ children => wordingOf scope next children
  | .quote children => wordingOf scope next children
  | .preformatted children => wordingOf scope next children
  | .unsupported _ children => wordingOf scope next children

/-- What pieces of content say, of the characters that leave a mark. -/
def wordingOf (scope : ListScope) (next : Int) : List Content → Wording
  | [] => ⟨[], next⟩
  | c :: cs =>
      let first := c.wording scope next
      let rest := wordingOf scope first.next cs
      ⟨first.text ++ rest.text, rest.next⟩

end

end Content

/-! ## The walk -/

/-- What a rendering says, of the characters that leave a mark. -/
def Rendered.inked (r : Rendered) : Wording :=
  ⟨Text.ink r.fragment.text.text, r.next⟩

section Walk

open Rendered

@[simp] theorem inked_marked (item : Item) (r : Rendered) : (r.marked item).inked = r.inked := rfl

@[simp] theorem inked_withTrace (trace : Trace) (r : Rendered) :
    (r.withTrace trace).inked = r.inked := rfl

@[simp] theorem inked_setTrace (trace : Trace) (r : Rendered) :
    (r.setTrace trace).inked = r.inked := rfl

theorem inked_setNext (next : Int) (r : Rendered) :
    (r.setNext next).inked = ⟨r.inked.text, next⟩ := rfl

theorem inked_after (s : List Char) (r : Rendered) :
    (r.after s).inked = ⟨Text.ink s ++ r.inked.text, r.inked.next⟩ := by
  simp [inked, Rendered.after, Fragment.ofChars, Fragment.ofText]

/-- Blanks in front say nothing. -/
theorem inked_after_blank {s : List Char} (h : Text.ink s = []) (r : Rendered) :
    (r.after s).inked = r.inked := by
  rw [inked_after, h]
  rfl

/-- Blanks behind say nothing. -/
theorem inked_followedBy_blank {s : List Char} (h : Text.ink s = []) (r : Rendered) :
    (r.followedBy s).inked = r.inked := by
  simp [inked, Rendered.followedBy, Fragment.ofChars, Fragment.ofText, h]

variable {ctx : Context}

theorem ink_lineBreak (h : ctx.labelled = false) (label : String) :
    Text.ink (ctx.lineBreak label) = [] := by
  rw [Context.lineBreak, h]
  exact Text.ink_cons_of_isBlank (by decide) []

/-- A line break without a label leaves no ink. -/
theorem ink_separation (h : ctx.labelled = false) (position : Cursor) (label : String)
    (ahead : List Content) : Text.ink (ctx.separation position label ahead) = [] := by
  rw [Context.separation]
  split
  · exact ink_lineBreak h label
  · rfl

theorem ink_gapBefore (h : ctx.labelled = false) (previous : Option Trace) (position : Cursor)
    (label : String) : Text.ink (gapBefore ctx previous position label) = [] := by
  rw [gapBefore]
  split
  · exact ink_separation h position label []
  · rfl

/-- Whatever is dropped or trimmed of a run of text leaves no mark. -/
theorem ink_visibleText? (ctx : Context) (previous : Option Trace) (ahead : List Content)
    (data : List Char) :
    Text.ink ((visibleText? ctx previous ahead data).getD []) = Text.ink data := by
  rw [visibleText?]
  -- blank texts and the last break of preformatted ones are all that is dropped
  split
  · rename_i h
    exact (Text.ink_eq_nil_of_all_isMarkupBlank (Bool.and_eq_true_iff.mp h).2).symm
  split
  · rename_i h
    simp only [Bool.and_eq_true] at h
    exact (Text.ink_eq_nil_of_all_isMarkupBlank h.1.2).symm
  split
  · rw [Option.getD_some]
    split
    · rename_i h
      obtain ⟨init, rfl⟩ := List.getLast?_eq_some_iff.mp (beq_iff_eq.mp (Bool.and_eq_true_iff.mp h).2)
      rw [List.dropLast_concat, Text.ink_append]
      exact (List.append_nil _).symm
    · rfl
  split
  · exact (Text.ink_trimStart _).trans (Text.ink_shown data)
  · exact Text.ink_shown data

/-- A run of text leaves the ink of its characters. -/
theorem inked_renderText (hstyle : ctx.style = .standard) (hlabelled : ctx.labelled = false)
    (data : List Char) (ahead : List Content) (previous : Option Trace) (position : Cursor)
    (next : Int) : (renderOne (.text data) ctx ahead previous position next).inked
      = ⟨Text.ink data, next⟩ := by
  rw [renderOne, ← ink_visibleText? ctx previous ahead data]
  split
  · rename_i h
    rw [h]
    rfl
  · rename_i s h
    have hrich : (ctx.richText (withLabels ctx.labelled s)).text = s := by
      rw [Context.richText, text_richText (by rw [hstyle]; rfl), withLabels, hlabelled]
      rfl
    rw [h, inked, Fragment.ofText, hrich]
    rfl

theorem inked_renderLineBreak (h : ctx.labelled = false) (ahead : List Content)
    (previous : Option Trace) (next : Int) :
    (renderLineBreak ctx ahead previous next).inked = ⟨[], next⟩ := by
  unfold renderLineBreak
  extract_lets text
  have htext : Text.ink text = [] := by
    unfold text
    split
    · exact ink_lineBreak h "br"
    · split <;> decide
  rw [inked, Fragment.ofChars, Fragment.ofText, AnnotatedText.text_plain, htext]

theorem inked_renderRule (h : ctx.labelled = false) (ahead : List Content) (position : Cursor)
    (next : Int) : (renderRule ctx ahead position next).inked = ⟨[], next⟩ := by
  unfold renderRule
  extract_lets gap rule close
  have hgap : Text.ink gap = [] := ink_separation h position "hr1" []
  have hclose : Text.ink close = [] := by
    unfold close
    split
    · rfl
    · exact ink_lineBreak h "hr2"
  have hrule : Text.ink rule.text = [] := by decide
  simp [inked, Fragment.ofChars, Fragment.ofText, hgap, hclose, hrule]

theorem inked_closeParagraph (h : ctx.labelled = false) (isDivision : Bool) (ahead : List Content)
    (body : Rendered) : (closeParagraph ctx isDivision ahead body).inked = body.inked := by
  rw [closeParagraph]
  split
  · rfl
  · extract_lets close
    have hclose : Text.ink close = [] := by
      unfold close
      split
      · rfl
      · split
        · rw [Text.ink_append, ink_lineBreak h, ink_lineBreak h, List.append_nil]
        · exact ink_lineBreak h "p2"
    rw [inked_setTrace, inked_followedBy_blank hclose]

theorem inked_closePreformatted (h : ctx.labelled = false) (ahead : List Content)
    (position : Cursor) (body : Rendered) :
    (closePreformatted ctx ahead position body).inked = body.inked := by
  rw [closePreformatted]
  split
  · rfl
  · rw [inked_setTrace, inked_followedBy_blank (ink_separation h position "pre2" ahead)]

/-- A link of the standard style leaves the ink of its content. -/
theorem inked_closeAnchor (h : ctx.style = .standard) (address : String)
    (link? : Option DeepLink) (body : Rendered) :
    (closeAnchor ctx address link? body).inked = body.inked := by
  cases link? with
  | none => rfl
  | some link =>
      rw [closeAnchor, h]
      cases link <;> rfl

/-- Hidden content says what it says where it is shown. -/
theorem inked_hideContent (id : String) {scope : ListScope} {content : List Content} {next : Int}
    {body : Rendered} (h : body.inked = Content.wordingOf scope next content) :
    (hideContent id content next body).inked = Content.wordingOf scope next content := by
  cases content with
  | nil =>
      rw [Content.wordingOf]
      rfl
  | cons c cs => exact h

/-- The ink of a details element is that of its parts. -/
theorem inked_closeDetails (position : Cursor) (before label after : Rendered) :
    (closeDetails position before label after).inked
      = ⟨before.inked.text ++ label.inked.text ++ after.inked.text, after.inked.next⟩ := by
  simp [inked, closeDetails]

/-- A list item says its label and what is inside it. -/
theorem inked_listItem (value : Option Int) {children ahead : List Content}
    {previous : Option Trace} {position : Cursor} {next : Int}
    (hunwrapped : (renderAll children ctx none position next).inked
      = Content.wordingOf ctx.scope next children)
    (hinside : ∀ (position : Cursor) (number : Int),
      (renderAll children { ctx with depth := ctx.depth + 1 } none position number).inked
        = Content.wordingOf ctx.scope number children) :
    (renderOne (.listItem value children) ctx ahead previous position next).inked
      = (Content.listItem value children).wording ctx.scope next := by
  rw [renderOne, Content.wording]
  cases hscope : ctx.scope with
  | none =>
      rw [hscope] at hunwrapped
      simp only [itemLabel?, hscope, itemWording]
      exact hunwrapped
  | unordered bullet =>
      rw [hscope] at hinside
      simp only [itemLabel?, hscope, itemWording]
      cases Content.hasOwnText children with
      | false => exact hinside position next
      | true =>
          simp only [Bool.not_true, Bool.and_false, Bool.false_eq_true, if_false]
          rw [inked_withTrace, inked_marked, inked_after, hinside]
          rfl
  | ordered =>
      rw [hscope] at hinside
      simp only [itemLabel?, hscope, itemWording, reduceCtorEq, decide_false, Bool.false_and,
        Bool.false_eq_true, if_false]
      rw [inked_withTrace, inked_marked, inked_after, hinside]

mutual

/-- The walk renders what a piece of content says. -/
theorem inked_renderOne : (c : Content) → (ctx : Context) → (ahead : List Content) →
    (previous : Option Trace) → (position : Cursor) → (next : Int) →
    ctx.style = .standard → ctx.labelled = false →
    (renderOne c ctx ahead previous position next).inked = c.wording ctx.scope next
  | .text data, ctx, ahead, previous, position, next, hstyle, hlabelled => by
      rw [inked_renderText hstyle hlabelled, Content.wording]
  | .emphasis e children, ctx, _, _, position, next, hstyle, hlabelled => by
      rw [renderOne, Content.wording, inked_withTrace, inked_marked]
      exact inked_renderAll children ctx none position next hstyle hlabelled
  | .code children, ctx, _, _, position, next, hstyle, hlabelled => by
      rw [renderOne, Content.wording]
      have hbody := inked_renderAll children ctx none position next hstyle hlabelled
      split
      · rw [inked_setTrace, inked_marked]
        exact hbody
      · rw [inked_withTrace, inked_marked]
        exact hbody
  | .span look children, ctx, _, _, position, next, hstyle, hlabelled => by
      rw [renderOne, Content.wording, inked_withTrace, inked_marked]
      exact inked_renderAll children ctx none position next hstyle hlabelled
  | .anchor address children, ctx, _, _, position, next, hstyle, hlabelled => by
      rw [renderOne, Content.wording, inked_closeAnchor hstyle]
      exact inked_renderAll children { ctx with isLinked := true } none _ next hstyle hlabelled
  | .lineBreak, ctx, ahead, previous, _, next, _, hlabelled => by
      rw [renderOne, Content.wording, inked_renderLineBreak hlabelled]
  | .image info, ctx, _, _, _, next, hstyle, _ => by
      rw [renderOne, Content.wording, renderImage, hstyle]
      rfl
  | .foreignImage children, ctx, _, _, position, next, hstyle, hlabelled => by
      rw [renderOne, Content.wording, inked_setTrace]
      exact inked_renderAll children ctx none position next hstyle hlabelled
  | .heading level children, ctx, _, _, position, next, hstyle, hlabelled => by
      rw [renderOne, Content.wording, inked_setTrace, inked_marked]
      exact inked_renderAll children ctx none position next hstyle hlabelled
  | .paragraph isDivision children, ctx, ahead, previous, position, next, hstyle, hlabelled => by
      rw [renderOne, Content.wording, inked_after_blank (ink_gapBefore hlabelled previous position _),
        inked_closeParagraph hlabelled]
      exact inked_renderAll children ctx none _ next hstyle hlabelled
  | .quote children, ctx, _, _, position, next, hstyle, hlabelled => by
      rw [renderOne, Content.wording, inked_setTrace, inked_marked]
      exact inked_renderAll children { ctx with depth := ctx.depth + 1 } none position next hstyle
        hlabelled
  | .preformatted children, ctx, ahead, previous, position, next, hstyle, hlabelled => by
      rw [renderOne, Content.wording, inked_after_blank (ink_gapBefore hlabelled previous position _),
        inked_closePreformatted hlabelled]
      exact inked_renderAll children { ctx with isPreformatted := true } none _ next hstyle hlabelled
  | .rule, ctx, ahead, _, position, next, _, hlabelled => by
      rw [renderOne, Content.wording, inked_renderRule hlabelled]
  | .details before summary after, ctx, _, previous, position, next, hstyle, hlabelled => by
      rw [renderOne, Content.wording]
      have hbefore := inked_hideContent (payloadOf position.offset)
        (inked_renderAll before ctx previous position next hstyle hlabelled)
      generalize hideContent (payloadOf position.offset) before next
        (renderAll before ctx previous position next) = hiddenBefore at hbefore ⊢
      have hsign : Text.ink ctx.style.summaryPlaceholder.toList = [] := by
        rw [hstyle]
        decide
      have hlabel := inked_renderAll summary ctx none
        ((position.advance hiddenBefore.fragment.text).advance
          (.plain ctx.style.summaryPlaceholder.toList)) hiddenBefore.next hstyle hlabelled
      rw [← inked_after_blank hsign] at hlabel
      generalize Rendered.after _ _ = label at hlabel ⊢
      have hafter := inked_hideContent (payloadOf position.offset)
        (inked_renderAll after ctx (some .block)
          ((position.advance hiddenBefore.fragment.text).advance
            (label.marked (.note .detailsSummary (payloadOf position.offset))).fragment.text)
          label.next hstyle hlabelled)
      rw [inked_closeDetails, inked_marked, ← hbefore,
        show hiddenBefore.inked.next = hiddenBefore.next from rfl, ← hlabel,
        show label.inked.next = label.next from rfl, ← hafter]
      rfl
  | .unorderedList children, ctx, _, _, position, next, hstyle, hlabelled => by
      have hbullet : ctx.style.bullet ctx.depth = RenderStyle.standardBullet := by
        rw [hstyle]
        rfl
      rw [renderOne, Content.wording, inked_setNext, inked_setTrace, inked_marked, hbullet]
      rw [inked_renderAll children { ctx with scope := .unordered RenderStyle.standardBullet } none
        position next hstyle hlabelled]
  | .orderedList start children, ctx, _, _, position, next, hstyle, hlabelled => by
      rw [renderOne, Content.wording, inked_setNext, inked_setTrace, inked_marked,
        inked_renderAll children { ctx with scope := .ordered } none position _ hstyle hlabelled]
  | .listItem value children, ctx, _, _, position, next, hstyle, hlabelled => by
      exact inked_listItem value (inked_renderAll children ctx none position next hstyle hlabelled)
        fun position number => inked_renderAll children { ctx with depth := ctx.depth + 1 } none
          position number hstyle hlabelled
  | .unsupported _ children, ctx, _, _, position, next, hstyle, hlabelled => by
      rw [renderOne, Content.wording]
      exact inked_renderAll children ctx none position next hstyle hlabelled

/-- The walk renders what pieces of content say. -/
theorem inked_renderAll : (cs : List Content) → (ctx : Context) → (previous : Option Trace) →
    (position : Cursor) → (next : Int) → ctx.style = .standard → ctx.labelled = false →
    (renderAll cs ctx previous position next).inked = Content.wordingOf ctx.scope next cs
  | [], ctx, previous, position, next, _, _ => by
      rw [renderAll, Content.wordingOf]
      rfl
  | c :: cs, ctx, previous, position, next, hstyle, hlabelled => by
      rw [renderAll, Content.wordingOf]
      have hfirst := inked_renderOne c ctx cs previous position next hstyle hlabelled
      generalize renderOne c ctx cs previous position next = first at hfirst ⊢
      have hrest := inked_renderAll cs ctx (first.trace.or previous)
        (position.advance first.fragment.text) first.next hstyle hlabelled
      rw [← hfirst, show first.inked.next = first.next from rfl, ← hrest]
      simp [inked]

end

end Walk

end MessageBody
