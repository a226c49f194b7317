import MessageBody.Proofs.Brackets
import MessageBody.Proofs.Disclosures

/-! # Cursors over several pieces

    A cursor keeps of the text before it only what rendering asks.  Put together from
    texts whose ranges lie in them, a text moves the cursor as its parts do one after the
    other.  Rendering gives such texts, whatever links show, as far as the callbacks for
    links keep the ranges in the text. -/

namespace MessageBody

namespace AnnotatedText

/-- A paragraph ends where the second text ends, or where the first ends if the second
    is empty. -/
theorem endsParagraph_append {t : AnnotatedText} (ht : t.WellFormed) (u : AnnotatedText) :
    (t ++ u).endsParagraph = (u.endsParagraph || (u.text.isEmpty && t.endsParagraph)) := by
  -- a range that was moved behind the first text ends with both if it ended with its own
  have hshifted : (u.ranges.map (Range.shift t.length)).any
      (fun r => r.item.isParagraph && r.stop == (t ++ u).length) = u.endsParagraph := by
    rw [List.any_map, endsParagraph]
    refine congrArg (fun p => u.ranges.any p) (funext fun r => ?_)
    have hstop : (t.length + r.stop == t.length + u.length) = (r.stop == u.length) := by
      rw [Bool.eq_iff_iff, beq_iff_eq, beq_iff_eq]
      omega
    rw [length_append]
    exact congrArg (r.item.isParagraph && ·) hstop
  have hfirst : t.ranges.any (fun r => r.item.isParagraph && r.stop == (t ++ u).length)
      = (u.text.isEmpty && t.endsParagraph) := by
    by_cases hu : u.text = []
    · have hlength : (t ++ u).length = t.length := by
        rw [length_append, show u.length = 0 from congrArg List.length hu, Nat.add_zero]
      rw [hlength, hu]
      rfl
    · -- the ranges of the first text do not reach the end of the second
      have hpos : 0 < u.length := List.length_pos_iff.mpr hu
      have hnone : t.ranges.any (fun r => r.item.isParagraph && r.stop == (t ++ u).length)
          = false := by
        rw [List.any_eq_false]
        intro r hr
        have hle := (ht r hr).2
        rw [length_append, Bool.and_eq_true, beq_iff_eq]
        omega
      rw [hnone, List.isEmpty_eq_false_iff.mpr hu, Bool.false_and]
  rw [endsParagraph, ranges_append, List.any_append, hfirst, hshifted, Bool.or_comm]

end AnnotatedText

namespace Cursor

/-- Two texts move the cursor one after the other. -/
theorem advance_append (c : Cursor) {t : AnnotatedText} (ht : t.WellFormed) (u : AnnotatedText) :
    c.advance (t ++ u) = (c.advance t).advance u := by
  have hlast : (t ++ u).text.getLast?.or c.last
      = u.text.getLast?.or (t.text.getLast?.or c.last) := by
    rw [AnnotatedText.text_append, List.getLast?_append, Option.or_assoc]
  -- an end of a paragraph is handed on only across texts that have no characters
  have hended : ((t ++ u).endsParagraph || ((t ++ u).text.isEmpty && c.paragraphEnded))
      = (u.endsParagraph || (u.text.isEmpty
          && (t.endsParagraph || (t.text.isEmpty && c.paragraphEnded)))) := by
    have hempty : (t.text ++ u.text).isEmpty = (u.text.isEmpty && t.text.isEmpty) := by
      cases t.text
      · exact (Bool.and_true _).symm
      · exact (Bool.and_false _).symm
    rw [AnnotatedText.endsParagraph_append ht, AnnotatedText.text_append, hempty, Bool.or_assoc,
      Bool.and_or_distrib_left, Bool.and_assoc]
  rw [advance, advance, advance, AnnotatedText.length_append, hlast, hended, ← Nat.add_assoc]

end Cursor

/-! ## Rendering keeps ranges in the text -/

/-- The callbacks for links keep ranges in the text. -/
def RenderStyle.KeepsBounds (style : RenderStyle) : Prop :=
  ∀ (link : DeepLink) (content : AnnotatedText), content.WellFormed →
    (style.linkText link content).WellFormed

/-- Links that are shown as they are have their ranges in the text. -/
theorem RenderStyle.KeepsLinkContent.keepsBounds {style : RenderStyle}
    (h : style.KeepsLinkContent) : style.KeepsBounds := by
  intro link content hcontent
  rw [linkText_eq h]
  exact hcontent

namespace AnnotatedText

theorem wellFormed_plain (s : List Char) : (plain s).WellFormed :=
  (Bracketed.plain s).wellFormed

/-- Mentions and links lie in the running text. -/
theorem wellFormed_richText (style : RenderStyle) (allowMention autoLink : Bool) (s : List Char) :
    (richText style allowMention autoLink s).WellFormed := by
  refine richText_induction (wellFormed_plain []) (fun _ _ => wellFormed_append) ?_ ?_
    allowMention s
  · exact wellFormed_marked _ (wellFormed_plain _)
  · intro stretch
    exact (linkedText_bracketed autoLink stretch).wellFormed

end AnnotatedText

open AnnotatedText

/-- Line breaks behind a paragraph leave its ranges in the text. -/
theorem wellFormed_closeParagraph {ctx : Context} {isDivision : Bool} {ahead : List Content}
    {body : Rendered} (h : body.fragment.text.WellFormed) :
    (closeParagraph ctx isDivision ahead body).fragment.text.WellFormed := by
  rw [closeParagraph]
  split
  · exact h
  · exact wellFormed_append h (wellFormed_plain _)

/-- A link lies in the text that it shows, which is well-formed if the style keeps bounds. -/
theorem wellFormed_closeAnchor {ctx : Context} (hstyle : ctx.style.KeepsBounds)
    {address : String} {link? : Option DeepLink} {body : Rendered}
    (h : body.fragment.text.WellFormed) :
    (closeAnchor ctx address link? body).fragment.text.WellFormed := by
  cases link? with
  | none => exact wellFormed_marked _ h
  | some link => exact wellFormed_marked _ (hstyle link _ h)

theorem wellFormed_closePreformatted {ctx : Context} {ahead : List Content} {position : Cursor}
    {body : Rendered} (h : body.fragment.text.WellFormed) :
    (closePreformatted ctx ahead position body).fragment.text.WellFormed := by
  rw [closePreformatted]
  split
  · exact h
  · exact wellFormed_append h (wellFormed_plain _)

/-- What is hidden is well-formed, and so is nothing. -/
theorem wellFormed_hideContent (id : String) (content : List Content) (next : Int)
    {body : Rendered} (h : body.fragment.text.WellFormed) :
    (hideContent id content next body).fragment.text.WellFormed := by
  rw [hideContent]
  split
  · exact wellFormed_plain []
  · exact wellFormed_marked _ h

mutual

/-- A piece of content is rendered with its ranges in the text. -/
theorem renderOne_wellFormed : (c : Content) → (ctx : Context) → (ahead : List Content) →
    (previous : Option Trace) → (position : Cursor) → (next : Int) → ctx.style.KeepsBounds →
    (renderOne c ctx ahead previous position next).fragment.text.WellFormed
  | .text data, ctx, ahead, previous, position, next, _ => by
      rw [renderOne]
      split
      · exact wellFormed_plain []
      · exact wellFormed_richText ctx.style _ _ _
  | .emphasis e children, ctx, _, _, position, next, hstyle => by
      rw [renderOne]
      exact wellFormed_marked _ (renderAll_wellFormed children ctx none position next hstyle)
  | .code children, ctx, _, _, position, next, hstyle => by
      rw [renderOne]
      have hbody := renderAll_wellFormed children ctx none position next hstyle
      split
      · exact wellFormed_marked _ hbody
      · exact wellFormed_marked _ hbody
  | .span look children, ctx, _, _, position, next, hstyle => by
      rw [renderOne]
      exact wellFormed_marked _ (renderAll_wellFormed children ctx none position next hstyle)
  | .anchor address children, ctx, _, _, position, next, hstyle => by
      rw [renderOne]
      exact wellFormed_closeAnchor hstyle (renderAll_wellFormed children _ none _ next hstyle)
  | .lineBreak, ctx, ahead, previous, position, next, _ => by
      rw [renderOne]
      exact wellFormed_plain _
  | .image info, ctx, _, _, position, next, _ => by
      rw [renderOne]
      exact wellFormed_marked _ (wellFormed_plain _)
  | .foreignImage children, ctx, _, _, position, next, hstyle => by
      rw [renderOne]
      exact renderAll_wellFormed children ctx none position next hstyle
  | .heading level children, ctx, _, _, position, next, hstyle => by
      rw [renderOne]
      exact wellFormed_marked _ (renderAll_wellFormed children ctx none position next hstyle)
  | .paragraph isDivision children, ctx, ahead, previous, position, next, hstyle => by
      rw [renderOne]
      exact wellFormed_append (wellFormed_plain _)
        (wellFormed_closeParagraph (renderAll_wellFormed children ctx none _ next hstyle))
  | .quote children, ctx, _, _, position, next, hstyle => by
      rw [renderOne]
      exact wellFormed_marked _ (renderAll_wellFormed children _ none position next hstyle)
  | .preformatted children, ctx, ahead, previous, position, next, hstyle => by
      rw [renderOne]
      exact wellFormed_append (wellFormed_plain _)
        (wellFormed_closePreformatted (renderAll_wellFormed children _ none _ next hstyle))
  | .rule, ctx, ahead, _, position, next, _ => by
      rw [renderOne]
      exact wellFormed_append (wellFormed_append (wellFormed_plain _)
        (wellFormed_marked _ (wellFormed_plain _))) (wellFormed_plain _)
  | .details before summary after, ctx, _, previous, position, next, hstyle => by
      rw [renderOne]
      refine wellFormed_append (wellFormed_append ?_ (wellFormed_marked _ ?_)) ?_
      · exact wellFormed_hideContent _ _ _ (renderAll_wellFormed before ctx previous _ _ hstyle)
      · exact wellFormed_append (wellFormed_plain _)
          (renderAll_wellFormed summary ctx none _ _ hstyle)
      · exact wellFormed_hideContent _ _ _
          (renderAll_wellFormed after ctx (some .block) _ _ hstyle)
  | .unorderedList children, ctx, _, _, position, next, hstyle => by
      rw [renderOne]
      exact wellFormed_marked _ (renderAll_wellFormed children _ none position next hstyle)
  | .orderedList start children, ctx, _, _, position, next, hstyle => by
      rw [renderOne]
      exact wellFormed_marked _ (renderAll_wellFormed children _ none position _ hstyle)
  | .listItem value children, ctx, _, _, position, next, hstyle => by
      rw [renderOne]
      split
      · exact renderAll_wellFormed children ctx none position next hstyle
      · extract_lets inner
        split
        · exact renderAll_wellFormed children inner none position _ hstyle
        · exact wellFormed_marked _ (wellFormed_append (wellFormed_plain _)
            (renderAll_wellFormed children inner none _ _ hstyle))
  | .unsupported _ children, ctx, _, _, position, next, hstyle => by
      rw [renderOne]
      exact renderAll_wellFormed children ctx none position next hstyle

/-- Pieces of content are rendered with their ranges in the text. -/
theorem renderAll_wellFormed : (cs : List Content) → (ctx : Context) →
    (previous : Option Trace) → (position : Cursor) → (next : Int) → ctx.style.KeepsBounds →
    (renderAll cs ctx previous position next).fragment.text.WellFormed
  | [], ctx, previous, position, next, _ => by
      rw [renderAll]
      exact wellFormed_plain []
  | c :: cs, ctx, previous, position, next, hstyle => by
      rw [renderAll]
      exact wellFormed_append (renderOne_wellFormed c ctx cs previous position next hstyle)
        (renderAll_wellFormed cs ctx _ _ _ hstyle)

end

end MessageBody
