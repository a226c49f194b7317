import MessageBody.Proofs.Composition
import MessageBody.Proofs.Summaries
import MessageBody.Proofs.Wording

/-! # Where elements open

    What can be revealed is identified by the position at which its element opens: the
    number of characters that are shown before it.  So two elements have ids of their own
    if something is shown between their openings, and share one if nothing is.

    The steps of a tree (`Content.steps`) are its openings and what it shows, in document
    order, as far as the tree alone tells.  The walk follows them (`renderOne_takes`), and
    how the ids of two openings are related is read off the steps between them
    (`Follows.openings`). -/

namespace MessageBody

/-! ## Steps -/

/-- What happens in document order when content is rendered. -/
inductive Step where
  /-- An element opens that can be revealed. -/
  | opens
  /-- One character at least is shown. -/
  | shows
  /-- Something may be shown. -/
  | mayShow
  deriving DecidableEq

/-- Steps that lead from position `p` to position `q`, and the positions of the openings
    among them. -/
inductive Follows : List Step → Nat → Nat → List Nat → Prop
  | nil {p : Nat} : Follows [] p p []
  | opens {steps : List Step} {p q : Nat} {ids : List Nat} (h : Follows steps p q ids) :
      Follows (.opens :: steps) p q (p :: ids)
  | shows {steps : List Step} {p r q : Nat} {ids : List Nat} (hlt : p < r)
      (h : Follows steps r q ids) : Follows (.shows :: steps) p q ids
  | mayShow {steps : List Step} {p r q : Nat} {ids : List Nat} (hle : p ≤ r)
      (h : Follows steps r q ids) : Follows (.mayShow :: steps) p q ids

namespace Follows

variable {steps steps' : List Step} {p q r : Nat} {ids ids' : List Nat}

/-- Steps that are followed one after the other are followed together. -/
theorem append (h : Follows steps p q ids) (h' : Follows steps' q r ids') :
    Follows (steps ++ steps') p r (ids ++ ids') := by
  induction h with
  | nil => exact h'
  | opens _ ih => exact .opens (ih h')
  | shows hlt _ ih => exact .shows hlt (ih h')
  | mayShow hle _ ih => exact .mayShow hle (ih h')

/-- Steps one after the other are followed one after the other. -/
theorem split (steps steps' : List Step) (h : Follows (steps ++ steps') p r ids) :
    ∃ q first rest, Follows steps p q first ∧ Follows steps' q r rest ∧ ids = first ++ rest := by
  induction steps generalizing p ids with
  | nil => exact ⟨p, [], ids, .nil, h, rfl⟩
  | cons step steps ih =>
      cases h with
      | opens h =>
          obtain ⟨q, first, rest, hfirst, hrest, rfl⟩ := ih h
          exact ⟨q, p :: first, rest, .opens hfirst, hrest, rfl⟩
      | shows hlt h =>
          obtain ⟨q, first, rest, hfirst, hrest, rfl⟩ := ih h
          exact ⟨q, first, rest, .shows hlt hfirst, hrest, rfl⟩
      | mayShow hle h =>
          obtain ⟨q, first, rest, hfirst, hrest, rfl⟩ := ih h
          exact ⟨q, first, rest, .mayShow hle hfirst, hrest, rfl⟩

/-- Following steps goes no way back. -/
theorem le (h : Follows steps p q ids) : p ≤ q := by
  induction h with
  | nil => exact Nat.le_refl _
  | opens _ ih => exact ih
  | shows hlt _ ih => exact Nat.le_trans (Nat.le_of_lt hlt) ih
  | mayShow hle _ ih => exact Nat.le_trans hle ih

/-- Where something is shown, the position moves. -/
theorem lt_of_shows (h : Follows steps p q ids) (hshows : .shows ∈ steps) : p < q := by
  obtain ⟨before, after, rfl⟩ := List.append_of_mem hshows
  obtain ⟨r, _, _, hbefore, hafter, -⟩ := split before _ h
  cases hafter with
  | shows hlt hafter => exact Nat.lt_of_le_of_lt hbefore.le (Nat.lt_of_lt_of_le hlt hafter.le)

/-- Where elements only open, it does not. -/
theorem eq_of_opens (h : Follows steps p q ids) (hopens : ∀ step ∈ steps, step = .opens) :
    p = q := by
  induction h with
  | nil => rfl
  | opens _ ih => exact ih fun step hstep => hopens step (List.mem_cons_of_mem _ hstep)
  | shows => exact nomatch hopens .shows (List.mem_cons_self ..)
  | mayShow => exact nomatch hopens .mayShow (List.mem_cons_self ..)

/-- There are as many positions as openings. -/
theorem length_eq (h : Follows steps p q ids) : ids.length = steps.count .opens := by
  induction h with
  | nil => rfl
  | opens _ ih => rw [List.length_cons, ih, List.count_cons_self]
  | shows _ _ ih => rw [ih, List.count_cons_of_ne (by decide)]
  | mayShow _ _ ih => rw [ih, List.count_cons_of_ne (by decide)]

/-- The positions of two openings, and how what lies between them leads from one to the
    other. -/
theorem openings {before between after : List Step}
    (h : Follows (before ++ .opens :: (between ++ .opens :: after)) p q ids) :
    ∃ i j first inside rest, ids = first ++ i :: (inside ++ j :: rest)
      ∧ first.length = before.count .opens ∧ inside.length = between.count .opens
      ∧ Follows between i j inside := by
  obtain ⟨i, first, rest, hbefore, hrest, rfl⟩ := split before _ h
  cases hrest with
  | opens hbehind =>
      obtain ⟨j, inside, rest, hbetween, hlast, rfl⟩ := split between _ hbehind
      cases hlast with
      | opens _ =>
          exact ⟨i, j, first, inside, _, rfl, hbefore.length_eq, hbetween.length_eq, hbetween⟩

end Follows

/-! ## The steps of a tree -/

/-- The step of a label of a list item; an item of an unordered list without text of its
    own has none. -/
def labelSteps (scope : ListScope) (hasText : Bool) : List Step :=
  match scope with
  | .none => []
  | .unordered bullet => if hasText && bullet.toList ≠ [] then [.shows] else []
  | .ordered => [.shows]

namespace Content

mutual

/-- The steps of a piece of content in a list of the given kind.  Text with a character
    that leaves a mark is shown; whether a blank or a line break is depends on what is
    around it. -/
def steps (scope : ListScope) : Content → List Step
  | .text data => if Text.ink data = [] then [.mayShow] else [.shows]
  | .lineBreak => [.mayShow]
  | .image _ => [.shows]
  | .rule => [.shows]
  | .span look children => (if look.isSpoiler then [.opens] else []) ++ stepsOf scope children
  | .paragraph _ children => .mayShow :: (stepsOf scope children ++ [.mayShow])
  | .preformatted children => .mayShow :: (stepsOf scope children ++ [.mayShow])
  | .details before summary after =>
      .opens :: (stepsOf scope before ++ (.shows :: stepsOf scope summary) ++ stepsOf scope after)
  | .unorderedList children => stepsOf (.unordered RenderStyle.standardBullet) children
  | .orderedList _ children => stepsOf .ordered children
  | .listItem _ children => labelSteps scope (hasOwnText children) ++ stepsOf scope children
  | .emphasis _ children => stepsOf scope children
  | .code children => stepsOf scope children
  | .anchor _ children => stepsOf scope children
  | .foreignImage children => stepsOf scope children
  | .heading _ children => stepsOf scope children
  | .quote children => stepsOf scope children
  | .unsupported _ children => stepsOf scope children

/-- The steps of pieces of content. -/
def stepsOf (scope : ListScope) : List Content → List Step
  | [] => []
  | c :: cs => c.steps scope ++ stepsOf scope cs

end

end Content

/-! ## The walk -/

/-- A fragment that begins at position `o` of the document takes these steps. -/
def Fragment.Takes (f : Fragment) (steps : List Step) (o : Nat) : Prop :=
  Follows steps o (o + f.text.length) f.reveals

namespace Fragment

variable {f g : Fragment} {steps steps' : List Step} {o : Nat}

theorem takes_empty : Fragment.empty.Takes [] o := .nil

/-- Two fragments take the steps of the first and then those of the second. -/
theorem Takes.append (hf : f.Takes steps o) (hg : g.Takes steps' (o + f.text.length)) :
    (f ++ g).Takes (steps ++ steps') o := by
  have hlength : o + (f ++ g).text.length = o + f.text.length + g.text.length := by
    rw [text_append, AnnotatedText.length_append, Nat.add_assoc]
  rw [Takes, hlength]
  exact Follows.append hf hg

/-- An annotation takes no step. -/
theorem Takes.marked (hf : f.Takes steps o) (item : Item) : (f.marked item).Takes steps o := hf

/-- Text that cannot be revealed is shown, or may be. -/
theorem takes_mayShow (h : f.reveals = []) : f.Takes [.mayShow] o := by
  rw [Takes, h]
  exact .mayShow (Nat.le_add_right ..) .nil

/-- A text that reveals nothing takes the step of showing something. -/
theorem takes_shows (h : f.reveals = []) (htext : f.text.text ≠ []) : f.Takes [.shows] o := by
  rw [Takes, h]
  refine .shows ?_ .nil
  exact Nat.lt_add_of_pos_right (List.length_pos_iff.mpr htext)

/-- What may show something need not. -/
theorem Takes.mayShow (hf : f.Takes steps o) : f.Takes (steps ++ [.mayShow]) o := by
  have h := Follows.append hf (.mayShow (Nat.le_refl _) .nil)
  rw [List.append_nil] at h
  exact h

end Fragment

open Fragment

section Walk

variable {ctx : Context}

/-- Labels leave no text empty that was not. -/
theorem withLabels_ne_nil {labelled : Bool} {s : List Char} (h : s ≠ []) :
    withLabels labelled s ≠ [] := by
  rw [withLabels]
  split
  · cases s with
    | nil => exact absurd rfl h
    | cons c cs =>
        rw [List.flatMap_cons]
        refine List.append_ne_nil_of_left_ne_nil ?_ _
        split <;> exact List.cons_ne_nil _ _
  · exact h

/-- A run of text shows something or nothing, and opens nothing. -/
theorem takes_renderText (hstyle : ctx.style = .standard) (data : List Char)
    (ahead : List Content) (previous : Option Trace) (position : Cursor) (next : Int) {o : Nat} :
    (renderOne (.text data) ctx ahead previous position next).fragment.Takes
      ((Content.text data).steps ctx.scope) o := by
  have hreveals : (renderOne (.text data) ctx ahead previous position next).fragment.reveals
      = [] := by
    rw [renderOne]
    split <;> rfl
  rw [Content.steps]
  split
  · exact takes_mayShow hreveals
  · rename_i hink
    refine takes_shows hreveals ?_
    -- text that is not blank is shown wherever it stands
    have hshown := ink_visibleText? ctx previous ahead data
    rw [renderOne]
    split
    · rename_i hnone
      rw [hnone] at hshown
      exact absurd hshown.symm hink
    · rename_i s hsome
      rw [hsome] at hshown
      have hs : s ≠ [] := by
        rintro rfl
        exact hink hshown.symm
      show (ctx.richText (withLabels ctx.labelled s)).text ≠ []
      rw [Context.richText, text_richText (by rw [hstyle]; rfl)]
      exact withLabels_ne_nil hs

/-- A paragraph may show line breaks behind its content. -/
theorem takes_closeParagraph {isDivision : Bool} {ahead : List Content} {body : Rendered}
    {steps : List Step} {o : Nat} (h : body.fragment.Takes steps o) :
    (closeParagraph ctx isDivision ahead body).fragment.Takes (steps ++ [.mayShow]) o := by
  rw [closeParagraph]
  split
  · exact h.mayShow
  · exact h.append (takes_mayShow rfl)

theorem takes_closePreformatted {ahead : List Content} {position : Cursor} {body : Rendered}
    {steps : List Step} {o : Nat} (h : body.fragment.Takes steps o) :
    (closePreformatted ctx ahead position body).fragment.Takes (steps ++ [.mayShow]) o := by
  rw [closePreformatted]
  split
  · exact h.mayShow
  · exact h.append (takes_mayShow rfl)

/-- A link takes the steps of its content. -/
theorem takes_closeAnchor (hstyle : ctx.style = .standard) {address : String}
    {link? : Option DeepLink} {body : Rendered} {steps : List Step} {o : Nat}
    (h : body.fragment.Takes steps o) :
    (closeAnchor ctx address link? body).fragment.Takes steps o := by
  cases link? with
  | none => exact h
  | some link =>
      have hcontent : ctx.style.linkText link body.fragment.text = body.fragment.text := by
        rw [hstyle]
        exact linkText_eq RenderStyle.standard_keepsLinkContent link _
      simp only [closeAnchor, hcontent, Rendered.fragment_withTrace]
      exact h

/-- Hidden content takes its own steps. -/
theorem takes_hideContent (id : String) {content : List Content} {scope : ListScope} (next : Int)
    {body : Rendered} {o : Nat} (h : body.fragment.Takes (Content.stepsOf scope content) o) :
    (hideContent id content next body).fragment.Takes (Content.stepsOf scope content) o := by
  cases content with
  | nil =>
      rw [Content.stepsOf]
      exact takes_empty
  | cons c cs => exact h

/-- A details element opens something and then takes the steps of its parts. -/
theorem takes_closeDetails {position : Cursor} {before label after : Rendered}
    {steps steps' steps'' : List Step} (hbefore : before.fragment.Takes steps position.offset)
    (hlabel : label.fragment.Takes steps' (position.offset + before.fragment.text.length))
    (hafter : after.fragment.Takes steps'' (position.offset + before.fragment.text.length
      + label.fragment.text.length)) :
    (closeDetails position before label after).fragment.Takes
      (.opens :: (steps ++ steps' ++ steps'')) position.offset := by
  have hbehind : after.fragment.Takes steps''
      (position.offset + (before.fragment ++ label.fragment).text.length) := by
    rw [Fragment.text_append, AnnotatedText.length_append, ← Nat.add_assoc]
    exact hafter
  have hbody := (hbefore.append hlabel).append hbehind
  exact .opens hbody

/-- A label shows something unless it is empty. -/
theorem takes_label (s : List Char) (o : Nat) :
    (Fragment.ofChars s).Takes (if s ≠ [] then [.shows] else []) o := by
  by_cases h : s = []
  · rw [h, if_neg (fun hne => hne rfl)]
    exact takes_empty
  · rw [if_pos h]
    exact takes_shows rfl h

/-- Some text always stands for an image. -/
theorem standardImageText_ne_nil (info : ImageInfo) :
    (RenderStyle.standardImageText info).toList ≠ [] := by
  have hvisible : ∀ {s : String} {text? : Option String},
      text?.filter (fun s => decide (s ≠ "")) = some s → s.toList ≠ [] := by
    intro s text? h
    rw [Ne, String.toList_eq_nil_iff]
    exact of_decide_eq_true (Option.filter_eq_some_iff.mp h).2
  show (((info.title.filter fun s => decide (s ≠ "")).or
    (info.alt.filter fun s => decide (s ≠ ""))).getD "IMG").toList ≠ []
  cases hchosen : (info.title.filter fun s => decide (s ≠ "")).or
      (info.alt.filter fun s => decide (s ≠ "")) with
  | none => decide
  | some s =>
      rcases Option.or_eq_some_iff.mp hchosen with h | ⟨-, h⟩
      · exact hvisible h
      · exact hvisible h

/-- A list item takes the steps of its label and of what is inside it. -/
theorem takes_listItem (value : Option Int) {children ahead : List Content}
    {previous : Option Trace} {position : Cursor} {next : Int}
    (hunwrapped : (renderAll children ctx none position next).fragment.Takes
      (Content.stepsOf ctx.scope children) position.offset)
    (hinside : ∀ (position : Cursor) (number : Int),
      (renderAll children { ctx with depth := ctx.depth + 1 } none position number).fragment.Takes
        (Content.stepsOf ctx.scope children) position.offset) :
    (renderOne (.listItem value children) ctx ahead previous position next).fragment.Takes
      ((Content.listItem value children).steps ctx.scope) position.offset := by
  -- a label is shown in front of what is inside, whatever number the item has
  have hlabelled : ∀ (label : List Char) (number : Int),
      ((renderAll children { ctx with depth := ctx.depth + 1 } none
        (position.advance (.plain label)) number).after label).fragment.Takes
          ((if label ≠ [] then [.shows] else []) ++ Content.stepsOf ctx.scope children)
          position.offset := by
    intro label number
    have hbody := hinside (position.advance (.plain label)) number
    rw [Cursor.offset_advance] at hbody
    exact (takes_label label position.offset).append hbody
  rw [renderOne, Content.steps]
  cases hscope : ctx.scope with
  | none =>
      rw [hscope] at hunwrapped
      simp only [itemLabel?, hscope, labelSteps]
      exact hunwrapped
  | unordered bullet =>
      rw [hscope] at hinside hlabelled
      simp only [itemLabel?, hscope, labelSteps]
      cases Content.hasOwnText children with
      | false => exact hinside position next
      | true =>
          simp only [Bool.not_true, Bool.and_false, Bool.false_eq_true, if_false, Bool.true_and,
            decide_eq_true_eq]
          exact (hlabelled bullet.toList next).marked _
  | ordered =>
      rw [hscope] at hlabelled
      simp only [itemLabel?, hscope, labelSteps, reduceCtorEq, decide_false, Bool.false_and,
        Bool.false_eq_true, if_false]
      have hitem := hlabelled ((toString (value.getD next)).toList ++ ['.', ' '])
        (value.getD next + 1)
      rw [if_pos (List.append_ne_nil_of_right_ne_nil _ (List.cons_ne_nil _ _))] at hitem
      exact hitem.marked _

mutual

/-- The walk takes the steps of a piece of content, from the position where it stands. -/
theorem renderOne_takes : (c : Content) → (ctx : Context) → (ahead : List Content) →
    (previous : Option Trace) → (position : Cursor) → (next : Int) → ctx.style = .standard →
    (renderOne c ctx ahead previous position next).fragment.Takes (c.steps ctx.scope)
      position.offset
  | .text data, ctx, ahead, previous, position, next, hstyle => by
      exact takes_renderText hstyle data ahead previous position next
  | .emphasis e children, ctx, _, _, position, next, hstyle => by
      rw [renderOne, Content.steps]
      exact (renderAll_takes children ctx none position next hstyle).marked _
  | .code children, ctx, _, _, position, next, hstyle => by
      rw [renderOne, Content.steps]
      have hbody := renderAll_takes children ctx none position next hstyle
      split
      · exact hbody.marked _
      · exact hbody.marked _
  | .span look children, ctx, _, _, position, next, hstyle => by
      rw [renderOne, Content.steps]
      have hbody := renderAll_takes children ctx none position next hstyle
      cases look.isSpoiler with
      | true => exact .opens hbody
      | false => exact hbody
  | .anchor address children, ctx, _, _, position, next, hstyle => by
      rw [renderOne, Content.steps]
      refine takes_closeAnchor hstyle ?_
      -- on a layer of its own or not, the content begins where the link stands
      have hoffset : (if (DeepLink.ofUrl? address.toList).isSome then position.fork
          else position).offset = position.offset := by
        split <;> rfl
      rw [← hoffset]
      exact renderAll_takes children { ctx with isLinked := true } none _ next hstyle
  | .lineBreak, ctx, ahead, previous, position, next, _ => by
      rw [renderOne, Content.steps]
      exact takes_mayShow rfl
  | .image info, ctx, _, _, position, next, hstyle => by
      rw [renderOne, Content.steps]
      refine takes_shows rfl ?_
      show (ctx.style.imageText info).toList ≠ []
      rw [hstyle]
      exact standardImageText_ne_nil info
  | .foreignImage children, ctx, _, _, position, next, hstyle => by
      rw [renderOne, Content.steps]
      exact renderAll_takes children ctx none position next hstyle
  | .heading level children, ctx, _, _, position, next, hstyle => by
      rw [renderOne, Content.steps]
      exact (renderAll_takes children ctx none position next hstyle).marked _
  | .paragraph isDivision children, ctx, ahead, previous, position, next, hstyle => by
      rw [renderOne, Content.steps]
      have hbody := renderAll_takes children ctx none
        (position.advance (.plain (gapBefore ctx previous position "p1"))) next hstyle
      rw [Cursor.offset_advance] at hbody
      exact (takes_mayShow rfl).append (takes_closeParagraph hbody)
  | .quote children, ctx, _, _, position, next, hstyle => by
      rw [renderOne, Content.steps]
      exact (renderAll_takes children { ctx with depth := ctx.depth + 1 } none position next
        hstyle).marked _
  | .preformatted children, ctx, ahead, previous, position, next, hstyle => by
      rw [renderOne, Content.steps]
      have hbody := renderAll_takes children { ctx with isPreformatted := true } none
        (position.advance (.plain (gapBefore ctx previous position "pre1"))) next hstyle
      rw [Cursor.offset_advance] at hbody
      exact (takes_mayShow rfl).append (takes_closePreformatted hbody)
  | .rule, ctx, ahead, _, position, next, _ => by
      rw [renderOne, Content.steps]
      refine takes_shows rfl ?_
      exact List.append_ne_nil_of_left_ne_nil
        (List.append_ne_nil_of_right_ne_nil _ (List.cons_ne_nil _ _)) _
  | .details before summary after, ctx, _, previous, position, next, hstyle => by
      rw [renderOne, Content.steps]
      have hbefore := takes_hideContent (payloadOf position.offset) next
        (renderAll_takes before ctx previous position next hstyle)
      generalize hideContent (payloadOf position.offset) before next
        (renderAll before ctx previous position next) = hiddenBefore at hbefore ⊢
      refine takes_closeDetails hbefore ?_ (takes_hideContent _ _ ?_)
      · have hsummary := renderAll_takes summary ctx none
          ((position.advance hiddenBefore.fragment.text).advance
            (.plain ctx.style.summaryPlaceholder.toList)) hiddenBefore.next hstyle
        rw [Cursor.offset_advance, Cursor.offset_advance] at hsummary
        refine Fragment.Takes.append (takes_shows rfl ?_) hsummary
        show ctx.style.summaryPlaceholder.toList ≠ []
        rw [hstyle]
        decide
      · generalize Rendered.after _ _ = label
        have hafter := renderAll_takes after ctx (some .block)
          ((position.advance hiddenBefore.fragment.text).advance
            (label.marked (.note .detailsSummary (payloadOf position.offset))).fragment.text)
          label.next hstyle
        rw [Cursor.offset_advance, Cursor.offset_advance] at hafter
        exact hafter
  | .unorderedList children, ctx, _, _, position, next, hstyle => by
      have hbullet : ctx.style.bullet ctx.depth = RenderStyle.standardBullet := by
        rw [hstyle]
        rfl
      rw [renderOne, Content.steps, hbullet]
      exact (renderAll_takes children { ctx with scope := .unordered RenderStyle.standardBullet }
        none position next hstyle).marked _
  | .orderedList start children, ctx, _, _, position, next, hstyle => by
      rw [renderOne, Content.steps]
      exact (renderAll_takes children { ctx with scope := .ordered } none position _
        hstyle).marked _
  | .listItem value children, ctx, _, _, position, next, hstyle => by
      exact takes_listItem value (renderAll_takes children ctx none position next hstyle)
        fun position number => renderAll_takes children { ctx with depth := ctx.depth + 1 } none
          position number hstyle
  | .unsupported _ children, ctx, _, _, position, next, hstyle => by
      rw [renderOne, Content.steps]
      exact renderAll_takes children ctx none position next hstyle

/-- The walk takes the steps of pieces of content, one piece after the other. -/
theorem renderAll_takes : (cs : List Content) → (ctx : Context) → (previous : Option Trace) →
    (position : Cursor) → (next : Int) → ctx.style = .standard →
    (renderAll cs ctx previous position next).fragment.Takes (Content.stepsOf ctx.scope cs)
      position.offset
  | [], ctx, previous, position, next, _ => by
      rw [renderAll, Content.stepsOf]
      exact takes_empty
  | c :: cs, ctx, previous, position, next, hstyle => by
      rw [renderAll, Content.stepsOf]
      have hfirst := renderOne_takes c ctx cs previous position next hstyle
      generalize renderOne c ctx cs previous position next = first at hfirst ⊢
      have hrest := renderAll_takes cs ctx (first.trace.or previous)
        (position.advance first.fragment.text) first.next hstyle
      rw [Cursor.offset_advance] at hrest
      exact hfirst.append hrest

end

end Walk

end MessageBody
