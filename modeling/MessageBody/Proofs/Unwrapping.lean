import MessageBody.Proofs.Cursors

/-! # Unwrapping

    An element without a meaning shows its content and nothing else.  White space and
    line breaks depend on what stands around a piece of content, and there the element
    itself stays: its content is rendered as if nothing stood before it and nothing were
    ahead, and what stands before it has the element ahead and not its content.  So the
    element can be replaced by its content as far as no piece depends on what is
    different.

    What a piece depends on is put as questions (`Content.asks`), and pieces whose
    questions have the same answers are rendered alike (`renderOne_congr`). -/

namespace MessageBody

/-! ## Questions -/

/-- What a piece of content may ask about its surroundings. -/
inductive Question where
  /-- Blank text shows here. -/
  | showsBlank
  /-- The piece before takes away the white space that text begins with. -/
  | isTrimmed
  /-- The piece before lets blank text show. -/
  | showsBefore
  /-- The piece before implies a line break. -/
  | isAfterBreak
  /-- White space in front of what is ahead does not show. -/
  | trims
  /-- What is ahead implies a line break. -/
  | breaks
  /-- What is ahead is a paragraph proper. -/
  | isBeforeParagraph
  /-- Nothing is ahead. -/
  | isLast
  deriving DecidableEq

/-- All questions. -/
def Question.all : List Question :=
  [.showsBlank, .isTrimmed, .showsBefore, .isAfterBreak, .trims, .breaks, .isBeforeParagraph, .isLast]

/-- There are no other questions. -/
theorem Question.mem_all (q : Question) : q ∈ all := by
  cases q <;> decide

/-- The answer where `previous` is the trace of the piece before. -/
def Question.answer (ahead : List Content) (previous : Option Trace) : Question → Bool
  | .showsBlank => !Content.trimsBefore ahead && showsBlankAfter previous
  | .isTrimmed => (previous.map Trace.trimsNext).getD false
  | .showsBefore => showsBlankAfter previous
  | .isAfterBreak => (previous.map Trace.impliesBreak).getD false
  | .trims => Content.trimsBefore ahead
  | .breaks => Content.breaksBefore ahead
  | .isBeforeParagraph => Content.paragraphAhead ahead
  | .isLast => ahead.isEmpty

/-- The question is about the piece before and nothing else. -/
def Question.isAboutBefore : Question → Bool
  | .isTrimmed | .showsBefore | .isAfterBreak => true
  | .showsBlank | .trims | .breaks | .isBeforeParagraph | .isLast => false

theorem Question.answer_of_isAboutBefore {q : Question} (h : q.isAboutBefore = true)
    (ahead ahead' : List Content) (previous : Option Trace) :
    q.answer ahead previous = q.answer ahead' previous := by
  cases q with
  | isTrimmed | showsBefore | isAfterBreak => rfl
  | showsBlank | trims | breaks | isBeforeParagraph | isLast => exact nomatch h

/-- The questions of a run of text. -/
def textAsks (ctx : Context) (data : List Char) (q : Question) : Bool :=
  if ctx.isPreformatted then q = .isLast && data.getLast? == some '\n'
  else if data.all Text.isMarkupBlank then q = .showsBlank && !ctx.passesOverBlank
  else q = .isTrimmed && Text.trimStart Text.isBlank (Text.shown data) != Text.shown data

mutual

/-- The questions that the rendering of a piece depends on.  What is inside a piece asks
    about its own surroundings; only the content in front of a summary has the same piece
    before it as the details element. -/
def Content.asks (ctx : Context) : Content → Question → Bool
  | .text data, q => textAsks ctx data q
  | .lineBreak, q => q = .breaks || q = .isAfterBreak
  | .paragraph isDivision _, q =>
      q = .showsBefore || q = .trims || q = .breaks || (q = .isBeforeParagraph && !isDivision)
  | .preformatted _, q => q = .showsBefore || q = .trims || q = .breaks
  | .rule, q => q = .breaks
  | .details before _ _, q => Content.askBehind ctx before q
  | .emphasis _ _, _ | .code _, _ | .span _ _, _ | .anchor _ _, _ | .image _, _
  | .foreignImage _, _ | .heading _ _, _ | .quote _, _ | .unorderedList _, _
  | .orderedList _ _, _ | .listItem _ _, _ | .unsupported _ _, _ => false

/-- The questions about the piece before that pieces of content ask. -/
def Content.askBehind (ctx : Context) : List Content → Question → Bool
  | [], _ => false
  | c :: cs, q =>
      (q.isAboutBefore && (c.asks ctx q || (q = .showsBefore && c.asks ctx .showsBlank)))
        || Content.askBehind ctx cs q

end

/-- Two surroundings answer the questions of a piece alike. -/
def Content.Alike (ctx : Context) (c : Content) (ahead ahead' : List Content)
    (previous previous' : Option Trace) : Prop :=
  ∀ q, c.asks ctx q = true → q.answer ahead previous = q.answer ahead' previous'

instance (ctx : Context) (c : Content) (ahead ahead' : List Content)
    (previous previous' : Option Trace) : Decidable (c.Alike ctx ahead ahead' previous previous') :=
  decidable_of_iff
    (∀ q ∈ Question.all, c.asks ctx q = true → q.answer ahead previous = q.answer ahead' previous')
    ⟨fun h q => h q q.mem_all, fun h q _ => h q⟩

section Congruence

variable {ctx : Context} {ahead ahead' : List Content} {previous previous' : Option Trace}

theorem visibleText?_of_isPreformatted (h : ctx.isPreformatted = true) (data : List Char) :
    visibleText? ctx previous ahead data
      = some (if ahead.isEmpty && data.getLast? == some '\n' then data.dropLast else data) := by
  simp only [visibleText?, Context.passesOverBlank, h, Bool.not_true, Bool.false_and,
    Bool.false_eq_true, if_false, if_true]

/-- Blank text shows or not by the answer to one question. -/
theorem visibleText?_of_isBlank (h : ctx.isPreformatted = false) {data : List Char}
    (hblank : data.all Text.isMarkupBlank = true) :
    visibleText? ctx previous ahead data
      = if Question.showsBlank.answer ahead previous && !ctx.passesOverBlank
        then some (Text.shown data) else none := by
  simp only [visibleText?, hblank, h, Bool.and_true, Bool.not_false, Bool.true_and,
    Bool.false_eq_true, if_false]
  rw [Question.answer]
  by_cases hpasses : ctx.passesOverBlank = true
  · simp [hpasses]
  · by_cases htrims : Content.trimsBefore ahead = true
    · simp [hpasses, htrims]
    · cases previous with
      | none => simp [hpasses, htrims, showsBlankAfter]
      | some trace => by_cases hnext : trace.trimsNext = true <;>
          simp [hpasses, htrims, showsBlankAfter, hnext]

/-- Other text is trimmed or not by the answer to one question. -/
theorem visibleText?_of_not_isBlank (h : ctx.isPreformatted = false) {data : List Char}
    (hblank : data.all Text.isMarkupBlank = false) :
    visibleText? ctx previous ahead data
      = some (if Question.isTrimmed.answer ahead previous
          then Text.trimStart Text.isBlank (Text.shown data) else Text.shown data) := by
  simp only [visibleText?, hblank, h, Bool.and_false, Bool.false_eq_true, if_false]
  exact (apply_ite some (Question.isTrimmed.answer ahead previous = true) _ _).symm

/-- A run of text shows the same where its questions have the same answers. -/
theorem visibleText?_congr {data : List Char}
    (h : ∀ q, textAsks ctx data q = true → q.answer ahead previous = q.answer ahead' previous') :
    visibleText? ctx previous ahead data = visibleText? ctx previous' ahead' data := by
  cases hpreformatted : ctx.isPreformatted with
  | true =>
      rw [visibleText?_of_isPreformatted hpreformatted, visibleText?_of_isPreformatted hpreformatted]
      by_cases hbreak : data.getLast? = some '\n'
      · have hlast : ahead.isEmpty = ahead'.isEmpty :=
          h .isLast (by simp [textAsks, hpreformatted, hbreak])
        rw [hlast]
      · simp [hbreak]
  | false =>
      cases hblank : data.all Text.isMarkupBlank with
      | true =>
          rw [visibleText?_of_isBlank hpreformatted hblank, visibleText?_of_isBlank hpreformatted hblank]
          by_cases hpasses : ctx.passesOverBlank = true
          · simp [hpasses]
          · rw [h .showsBlank (by simp [textAsks, hpreformatted, hblank, hpasses])]
      | false =>
          rw [visibleText?_of_not_isBlank hpreformatted hblank,
            visibleText?_of_not_isBlank hpreformatted hblank]
          by_cases htrim : Text.trimStart Text.isBlank (Text.shown data) = Text.shown data
          · rw [htrim, ite_self, ite_self]
          · rw [h .isTrimmed (by simp [textAsks, hpreformatted, hblank, htrim])]

theorem isAboutBefore_of_askBehind {cs : List Content} {q : Question}
    (h : Content.askBehind ctx cs q = true) : q.isAboutBefore = true := by
  induction cs with
  | nil => exact nomatch h
  | cons c cs ih =>
      rw [Content.askBehind, Bool.or_eq_true, Bool.and_eq_true] at h
      rcases h with h | h
      · exact h.1
      · exact ih h

/-- Behind different pieces, with the same content ahead, a piece has its questions
    answered alike if those about the piece before are. -/
theorem alike_of_askBehind {c : Content} {cs : List Content}
    (h : ∀ q, Content.askBehind ctx (c :: cs) q = true →
      q.answer [] previous = q.answer [] previous') :
    c.Alike ctx cs cs previous previous' := by
  intro q hq
  by_cases habout : q.isAboutBefore = true
  · rw [q.answer_of_isAboutBefore habout cs [], q.answer_of_isAboutBefore habout cs []]
    exact h q (by rw [Content.askBehind, habout, hq]; rfl)
  · cases q with
    | showsBlank =>
        have hbefore : showsBlankAfter previous = showsBlankAfter previous' :=
          h .showsBefore (by rw [Content.askBehind, hq, Question.isAboutBefore]; simp)
        rw [Question.answer, Question.answer, hbefore]
    | trims | breaks | isBeforeParagraph | isLast => rfl
    | isTrimmed | showsBefore | isAfterBreak => exact absurd rfl habout

/-- The gap asks one question of the piece before. -/
theorem gapBefore_congr (h : showsBlankAfter previous = showsBlankAfter previous')
    (position : Cursor) (label : String) :
    gapBefore ctx previous position label = gapBefore ctx previous' position label := by
  rw [gapBefore, gapBefore, h]

end Congruence

/-- What a details element hides leaves no trace. -/
theorem hideContent_withoutTrace (id : String) (content : List Content) (next : Int)
    (body : Rendered) (trace : Option Trace) :
    hideContent id content next { body with trace := trace }
      = { hideContent id content next body with
          trace := if content.isEmpty then none else trace } := by
  rw [hideContent, hideContent]
  split <;> rfl

mutual

/-- A piece is rendered alike where its questions have the same answers. -/
theorem renderOne_congr : (c : Content) → {ctx : Context} → {ahead ahead' : List Content} →
    {previous previous' : Option Trace} → (position : Cursor) → (next : Int) →
    c.Alike ctx ahead ahead' previous previous' →
    renderOne c ctx ahead previous position next = renderOne c ctx ahead' previous' position next
  | .text data, ctx, ahead, ahead', previous, previous', position, next, h => by
      have hasks : ∀ q, textAsks ctx data q = true →
          q.answer ahead previous = q.answer ahead' previous' := by
        intro q hq
        exact h q (by rw [Content.asks]; exact hq)
      rw [renderOne, renderOne, visibleText?_congr hasks]
  | .lineBreak, ctx, ahead, ahead', previous, previous', position, next, h => by
      have hbreaks : Content.breaksBefore ahead = Content.breaksBefore ahead' :=
        h .breaks (by rw [Content.asks]; rfl)
      have hafter : (previous.map Trace.impliesBreak).getD false
          = (previous'.map Trace.impliesBreak).getD false :=
        h .isAfterBreak (by rw [Content.asks]; rfl)
      rw [renderOne, renderOne, renderLineBreak, renderLineBreak, hbreaks, hafter]
  | .paragraph isDivision children, ctx, ahead, ahead', previous, previous', position, next, h => by
      have hbefore : showsBlankAfter previous = showsBlankAfter previous' :=
        h .showsBefore (by rw [Content.asks]; rfl)
      have htrims : Content.trimsBefore ahead = Content.trimsBefore ahead' :=
        h .trims (by rw [Content.asks]; rfl)
      have hbreaks : Content.breaksBefore ahead = Content.breaksBefore ahead' :=
        h .breaks (by rw [Content.asks]; rfl)
      have hparagraph : (!isDivision && Content.paragraphAhead ahead)
          = (!isDivision && Content.paragraphAhead ahead') := by
        cases isDivision with
        | true => rfl
        | false => exact h .isBeforeParagraph (by rw [Content.asks]; rfl)
      rw [renderOne, renderOne, gapBefore_congr hbefore, closeParagraph, closeParagraph, htrims,
        hbreaks, hparagraph]
  | .preformatted children, ctx, ahead, ahead', previous, previous', position, next, h => by
      have hbefore : showsBlankAfter previous = showsBlankAfter previous' :=
        h .showsBefore (by rw [Content.asks]; rfl)
      have htrims : Content.trimsBefore ahead = Content.trimsBefore ahead' :=
        h .trims (by rw [Content.asks]; rfl)
      have hbreaks : Content.breaksBefore ahead = Content.breaksBefore ahead' :=
        h .breaks (by rw [Content.asks]; rfl)
      rw [renderOne, renderOne, gapBefore_congr hbefore, closePreformatted, closePreformatted,
        htrims, Context.separation, Context.separation, hbreaks]
  | .rule, ctx, ahead, ahead', previous, previous', position, next, h => by
      have hbreaks : Content.breaksBefore ahead = Content.breaksBefore ahead' :=
        h .breaks (by rw [Content.asks]; rfl)
      rw [renderOne, renderOne, renderRule, renderRule, hbreaks]
  | .details before summary after, ctx, ahead, ahead', previous, previous', position, next, h => by
      -- the part in front of the summary looks back past the element, but not ahead of it
      have hbehind : ∀ q, Content.askBehind ctx before q = true →
          q.answer [] previous = q.answer [] previous' := by
        intro q hq
        have habout := isAboutBefore_of_askBehind hq
        rw [q.answer_of_isAboutBefore habout [] ahead, q.answer_of_isAboutBefore habout [] ahead']
        exact h q (by rw [Content.asks]; exact hq)
      obtain ⟨trace, hbody⟩ := renderAll_congr before position next hbehind
      rw [renderOne, renderOne, hbody, hideContent_withoutTrace]
      rfl
  | .emphasis _ _, ctx, ahead, ahead', previous, previous', position, next, h => by
      rw [renderOne, renderOne]
  | .code _, ctx, ahead, ahead', previous, previous', position, next, h => by
      rw [renderOne, renderOne]
  | .span _ _, ctx, ahead, ahead', previous, previous', position, next, h => by
      rw [renderOne, renderOne]
  | .anchor _ _, ctx, ahead, ahead', previous, previous', position, next, h => by
      rw [renderOne, renderOne]
  | .image _, ctx, ahead, ahead', previous, previous', position, next, h => by
      rw [renderOne, renderOne]
  | .foreignImage _, ctx, ahead, ahead', previous, previous', position, next, h => by
      rw [renderOne, renderOne]
  | .heading _ _, ctx, ahead, ahead', previous, previous', position, next, h => by
      rw [renderOne, renderOne]
  | .quote _, ctx, ahead, ahead', previous, previous', position, next, h => by
      rw [renderOne, renderOne]
  | .unorderedList _, ctx, ahead, ahead', previous, previous', position, next, h => by
      rw [renderOne, renderOne]
  | .orderedList _ _, ctx, ahead, ahead', previous, previous', position, next, h => by
      rw [renderOne, renderOne]
  | .listItem _ _, ctx, ahead, ahead', previous, previous', position, next, h => by
      rw [renderOne, renderOne]
  | .unsupported _ _, ctx, ahead, ahead', previous, previous', position, next, h => by
      rw [renderOne, renderOne]

/-- Pieces are rendered alike, but for the trace that is left, where their questions
    about the piece before have the same answers. -/
theorem renderAll_congr : (cs : List Content) → {ctx : Context} →
    {previous previous' : Option Trace} → (position : Cursor) → (next : Int) →
    (∀ q, Content.askBehind ctx cs q = true → q.answer [] previous = q.answer [] previous') →
    ∃ trace, renderAll cs ctx previous position next
      = { renderAll cs ctx previous' position next with trace := trace }
  | [], ctx, previous, previous', position, next, h => by
      rw [renderAll, renderAll]
      exact ⟨previous, rfl⟩
  | c :: cs, ctx, previous, previous', position, next, h => by
      rw [renderAll, renderAll, renderOne_congr c position next (alike_of_askBehind h)]
      generalize renderOne c ctx cs previous' position next = first
      cases htrace : first.trace with
      | some trace => exact ⟨_, rfl⟩
      | none =>
          -- nothing was rendered that matters, so the rest has the same piece before it
          obtain ⟨trace, hrest⟩ := renderAll_congr cs
            (position.advance first.fragment.text) first.next fun q hq =>
              h q (by rw [Content.askBehind, hq, Bool.or_true])
          refine ⟨trace, ?_⟩
          simp only [Option.none_or]
          rw [hrest]

end

/-! ## Pieces in front of others -/

/-- The rendering with a fragment before it. -/
def Rendered.precededBy (f : Fragment) (r : Rendered) : Rendered :=
  { r with fragment := f ++ r.fragment }

theorem Rendered.precededBy_precededBy (f g : Fragment) (r : Rendered) :
    (r.precededBy g).precededBy f = r.precededBy (f ++ g) := by
  rw [precededBy, precededBy, precededBy, Fragment.append_assoc]

/-- The rendering of pieces of content that have `suffix` ahead. -/
def renderBefore (suffix : List Content) : List Content → Context → Option Trace → Cursor → Int →
    Rendered
  | [], _, previous, _, next => ⟨.empty, previous, next⟩
  | c :: cs, ctx, previous, position, next =>
      let first := renderOne c ctx (cs ++ suffix) previous position next
      (renderBefore suffix cs ctx (first.trace.or previous)
        (position.advance first.fragment.text) first.next).precededBy first.fragment

theorem renderBefore_nil (cs : List Content) (ctx : Context) (previous : Option Trace)
    (position : Cursor) (next : Int) :
    renderBefore [] cs ctx previous position next = renderAll cs ctx previous position next := by
  induction cs generalizing previous position next with
  | nil => rw [renderBefore, renderAll]
  | cons c cs ih =>
      rw [renderBefore, renderAll, List.append_nil]
      simp only [ih]
      rfl

/-- Pieces of content are rendered in front of what follows them, and that where they
    end. -/
theorem renderAll_append {ctx : Context} (hstyle : ctx.style.KeepsBounds)
    (cs suffix : List Content) (previous : Option Trace) (position : Cursor) (next : Int)
    {before : Rendered} (hbefore : renderBefore suffix cs ctx previous position next = before) :
    renderAll (cs ++ suffix) ctx previous position next
      = (renderAll suffix ctx before.trace (position.advance before.fragment.text)
          before.next).precededBy before.fragment := by
  subst hbefore
  induction cs generalizing previous position next with
  | nil =>
      rw [renderBefore]
      simp only [List.nil_append, Rendered.precededBy, Fragment.empty_append]
      rw [show Fragment.empty.text = .empty from rfl, Cursor.advance_empty]
  | cons c cs ih =>
      rw [List.cons_append, renderAll, renderBefore]
      simp only [ih]
      -- what comes first is well-formed, so the cursor may go on in two steps
      have hfirst := renderOne_wellFormed c ctx (cs ++ suffix) previous position next hstyle
      generalize renderOne c ctx (cs ++ suffix) previous position next = first at hfirst ⊢
      generalize renderBefore suffix cs ctx (first.trace.or previous)
        (position.advance first.fragment.text) first.next = rest
      show ((renderAll suffix ctx rest.trace ((position.advance first.fragment.text).advance
          rest.fragment.text) rest.next).precededBy rest.fragment).precededBy first.fragment
        = (renderAll suffix ctx rest.trace (position.advance
            (first.fragment.text ++ rest.fragment.text)) rest.next).precededBy
              (first.fragment ++ rest.fragment)
      rw [Rendered.precededBy_precededBy, position.advance_append hfirst]

/-- Pieces of content that are rendered from `position` on have their questions answered
    in front of `suffix` and behind `previous` as in front of `suffix'` and behind
    `previous'`. -/
def AllAlike (ctx : Context) (suffix suffix' : List Content) : List Content → Option Trace →
    Option Trace → Cursor → Int → Prop
  | [], _, _, _, _ => True
  | c :: cs, previous, previous', position, next =>
      c.Alike ctx (cs ++ suffix) (cs ++ suffix') previous previous'
      ∧ let first := renderOne c ctx (cs ++ suffix) previous position next
        AllAlike ctx suffix suffix' cs (first.trace.or previous) (first.trace.or previous')
          (position.advance first.fragment.text) first.next

/-- Whether pieces are rendered alike is found by rendering them. -/
def decideAllAlike (ctx : Context) (suffix suffix' : List Content) : (cs : List Content) →
    (previous previous' : Option Trace) → (position : Cursor) → (next : Int) →
    Decidable (AllAlike ctx suffix suffix' cs previous previous' position next)
  | [], _, _, _, _ => .isTrue trivial
  | c :: cs, previous, previous', position, next =>
      let first := renderOne c ctx (cs ++ suffix) previous position next
      if hc : c.Alike ctx (cs ++ suffix) (cs ++ suffix') previous previous' then
        match decideAllAlike ctx suffix suffix' cs (first.trace.or previous)
          (first.trace.or previous') (position.advance first.fragment.text) first.next with
        | .isTrue hcs => .isTrue ⟨hc, hcs⟩
        | .isFalse hcs => .isFalse fun h => hcs h.2
      else .isFalse fun h => hc h.1

instance (ctx : Context) (suffix suffix' cs : List Content) (previous previous' : Option Trace)
    (position : Cursor) (next : Int) :
    Decidable (AllAlike ctx suffix suffix' cs previous previous' position next) :=
  decideAllAlike ctx suffix suffix' cs previous previous' position next

/-- Such pieces are rendered alike; where they leave no trace, it is the one before
    them that stays. -/
theorem renderBefore_congr {ctx : Context} {suffix suffix' cs : List Content}
    {previous previous' : Option Trace} {position : Cursor} {next : Int}
    (h : AllAlike ctx suffix suffix' cs previous previous' position next) :
    ∃ trace : Option Trace,
      (renderBefore suffix cs ctx previous position next).trace = trace.or previous
      ∧ renderBefore suffix' cs ctx previous' position next
        = { renderBefore suffix cs ctx previous position next with
            trace := trace.or previous' } := by
  induction cs generalizing previous previous' position next with
  | nil =>
      rw [renderBefore, renderBefore]
      exact ⟨none, rfl, rfl⟩
  | cons c cs ih =>
      obtain ⟨hc, hcs⟩ := h
      obtain ⟨trace, htrace, hrest⟩ := ih hcs
      rw [renderBefore, renderBefore, ← renderOne_congr c position next hc]
      generalize renderOne c ctx (cs ++ suffix) previous position next = first at htrace hrest ⊢
      refine ⟨trace.or first.trace, ?_, ?_⟩
      · rw [Option.or_assoc]
        exact htrace
      · simp only [hrest, Option.or_assoc]
        rfl

/-- **Unwrapping**: an element without a meaning can be replaced by its content, whatever
    stands around it, as long as no piece gets another answer that way: neither one in
    front of the element, which has the content ahead instead of the element, nor one
    inside it, which has what stands around the element around itself instead of
    nothing. -/
theorem renderAll_unsupported {ctx : Context} (hstyle : ctx.style.KeepsBounds) (name : String)
    (pre cs post : List Content) (previous : Option Trace) (position : Cursor) (next : Int)
    (hpre : AllAlike ctx (.unsupported name cs :: post) (cs ++ post) pre previous previous
      position next)
    {before : Rendered}
    (hbefore : renderBefore (cs ++ post) pre ctx previous position next = before)
    (hcs : AllAlike ctx [] post cs none before.trace (position.advance before.fragment.text)
      before.next) :
    renderAll (pre ++ .unsupported name cs :: post) ctx previous position next
      = renderAll (pre ++ (cs ++ post)) ctx previous position next := by
  -- what stands in front gets the same answers from the element and from what is in it
  have hfront : renderBefore (.unsupported name cs :: post) pre ctx previous position next
      = before := by
    obtain ⟨trace, htrace, hrest⟩ := renderBefore_congr hpre
    rw [← hbefore, hrest, ← htrace]
  obtain ⟨trace, htrace, hinside⟩ := renderBefore_congr hcs
  rw [renderAll_append hstyle _ _ _ _ _ hfront, renderAll_append hstyle _ _ _ _ _ hbefore,
    renderAll_append hstyle _ _ _ _ _ hinside, renderAll, renderOne, ← renderBefore_nil, htrace,
    Option.or_none]
  rfl

/-- Between a line break and bold text, an underlined word with a line break after it can
    be unwrapped. -/
theorem renderAll_unsupported_word :
    renderAll ([.text "a".toList, .lineBreak, .text " ".toList]
        ++ .unsupported "u" [.text "b".toList, .lineBreak]
          :: [.emphasis .bold [.text "c".toList]])
        (({} : Settings).context) none (.startAt 0) 1
      = renderAll ([.text "a".toList, .lineBreak, .text " ".toList]
        ++ ([.text "b".toList, .lineBreak] ++ [.emphasis .bold [.text "c".toList]]))
        (({} : Settings).context) none (.startAt 0) 1 := by
  exact renderAll_unsupported RenderStyle.standard_keepsLinkContent.keepsBounds "u" _ _ _ none
    (.startAt 0) 1 (by decide) rfl (by decide)

/-- A space inside an underlined element is not shown, while it is shown without the
    element. -/
example :
    (Body.ofContent {} (Content.ofNodes [.text "a".toList,
        .element "u" [] [.text " ".toList], .text "b".toList])).text.text = "ab".toList
      ∧ (Body.ofContent {} (Content.ofNodes [.text "a".toList, .text " ".toList,
        .text "b".toList])).text.text = "a b".toList := by
  decide

/-- On its own, an element without a meaning is rendered as its content. -/
theorem renderAll_unsupported_alone (name : String) (cs : List Content) (ctx : Context)
    (position : Cursor) (next : Int) :
    renderAll [.unsupported name cs] ctx none position next
      = renderAll cs ctx none position next := by
  rw [renderAll, renderOne, renderAll]
  generalize renderAll cs ctx none position next = body
  show (⟨body.fragment ++ .empty, body.trace.or none, body.next⟩ : Rendered) = body
  rw [Fragment.append_empty, Option.or_none]

end MessageBody
