import MessageBody.Proofs.RunningText
import MessageBody.Proofs.Wording

/-! # Running text in list items

    Blank text that stands directly in a list does not show.  The items of the list are
    rendered as part of it, so no blank text shows in them either, however deep it is
    inside: an item shows what its running text shows outside of any list without the
    blank text in it.  Outside of a list, blank text between two pieces shows as one
    space, and just these spaces are missing in the item. -/

namespace MessageBody

namespace Text

/-- The rest of a run of blanks shows nothing. -/
theorem shownAfter_of_blank {s : List Char} (h : s.all isMarkupBlank = true) :
    shownAfter true s = [] := by
  induction s with
  | nil => rfl
  | cons c cs ih =>
      rw [List.all_cons, Bool.and_eq_true] at h
      rw [shownAfter_blank (mem_textBlanks_of_isMarkupBlank h.1)]
      exact ih h.2

/-- Blank text shows as one space. -/
theorem shown_of_blank {s : List Char} (hblank : s.all isMarkupBlank = true) (hs : s ≠ []) :
    shown s = [' '] := by
  obtain ⟨c, cs, rfl⟩ := List.exists_cons_of_ne_nil hs
  rw [List.all_cons, Bool.and_eq_true] at hblank
  show shownAfter false (c :: cs) = [' ']
  rw [shownAfter_blank (mem_textBlanks_of_isMarkupBlank hblank.1), shownAfter_of_blank hblank.2]
  rfl

end Text

/-- A space stands for itself. -/
theorem Context.words_blank (ctx : Context) {s : List Char} (hs : s = [] ∨ s = [' ']) :
    ctx.words s = s := by
  have hlabels : withLabels ctx.labelled s = s := by
    rw [withLabels]
    split
    · rcases hs with rfl | rfl <;> rfl
    · rfl
  rw [words, hlabels, richText, MessageBody.richText]
  split
  · rcases hs with rfl | rfl <;> rfl
  · rfl

/-- The context outside of any list. -/
def Context.outside (ctx : Context) : Context :=
  { ctx with scope := .none }

/-- Outside of lists no blank text is passed over. -/
theorem Context.passesOverBlank_outside (ctx : Context) : ctx.outside.passesOverBlank = false := by
  rw [passesOverBlank]
  exact Bool.and_false _

namespace Markup.Node

/-! ## Blank text in running text -/

mutual

/-- A node without the blank text inside it. -/
def bare : Node → Node
  | .text data => .text data
  | .element name attributes children => .element name attributes (withoutBlanks children)

/-- Nodes without the blank text among them and inside them. -/
def withoutBlanks : List Node → List Node
  | [] => []
  | node :: nodes =>
      if node.isBlankText then withoutBlanks nodes else node.bare :: withoutBlanks nodes

end

mutual

/-- How many runs of blank text inside a node stand between two pieces. -/
def blanksInside : Node → Nat
  | .text _ => 0
  | .element _ _ children => innerBlanks false children

/-- How many runs of blank text among nodes and inside them stand between two pieces that
    are not blank; `isAfter` tells whether such a piece stands before them. -/
def innerBlanks (isAfter : Bool) : List Node → Nat
  | [] => 0
  | node :: nodes =>
      if node.isBlankText then
        (if isAfter && (firstVisible? nodes).isSome && !node.data.isEmpty then 1 else 0)
          + innerBlanks isAfter nodes
      else node.blanksInside + innerBlanks true nodes

end

mutual

/-- A node of running text is one without its attributes too. -/
theorem isRunning_bare : (node : Node) → node.isRunning = true → node.bare.isRunning = true
  | .text _, h => h
  | .element name attributes children, h => by
      rw [isRunning, Bool.and_eq_true] at h
      rw [bare, isRunning, h.1, areRunning_withoutBlanks children h.2]
      rfl

/-- Running text without blank text is running text. -/
theorem areRunning_withoutBlanks : (nodes : List Node) → areRunning nodes = true →
    areRunning (withoutBlanks nodes) = true
  | [], _ => rfl
  | node :: nodes, h => by
      rw [areRunning, Bool.and_eq_true] at h
      rw [withoutBlanks]
      split
      · exact areRunning_withoutBlanks nodes h.2
      · rw [areRunning, isRunning_bare node h.1, areRunning_withoutBlanks nodes h.2]
        rfl

end

/-- White space shows in front of a node of running text, and only a run of text is
    blank. -/
theorem isBlankText_ofNode {node : Node} (h : node.isRunning = true) :
    (Content.ofNode node).isBlankText = node.isBlankText
      ∧ (Content.ofNode node).keepsSpaceBefore = true := by
  cases node with
  | text data => exact ⟨rfl, rfl⟩
  | element name attributes children =>
      rw [isRunning, Bool.and_eq_true] at h
      rw [Content.ofNode]
      rcases ofElement_of_isFormatting h.1 (Content.ofNodes children) with
        ⟨e, he⟩ | he | ⟨look, he⟩ | ⟨address, -, he⟩ <;> rw [he] <;> exact ⟨rfl, rfl⟩

/-- White space in front of running text shows unless nothing but blank text is ahead. -/
theorem trimsBefore_ofNodes {nodes : List Node} (h : areRunning nodes = true) :
    Content.trimsBefore (Content.ofNodes nodes) = !(firstVisible? nodes).isSome := by
  induction nodes with
  | nil => rfl
  | cons node nodes ih =>
      rw [areRunning, Bool.and_eq_true] at h
      obtain ⟨hblank, hkeeps⟩ := isBlankText_ofNode h.1
      rw [Content.ofNodes, Content.trimsBefore, Content.firstVisible?, firstVisible?,
        List.find?_cons, List.find?_cons, hblank]
      cases node.isBlankText with
      | true => exact ih h.2
      | false =>
          show (!(Content.ofNode node).keepsSpaceBefore) = false
          rw [hkeeps]
          rfl

/-! ## What is shown in a list and outside of it -/

section Lines

variable {ctx : Context}

/-- Outside preformatted text, a run that is not blank shows as it is. -/
theorem line?_text (hpre : ctx.isPreformatted = false) {data : List Char}
    (hdata : data.all Text.isMarkupBlank = false) (isAfter : Bool) (ahead : List Node) :
    (Node.text data).line? ctx isAfter ahead = some (ctx.words (Text.shown data)) := by
  have htrim : Question.isTrimmed.answer (Content.ofNodes ahead)
      (if isAfter then some .plain else none) = false := by
    cases isAfter <;> rfl
  rw [line?, visibleText?_of_not_isBlank hpre hdata, htrim]
  rfl

/-- Blank text shows outside of a list where it stands between two pieces. -/
theorem line?_blank (hpre : ctx.isPreformatted = false) {data : List Char}
    (hdata : data.all Text.isMarkupBlank = true) (isAfter : Bool) {ahead : List Node}
    (hahead : areRunning ahead = true) :
    (Node.text data).line? ctx isAfter ahead
      = if isAfter && (firstVisible? ahead).isSome && !ctx.passesOverBlank
        then some (if data.isEmpty then [] else [' ']) else none := by
  -- running text trims a blank in front of it just if nothing in it can be seen
  have hshows : Question.showsBlank.answer (Content.ofNodes ahead)
      (if isAfter then some .plain else none) = (isAfter && (firstVisible? ahead).isSome) := by
    rw [Question.answer, trimsBefore_ofNodes hahead, Bool.not_not, Bool.and_comm]
    cases isAfter <;> rfl
  have hwords : ctx.words (Text.shown data) = if data.isEmpty then [] else [' '] := by
    split
    · rename_i hempty
      rw [List.isEmpty_iff.mp hempty, Text.shown_nil, ctx.words_blank (.inl rfl)]
    · rename_i hempty
      rw [Text.shown_of_blank hdata (fun h => hempty (List.isEmpty_iff.mpr h)),
        ctx.words_blank (.inr rfl)]
  rw [line?, visibleText?_of_isBlank hpre hdata, hshows]
  split
  · exact congrArg some hwords
  · rfl

/-- A blank node is a run of blank text. -/
theorem exists_of_isBlankText {node : Node} (h : node.isBlankText = true) :
    ∃ data, node = .text data ∧ data.all Text.isMarkupBlank = true := by
  cases node with
  | text data => exact ⟨data, rfl, h⟩
  | element name attributes children => exact nomatch h

mutual

/-- In a list, a node that is not blank shows what it shows outside without the blank text
    inside it. -/
theorem line?_inList (hpre : ctx.isPreformatted = false) (hlist : ctx.passesOverBlank = true) :
    (node : Node) → node.isBlankText = false → node.isRunning = true →
    (isAfter isAfter' : Bool) → (ahead ahead' : List Node) →
    node.line? ctx isAfter ahead = node.bare.line? ctx.outside isAfter' ahead'
  | .text data, hblank, _, isAfter, isAfter', ahead, ahead' => by
      have hpre' : ctx.outside.isPreformatted = false := hpre
      rw [bare, line?_text hpre hblank, line?_text hpre' hblank]
      rfl
  | .element name attributes children, _, h, isAfter, isAfter', ahead, ahead' => by
      rw [isRunning, Bool.and_eq_true] at h
      rw [bare, line?, line?]
      exact congrArg some (lineText_inList hpre hlist children h.2 false false)

/-- In a list, running text shows what it shows outside without blank text. -/
theorem lineText_inList (hpre : ctx.isPreformatted = false) (hlist : ctx.passesOverBlank = true) :
    (nodes : List Node) → areRunning nodes = true → (isAfter isAfter' : Bool) →
    lineText ctx isAfter nodes = lineText ctx.outside isAfter' (withoutBlanks nodes)
  | [], _, isAfter, isAfter' => rfl
  | node :: nodes, h, isAfter, isAfter' => by
      rw [areRunning, Bool.and_eq_true] at h
      rw [withoutBlanks, lineText]
      split
      · rename_i hblank
        -- in a list the blank is passed over, so leaving it out changes nothing
        obtain ⟨data, rfl, hdata⟩ := exists_of_isBlankText hblank
        rw [line?_blank hpre hdata isAfter h.2, hlist, Bool.not_true, Bool.and_false]
        exact lineText_inList hpre hlist nodes h.2 isAfter isAfter'
      · rename_i hblank
        have hfirst := line?_inList hpre hlist node (Bool.eq_false_iff.mpr hblank) h.1 isAfter
          isAfter' nodes (withoutBlanks nodes)
        rw [lineText, hfirst]
        exact congrArg _ (lineText_inList hpre hlist nodes h.2 _ _)

end

/-- Some text, and text that holds all of it and `extra` characters more. -/
def Gains (extra : Nat) (s s' : List Char) : Prop :=
  s.Sublist s' ∧ s'.length = s.length + extra

/-- What two parts gain adds up. -/
theorem Gains.append {m n : Nat} {s s' t t' : List Char} (hs : Gains m s s') (ht : Gains n t t') :
    Gains (m + n) (s ++ t) (s' ++ t') := by
  refine ⟨hs.1.append ht.1, ?_⟩
  rw [List.length_append, List.length_append, hs.2, ht.2]
  omega

/-- Texts are equal if nothing was gained. -/
theorem Gains.eq_iff {extra : Nat} {s s' : List Char} (h : Gains extra s s') :
    s = s' ↔ extra = 0 := by
  constructor
  · rintro rfl
    have := h.2
    omega
  · rintro rfl
    exact h.1.eq_of_length h.2.symm

mutual

/-- Outside of a list, a node that is not blank shows one space more for each inner blank
    text. -/
theorem line?_gains (hpre : ctx.isPreformatted = false) (hlist : ctx.passesOverBlank = true) :
    (node : Node) → node.isBlankText = false → node.isRunning = true → (isAfter : Bool) →
    (ahead : List Node) → ∃ s s', node.line? ctx isAfter ahead = some s
      ∧ node.line? ctx.outside isAfter ahead = some s' ∧ Gains node.blanksInside s s'
  | .text data, hblank, _, isAfter, ahead => by
      have hpre' : ctx.outside.isPreformatted = false := hpre
      exact ⟨_, _, line?_text hpre hblank isAfter ahead, line?_text hpre' hblank isAfter ahead,
        List.Sublist.refl _, rfl⟩
  | .element name attributes children, _, h, isAfter, ahead => by
      rw [isRunning, Bool.and_eq_true] at h
      rw [line?, line?, blanksInside]
      exact ⟨_, _, rfl, rfl, lineText_gains hpre hlist children h.2 false⟩

/-- Outside of a list, running text shows one space more for each inner blank text. -/
theorem lineText_gains (hpre : ctx.isPreformatted = false) (hlist : ctx.passesOverBlank = true) :
    (nodes : List Node) → areRunning nodes = true → (isAfter : Bool) →
    Gains (innerBlanks isAfter nodes) (lineText ctx isAfter nodes)
      (lineText ctx.outside isAfter nodes)
  | [], _, isAfter => ⟨List.Sublist.refl _, rfl⟩
  | node :: nodes, h, isAfter => by
      rw [areRunning, Bool.and_eq_true] at h
      rw [lineText, lineText, innerBlanks]
      by_cases hblank : node.isBlankText = true
      · obtain ⟨data, rfl, hdata⟩ := exists_of_isBlankText hblank
        have hrest := lineText_gains hpre hlist nodes h.2 isAfter
        have hinside := line?_blank hpre hdata isAfter h.2
        have hpre' : ctx.outside.isPreformatted = false := hpre
        have houtside := line?_blank hpre' hdata isAfter h.2
        rw [hlist, Bool.not_true, Bool.and_false] at hinside
        rw [ctx.passesOverBlank_outside, Bool.not_false, Bool.and_true] at houtside
        rw [hinside, houtside, if_pos hblank, Node.data]
        cases isAfter with
        | false => simpa using hrest
        | true =>
            cases (firstVisible? nodes).isSome with
            | false => simpa using hrest
            | true =>
                -- here a space is shown outside of a list, and the list drops it
                refine Gains.append (m := if !data.isEmpty then 1 else 0) ?_ hrest
                cases data with
                | nil => exact ⟨List.Sublist.refl _, rfl⟩
                | cons c cs => exact ⟨List.nil_sublist _, rfl⟩
      · obtain ⟨s, s', hs, hs', hfirst⟩ :=
          line?_gains hpre hlist node (Bool.eq_false_iff.mpr hblank) h.1 isAfter nodes
        rw [hs, hs', if_neg hblank]
        exact hfirst.append (lineText_gains hpre hlist nodes h.2 true)

end

end Lines

end Markup.Node

/-! ## List items -/

open Markup Node

/-- A list item in a list shows its label and then what is inside it. -/
theorem text_renderListItem {ctx : Context} (hscope : ctx.scope ≠ .none) (value : Option Int)
    (children ahead : List Content) (previous : Option Trace) (position : Cursor) (next : Int) :
    ∃ start number, (renderOne (.listItem value children) ctx ahead previous position
        next).fragment.text.text
      = (itemWording ctx.scope (Content.hasOwnText children) value next).text
        ++ (renderAll children { ctx with depth := ctx.depth + 1 } none start
          number).fragment.text.text := by
  rw [renderOne]
  cases hctx : ctx.scope with
  | none => exact absurd hctx hscope
  | unordered bullet =>
      simp only [itemLabel?, hctx, itemWording]
      cases Content.hasOwnText children with
      | false => exact ⟨position, next, rfl⟩
      | true => exact ⟨position.advance (.plain bullet.toList), next, rfl⟩
  | ordered =>
      simp only [itemLabel?, hctx, itemWording]
      exact ⟨_, value.getD next + 1, rfl⟩

/-- **Running text in list items**: an item shows, behind its label, what its running text
    shows outside of any list without the blank text in it.  That is what it shows there
    with the blank text just when no blank text stands between two pieces. -/
theorem text_listItem {ctx : Context} (hscope : ctx.scope ≠ .none)
    (hpre : ctx.isPreformatted = false) {nodes : List Node} (hnodes : areRunning nodes = true)
    (attributes : List (String × String)) (ahead : List Content) (previous : Option Trace)
    (position position' : Cursor) (next next' : Int) :
    let item := (renderOne (Content.ofNode (.element "li" attributes nodes)) ctx ahead previous
      position next).fragment.text.text
    let label := (itemWording ctx.scope (Content.hasOwnText (Content.ofNodes nodes))
      (Content.numberAttribute? "value" attributes) next).text
    let outside (nodes : List Node) := (renderAll (Content.ofNodes nodes) ctx.outside none
      position' next').fragment.text.text
    item = label ++ outside (withoutBlanks nodes)
      ∧ (item = label ++ outside nodes ↔ innerBlanks false nodes = 0) := by
  intro item label outside
  have hlist : ctx.passesOverBlank = true := by
    rw [Context.passesOverBlank, hpre]
    simpa using hscope
  have houtside : ∀ {nodes : List Node}, areRunning nodes = true →
      outside nodes = lineText ctx.outside false nodes := fun h =>
    text_renderAll_ofNodes h (.none : ctx.outside.LeavesBlanks none) ctx.depth position' next'
  have hitem : item = label ++ lineText ctx false nodes := by
    obtain ⟨start, number, h⟩ := text_renderListItem hscope
      (Content.numberAttribute? "value" attributes) (Content.ofNodes nodes) ahead previous
      position next
    rw [text_renderAll_ofNodes hnodes .none] at h
    exact h
  rw [hitem, houtside hnodes, houtside (areRunning_withoutBlanks nodes hnodes),
    List.append_cancel_left_eq, List.append_cancel_left_eq]
  exact ⟨lineText_inList hpre hlist nodes hnodes false false,
    (lineText_gains hpre hlist nodes hnodes false).eq_iff⟩

/-- Code and a link with blank text in front of them, between them and inside the link. -/
def spacedWords : List Node :=
  [.text "\n".toList, .element "code" [] [.text "a".toList], .text " ".toList,
   .element "a" [("href", "https://example.org")]
    [.text " ".toList, .element "b" [] [.text "b".toList], .text " c".toList]]

/-- The context inside an ordered list. -/
def numberedContext : Context :=
  { ({} : Settings).context with scope := .ordered }

/-- In the item the space between the code and the link is lost. -/
theorem text_listItem_spacedWords :
    numberedContext.scope ≠ .none ∧ numberedContext.isPreformatted = false
      ∧ areRunning spacedWords = true
      ∧ (renderOne (Content.ofNode (.element "li" [("value", "7")] spacedWords)) numberedContext []
          none (.startAt 0) 1).fragment.text.text = "7. ab c".toList
      ∧ (renderOne (Content.ofNode (.element "li" [("value", "7")] spacedWords)) numberedContext []
          none (.startAt 0) 1).fragment.text.text
        ≠ "7. ".toList ++ (renderAll (Content.ofNodes spacedWords) numberedContext.outside none
          (.startAt 0) 1).fragment.text.text := by
  obtain ⟨hitem, hsame⟩ := text_listItem (show numberedContext.scope ≠ .none by decide) rfl
    (show areRunning spacedWords = true by decide) [("value", "7")] [] none (.startAt 0)
    (.startAt 0) 1 1
  refine ⟨by decide, rfl, by decide, hitem.trans (by decide), fun heq => ?_⟩
  exact absurd (hsame.mp heq) (by decide)

/-- The space between two emphasized words is not shown in a list item. -/
example :
    (Body.ofContent {} (Content.ofNodes [.element "ul" [] [.element "li" []
        [.element "b" [] [.text "a".toList], .text " ".toList,
         .element "i" [] [.text "b".toList]]]])).text.text = "\u2022 ab".toList
      ∧ (Body.ofContent {} (Content.ofNodes [.element "b" [] [.text "a".toList], .text " ".toList,
          .element "i" [] [.text "b".toList]])).text.text = "a b".toList := by
  decide

end MessageBody
