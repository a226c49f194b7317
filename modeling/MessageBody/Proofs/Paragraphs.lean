import MessageBody.Proofs.Blocks
import MessageBody.Proofs.LabelledBreaks
import MessageBody.Proofs.ListItems

/-! # Paragraphs

    Between two paragraphs stands one empty line, whatever blank text there is in front of
    them, between them and behind them.  A paragraph that another one follows ends with two
    line breaks; since it tells that blank text behind it does not show, the next one
    neither puts a line break in front of itself nor shows the blanks between the two.  The
    last paragraph ends with its content.  Each of them is rendered as it is on its own,
    since no line break is needed where it begins. -/

namespace MessageBody

open AnnotatedText

/-! ## Content at other positions -/

/-- Content shows the same at two positions before both or neither of which a line break is
    needed. -/
theorem text_renderAll_congr {ctx : Context} (hlinks : ctx.style.KeepsLinkContent)
    (hlabelled : ctx.labelled = false) (cs : List Content) (previous : Option Trace)
    {p q : Cursor} (next : Int) (h : p.needsBreak = q.needsBreak) :
    (renderAll cs ctx previous p next).fragment.text.text
      = (renderAll cs ctx previous q next).fragment.text.text := by
  have hunlabelled : ctx.unlabelled = ctx := by
    rw [Context.unlabelled, ← hlabelled]
  have hnever : ∀ {P : Prop}, ctx.labelled = true → P :=
    fun hlabels => Bool.noConfusion (hlabelled.symm.trans hlabels)
  have halike := renderAll_alike cs ctx previous p q next ⟨hlinks, hnever, hnever⟩ hnever h
  rw [hunlabelled, hlabelled] at halike
  exact halike.text.eq

namespace Block

mutual

/-- Outside of lists there is no number to hand on. -/
theorem nextAfter_none (next : Int) : (b : Block) → nextAfter .none next b = next
  | .quote inside => by
      rw [nextAfter]
      exact nextAfterAll_none next inside
  | .unorderedList _ => by rw [nextAfter]
  | .orderedList _ _ => by rw [nextAfter]
  | .item value hasText inside => by
      rw [nextAfter]
      exact nextAfterAll_none next inside

/-- Outside of lists no number is handed on. -/
theorem nextAfterAll_none (next : Int) : (bs : List Block) → nextAfterAll .none next bs = next
  | [] => by rw [nextAfterAll]
  | b :: bs => by rw [nextAfterAll, nextAfter_none next b, nextAfterAll_none next bs]

end

end Block

/-! ## Sequences of paragraphs -/

namespace Markup.Node

/-- A paragraph. -/
def isParagraph (node : Node) : Bool :=
  node.name == "p"

/-- The nodes are paragraphs and blank text. -/
def AreParagraphs (nodes : List Node) : Prop :=
  ∀ node ∈ nodes, node.isBlankText = true ∨ node.isParagraph = true

instance (nodes : List Node) : Decidable (AreParagraphs nodes) :=
  inferInstanceAs (Decidable (∀ node ∈ nodes, _))

/-- What is inside a node shows on its own. -/
def textInside (settings : Settings) (node : Node) : List Char :=
  (Body.ofContent settings (Content.ofNodes node.children)).text.text

/-- A run of text is no paragraph. -/
theorem not_isParagraph_text (data : List Char) : ¬ (text data).isParagraph = true := by
  rw [isParagraph, name]
  decide

/-- A paragraph is an element with the name of one. -/
theorem exists_of_isParagraph {node : Node} (h : node.isParagraph = true) :
    ∃ attributes, node = .element "p" attributes node.children := by
  cases node with
  | text data => exact absurd h (not_isParagraph_text data)
  | element name attributes children =>
      rw [isParagraph, Node.name, beq_iff_eq] at h
      exact ⟨attributes, by rw [h]; rfl⟩

end Markup.Node

/-! ## The walk -/

section Walk

open Markup Node

variable {settings : Settings} {nodes : List Node} {previous : Option Trace} {position : Cursor}

/-- The first visible piece of paragraphs is the first of them. -/
theorem firstVisible?_paragraphs (h : AreParagraphs nodes) :
    Content.firstVisible? (Content.ofNodes nodes)
      = (nodes.filter Node.isParagraph).head?.map fun node =>
          .paragraph false (Content.ofNodes node.children) := by
  induction nodes with
  | nil => rfl
  | cons node nodes ih =>
      obtain ⟨hnode, hnodes⟩ := List.forall_mem_cons.mp h
      rcases hnode with hnode | hnode
      · obtain ⟨data, rfl, hblank⟩ := exists_of_isBlankText hnode
        rw [Content.ofNodes, Content.firstVisible?, List.find?_cons_of_neg,
          List.filter_cons_of_neg (not_isParagraph_text data), ← ih hnodes]
        · rfl
        · rw [Content.ofNode, Content.isBlankText, hblank]
          decide
      · obtain ⟨attributes, hp⟩ := exists_of_isParagraph hnode
        rw [List.filter_cons_of_pos hnode, hp]
        rfl

/-- Blank text is passed over where nothing but blank text is ahead, and behind a piece that
    says so. -/
theorem renderAll_blank {data : List Char} (hblank : data.all Text.isMarkupBlank = true)
    (h : Content.trimsBefore (Content.ofNodes nodes) = true ∨ showsBlankAfter previous = false)
    (position : Cursor) (next : Int) :
    renderAll (Content.ofNodes (.text data :: nodes)) settings.context previous position next
      = renderAll (Content.ofNodes nodes) settings.context previous position next := by
  have hdropped : visibleText? settings.context previous (Content.ofNodes nodes) data = none := by
    have hasked : (Content.trimsBefore (Content.ofNodes nodes) || !showsBlankAfter previous)
        = true := by
      rcases h with h | h
      · rw [h, Bool.true_or]
      · rw [h, Bool.not_false, Bool.or_true]
    simp [visibleText?, hblank, hasked, Settings.context]
  rw [Content.ofNodes, Content.ofNode, renderAll, renderOne, hdropped]
  simp only [Rendered.nothing, Option.none_or, Fragment.empty_append]
  rw [show Fragment.empty.text = AnnotatedText.empty from rfl, Cursor.advance_empty]

/-- Behind the last paragraph nothing shows. -/
theorem text_renderAll_blanks (h : AreParagraphs nodes) (hlast : nodes.filter Node.isParagraph = [])
    (previous : Option Trace) (position : Cursor) (next : Int) :
    (renderAll (Content.ofNodes nodes) settings.context previous position next).fragment.text.text
      = [] := by
  induction nodes with
  | nil => rw [Content.ofNodes, renderAll]; rfl
  | cons node nodes ih =>
      obtain ⟨hnode, hnodes⟩ := List.forall_mem_cons.mp h
      rcases hnode with hnode | hnode
      · obtain ⟨data, rfl, hblank⟩ := exists_of_isBlankText hnode
        rw [List.filter_cons_of_neg (not_isParagraph_text data)] at hlast
        -- no paragraph follows, and so the blank is trimmed
        have htrims : Content.trimsBefore (Content.ofNodes nodes) = true := by
          rw [Content.trimsBefore, firstVisible?_paragraphs hnodes, hlast]
          rfl
        rw [renderAll_blank hblank (.inl htrims)]
        exact ih hnodes hlast
      · rw [List.filter_cons_of_pos hnode] at hlast
        exact absurd hlast (List.cons_ne_nil _ _)

/-- A paragraph where no line break is needed shows its content, and an empty line if
    another paragraph is ahead; then blank text behind it does not show. -/
theorem renderOne_paragraph (hlinks : settings.style.KeepsLinkContent)
    (hlabelled : settings.labelled = false) {node : Node} (hnode : node.isParagraph = true)
    (hshown : node.textInside settings ≠ []) (hnodes : AreParagraphs nodes)
    (hprevious : showsBlankAfter previous = false) (hposition : position.needsBreak = false) :
    let r := renderOne (Content.ofNode node) settings.context (Content.ofNodes nodes) previous
      position 1
    let isLast := (nodes.filter Node.isParagraph).isEmpty
    r.fragment.text.text = node.textInside settings ++ (if isLast then [] else ['\n', '\n'])
      ∧ r.trace = some (if isLast then .plain else .block) ∧ r.next = 1 := by
  obtain ⟨attributes, hp⟩ := exists_of_isParagraph hnode
  have hgap : gapBefore settings.context previous position "p1" = [] := by
    rw [gapBefore, hprevious]
    rfl
  have hbody : (renderAll (Content.ofNodes node.children) settings.context none
      (position.advance (.plain [])) 1).fragment.text.text = node.textInside settings :=
    text_renderAll_congr hlinks hlabelled _ none 1 (by
      rw [show AnnotatedText.plain [] = AnnotatedText.empty from rfl, Cursor.advance_empty,
        hposition]
      rfl)
  have hnext : (renderAll (Content.ofNodes node.children) settings.context none
      (position.advance (.plain [])) 1).next = 1 := by
    rw [renderAll_next]
    exact Block.nextAfterAll_none 1 _
  have hcontent : Content.ofNode node = .paragraph false (Content.ofNodes node.children) := by
    rw [hp]
    rfl
  rw [hcontent, renderOne, hgap]
  generalize renderAll (Content.ofNodes node.children) settings.context none
    (position.advance (.plain [])) 1 = body at hbody hnext ⊢
  have hempty : (body.fragment.text.length == 0) = false := by
    rw [beq_eq_false_iff_ne, AnnotatedText.length, hbody]
    exact fun h => hshown (List.length_eq_zero_iff.mp h)
  -- how the paragraph ends depends on whether another one is ahead
  have hahead := firstVisible?_paragraphs hnodes
  cases hrest : nodes.filter Node.isParagraph with
  | nil =>
      rw [hrest] at hahead
      have htrims : Content.trimsBefore (Content.ofNodes nodes) = true := by
        rw [Content.trimsBefore, hahead]
        rfl
      rw [closeParagraph, htrims, Bool.true_or, if_pos rfl]
      exact ⟨hbody.trans (List.append_nil _).symm, rfl, hnext⟩
  | cons node' rest =>
      rw [hrest] at hahead
      have htrims : Content.trimsBefore (Content.ofNodes nodes) = false := by
        rw [Content.trimsBefore, hahead]
        rfl
      have hbreaks : Content.breaksBefore (Content.ofNodes nodes) = false := by
        rw [Content.breaksBefore, hahead]
        rfl
      have hparagraph : Content.paragraphAhead (Content.ofNodes nodes) = true := by
        rw [Content.paragraphAhead, hahead]
        rfl
      have hclose : settings.context.lineBreak "p2" ++ settings.context.lineBreak "p3"
          = ['\n', '\n'] := by
        rw [Context.lineBreak, Context.lineBreak, Settings.context, hlabelled]
        rfl
      rw [closeParagraph, htrims, hempty, hbreaks, hparagraph]
      refine ⟨?_, rfl, hnext⟩
      show body.fragment.text.text
        ++ (settings.context.lineBreak "p2" ++ settings.context.lineBreak "p3") = _
      rw [hbody, hclose]
      rfl

/-- Paragraphs show what each of them shows on its own, with an empty line between any two
    of them. -/
theorem text_renderAll_paragraphs (hlinks : settings.style.KeepsLinkContent)
    (hlabelled : settings.labelled = false) (h : AreParagraphs nodes)
    (hshown : ∀ node ∈ nodes, node.isParagraph = true → node.textInside settings ≠ [])
    (hprevious : showsBlankAfter previous = false) (hposition : position.needsBreak = false) :
    (renderAll (Content.ofNodes nodes) settings.context previous position 1).fragment.text.text
      = List.intercalate ['\n', '\n']
        ((nodes.filter Node.isParagraph).map (textInside settings)) := by
  induction nodes generalizing previous position with
  | nil => rw [Content.ofNodes, renderAll]; rfl
  | cons node nodes ih =>
      obtain ⟨hnode, hnodes⟩ := List.forall_mem_cons.mp h
      obtain ⟨hshownNode, hshownNodes⟩ := List.forall_mem_cons.mp hshown
      rcases hnode with hnode | hnode
      · -- a blank behind a break shows nothing, and the walk goes on as if it were not there
        obtain ⟨data, rfl, hblank⟩ := exists_of_isBlankText hnode
        rw [renderAll_blank hblank (.inr hprevious), List.filter_cons_of_neg (not_isParagraph_text data)]
        exact ih hnodes hshownNodes hprevious hposition
      · obtain ⟨htext, htrace, hnext⟩ := renderOne_paragraph hlinks hlabelled hnode
          (hshownNode hnode) hnodes hprevious hposition
        have hunstyled := isUnstyled_renderOne settings.context hlinks (Content.ofNode node)
          (Content.ofNodes nodes) previous position 1
        rw [Content.ofNodes, renderAll, List.filter_cons_of_pos hnode, List.map_cons]
        generalize renderOne (Content.ofNode node) settings.context (Content.ofNodes nodes) previous
          position 1 = first at htext htrace hnext hunstyled ⊢
        rw [Fragment.text_append, text_append, htext, htrace, hnext]
        cases hrest : nodes.filter Node.isParagraph with
        | nil =>
            rw [text_renderAll_blanks hnodes hrest]
            simp
        | cons node' rest =>
            rw [hrest] at htext ih
            -- the text ends with a break now, so what comes next does not ask for one
            have hbreak : (position.advance first.fragment.text).needsBreak = false := by
              rw [Cursor.needsBreak_advance hunstyled, htext]
              simp
            rw [ih hnodes hshownNodes rfl hbreak]
            simp [List.intercalate_cons_cons]

end Walk

/-! ## Text without line breaks -/

namespace Markup.Node

/-- The names of the elements that format running text or make a link of it. -/
def inlineNames : List String :=
  "a" :: formattingNames

mutual

/-- A node of text and elements that format it. -/
def isInline : Node → Bool
  | .text _ => true
  | .element name _ children => inlineNames.contains name && areInline children

/-- The nodes are text and elements that format it. -/
def areInline : List Node → Bool
  | [] => true
  | node :: nodes => node.isInline && areInline nodes

end

/-- The content that such an element is. -/
theorem ofElement_of_mem_inlineNames {name : String} (h : inlineNames.contains name = true)
    (attributes : List (String × String)) (cs : List Content) :
    (∃ e, Content.ofElement name attributes cs = .emphasis e cs)
      ∨ Content.ofElement name attributes cs = .code cs
      ∨ (∃ look, Content.ofElement name attributes cs = .span look cs)
      ∨ ∃ address, Content.ofElement name attributes cs = .anchor address cs := by
  rcases List.mem_cons.mp (List.contains_iff_mem.mp h) with rfl | hname
  · exact .inr (.inr (.inr ⟨_, rfl⟩))
  · have hformatting : isFormatting name attributes = true := by
      rw [isFormatting, List.contains_iff_mem.mpr hname, Bool.true_or]
    rcases ofElement_of_isFormatting hformatting cs with h | h | h | ⟨address, -, h⟩
    · exact .inl h
    · exact .inr (.inl h)
    · exact .inr (.inr (.inl h))
    · exact .inr (.inr (.inr ⟨address, h⟩))

end Markup.Node

section Inline

open Markup Node

/-- What running text relies on to show no line breaks: links show their content, line
    breaks are neither kept nor labelled, and there is none in the text of a mention. -/
structure Context.KeepsLine (ctx : Context) : Prop where
  links : ctx.style.KeepsLinkContent
  running : ctx.isPreformatted = false
  unlabelled : ctx.labelled = false
  mention : '\n' ∉ ctx.style.roomMention.toList

mutual

/-- Formatted text shows on one line. -/
theorem newline_not_mem_renderOne : (node : Node) → node.isInline = true → (ctx : Context) →
    (ahead : List Content) → (previous : Option Trace) → (position : Cursor) → (next : Int) →
    ctx.KeepsLine →
    '\n' ∉ (renderOne (Content.ofNode node) ctx ahead previous position next).fragment.text.text
  | .text data, _, ctx, ahead, previous, position, next, hctx => by
      rw [Content.ofNode, renderOne]
      split
      · exact List.not_mem_nil
      · rename_i s hs
        rw [hctx.unlabelled]
        intro hmem
        rcases mem_text_richText hmem with hmem | hmem
        · rcases mem_visibleText? hs hmem with hspace | ⟨-, hblank⟩
          · exact absurd hspace (by decide)
          · exact absurd (hblank hctx.running) (by decide)
        · exact hctx.mention hmem
  | .element name attributes children, h, ctx, ahead, previous, position, next, hctx => by
      rw [isInline, Bool.and_eq_true] at h
      have hbody := newline_not_mem_renderAll children h.2 ctx none position next hctx
      rw [Content.ofNode]
      rcases ofElement_of_mem_inlineNames h.1 attributes (Content.ofNodes children) with
        ⟨e, he⟩ | he | ⟨look, he⟩ | ⟨address, he⟩
      · rw [he, renderOne]
        exact hbody
      · rw [he, renderOne]
        split <;> exact hbody
      · rw [he, renderOne]
        exact hbody
      · rw [he, renderOne]
        have hlinked := fun start => newline_not_mem_renderAll children h.2 { ctx with isLinked := true }
          none start next ⟨hctx.links, hctx.running, hctx.unlabelled, hctx.mention⟩
        cases DeepLink.ofUrl? address.toList with
        | none => exact hlinked _
        | some link =>
            simp only [closeAnchor, linkText_eq hctx.links]
            exact hlinked _

/-- Inline content is rendered on one line. -/
theorem newline_not_mem_renderAll : (nodes : List Node) → areInline nodes = true → (ctx : Context) →
    (previous : Option Trace) → (position : Cursor) → (next : Int) → ctx.KeepsLine →
    '\n' ∉ (renderAll (Content.ofNodes nodes) ctx previous position next).fragment.text.text
  | [], _, ctx, previous, position, next, _ => by
      rw [Content.ofNodes, renderAll]
      exact List.not_mem_nil
  | node :: nodes, h, ctx, previous, position, next, hctx => by
      rw [areInline, Bool.and_eq_true] at h
      rw [Content.ofNodes, renderAll]
      intro hmem
      rcases List.mem_append.mp hmem with hmem | hmem
      · exact newline_not_mem_renderOne node h.1 ctx _ previous position next hctx hmem
      · exact newline_not_mem_renderAll nodes h.2 ctx _ _ _ hctx hmem

end

end Inline

/-! ## Bodies -/

/-- A text that has characters has some with others behind it. -/
theorem intercalate_ne_nil (sep : List Char) {text : List Char} (h : text ≠ [])
    (rest : List (List Char)) : List.intercalate sep (text :: rest) ≠ [] := by
  cases rest with
  | nil =>
      rw [List.intercalate_singleton]
      exact h
  | cons text' rest =>
      rw [List.intercalate_cons_cons, List.append_assoc]
      exact List.append_ne_nil_of_left_ne_nil h _

/-- Joined texts begin and end as the first and the last of them do. -/
theorem not_edge_of_intercalate {c : Char} (sep : List Char) {texts : List (List Char)}
    (h : ∀ text ∈ texts, text ≠ [] ∧ c ∉ text) :
    (List.intercalate sep texts).head? ≠ some c
      ∧ (List.intercalate sep texts).getLast? ≠ some c := by
  induction texts with
  | nil => exact ⟨nofun, nofun⟩
  | cons text rest ih =>
      obtain ⟨⟨hne, hc⟩, hrest⟩ := List.forall_mem_cons.mp h
      have hhead : text.head? ≠ some c := fun hhead => hc (List.mem_of_head? hhead)
      have hlast : text.getLast? ≠ some c := fun hlast => hc (List.mem_of_getLast? hlast)
      cases rest with
      | nil =>
          rw [List.intercalate_singleton]
          exact ⟨hhead, hlast⟩
      | cons text' rest =>
          have hinner := intercalate_ne_nil sep (hrest text' (List.mem_cons_self ..)).1 rest
          rw [List.intercalate_cons_cons]
          refine ⟨?_, ?_⟩
          · rw [List.append_assoc, List.head?_append_of_ne_nil _ hne]
            exact hhead
          · rw [List.getLast?_append_of_ne_nil _ hinner]
            exact (ih hrest).2

/-- **Paragraphs** show with exactly one empty line between any two of them: the text of a
    body of paragraphs, with any blank text in front of them, between them and behind them,
    consists of what each of them shows on its own, and of two line breaks between any two
    of these.  Where the paragraphs hold nothing but text and elements that format it, and
    the text of a mention has no line break, the body neither begins nor ends with one. -/
theorem paragraphs_of_nodes {settings : Settings} (hlinks : settings.style.KeepsLinkContent)
    (hlabelled : settings.labelled = false) {nodes : List Markup.Node}
    (h : Markup.Node.AreParagraphs nodes)
    (hshown : ∀ node ∈ nodes, node.isParagraph = true → node.textInside settings ≠ []) :
    (Body.ofContent settings (Content.ofNodes nodes)).text.text
        = List.intercalate ['\n', '\n']
          ((nodes.filter Markup.Node.isParagraph).map (Markup.Node.textInside settings))
      ∧ ((∀ node ∈ nodes, Markup.Node.areInline node.children = true) →
        '\n' ∉ settings.style.roomMention.toList →
        (Body.ofContent settings (Content.ofNodes nodes)).text.text.head? ≠ some '\n'
          ∧ (Body.ofContent settings (Content.ofNodes nodes)).text.text.getLast? ≠ some '\n') := by
  have htext : (Body.ofContent settings (Content.ofNodes nodes)).text.text
      = List.intercalate ['\n', '\n']
        ((nodes.filter Markup.Node.isParagraph).map (Markup.Node.textInside settings)) :=
    text_renderAll_paragraphs hlinks hlabelled h hshown rfl rfl
  refine ⟨htext, fun hinline hmention => ?_⟩
  rw [htext]
  refine not_edge_of_intercalate _ fun text hmem => ?_
  obtain ⟨node, hnode, rfl⟩ := List.mem_map.mp hmem
  obtain ⟨hnode, hp⟩ := List.mem_filter.mp hnode
  exact ⟨hshown node hnode hp, newline_not_mem_renderAll node.children (hinline node hnode)
    settings.context none (.startAt 0) 1 ⟨hlinks, rfl, hlabelled, hmention⟩⟩

/-- Three paragraphs with blank text around them, with formatting, a mention of the room and
    a deep link in them. -/
def spacedParagraphs : List Markup.Node :=
  [.text "\n ".toList, .element "p" [] [.text " a\n b ".toList],
   .text "\n".toList, .text "\t".toList,
   .element "p" [("class", "c")]
    [.element "b" [] [.text "c".toList], .text " ".toList, .element "code" [] [.text "d\n".toList]],
   .element "p" []
    [.text "@room ".toList, .element "a" [("href", "https://matrix.to/#/@u:s")] [.text "e".toList]],
   .text " \n".toList]

/-- Paragraphs with blanks around them have one empty line between them. -/
theorem paragraphs_spacedParagraphs :
    (Body.ofContent {} (Content.ofNodes spacedParagraphs)).text.text
        = List.intercalate ['\n', '\n']
          ((spacedParagraphs.filter Markup.Node.isParagraph).map (Markup.Node.textInside {}))
      ∧ ((Body.ofContent {} (Content.ofNodes spacedParagraphs)).text.text.head? ≠ some '\n'
        ∧ (Body.ofContent {} (Content.ofNodes spacedParagraphs)).text.text.getLast? ≠ some '\n')
      ∧ (spacedParagraphs.filter Markup.Node.isParagraph).map (Markup.Node.textInside {})
        = [" a b ".toList, "c d ".toList, "@room e".toList] := by
  obtain ⟨htext, hedges⟩ := @paragraphs_of_nodes {} RenderStyle.standard_keepsLinkContent rfl
    spacedParagraphs (by decide) (by decide +kernel)
  exact ⟨htext, hedges (by decide) (by decide), by decide +kernel⟩

end MessageBody
