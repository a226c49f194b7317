import MessageBody.Proofs.Mentions
import MessageBody.Proofs.Summaries
import MessageBody.Proofs.Unwrapping

/-! # Running text

    Nodes of running text are text, the elements that format it, and links that are no
    deep links.  Rendering them shows their text one after the other (`lineText`).  What
    is shown of a run of text depends on the runs and elements beside it; where the line
    stands in the document, how deeply, and inside which links it does not matter
    (`text_renderAll_ofNodes`). -/

namespace MessageBody

/-- The characters that stand for a run of text that is shown. -/
def Context.words (ctx : Context) (s : List Char) : List Char :=
  (ctx.richText (withLabels ctx.labelled s)).text

/-- The links on addresses add nothing to what is shown. -/
theorem text_richText_autoLink (style : RenderStyle) (allowMention autoLink autoLink' : Bool)
    (s : List Char) :
    (richText style allowMention autoLink s).text
      = (richText style allowMention autoLink' s).text := by
  rw [text_richText_eq_intercalate, text_richText_eq_intercalate]

/-- A piece with this trace takes away nothing of the text after it; in preformatted text
    nothing is taken away anyhow. -/
def Context.LeavesBlanks (ctx : Context) (trace : Option Trace) : Prop :=
  ctx.isPreformatted = true ∨ ∀ t ∈ trace, t.trimsNext = false

namespace Context.LeavesBlanks

variable {ctx : Context}

theorem none : ctx.LeavesBlanks none :=
  .inr nofun

theorem plain : ctx.LeavesBlanks (some .plain) :=
  .inr fun _ h => Option.some.inj h ▸ rfl

/-- Blanks are left by a later trace or by an earlier one. -/
theorem or {trace trace' : Option Trace} (h : ctx.LeavesBlanks trace)
    (h' : ctx.LeavesBlanks trace') : ctx.LeavesBlanks (trace.or trace') := by
  cases trace with
  | none => exact h'
  | some t => exact h

/-- A run of text shows the same behind any piece that takes nothing away. -/
theorem visibleText?_eq {previous : Option Trace} (h : ctx.LeavesBlanks previous)
    (ahead : List Content) (data : List Char) :
    visibleText? ctx previous ahead data
      = visibleText? ctx (if previous.isSome then some .plain else Option.none) ahead data := by
  refine visibleText?_congr fun q hq => ?_
  rcases h with h | h
  · -- in preformatted text the only question is whether anything is ahead
    rw [textAsks, if_pos h, Bool.and_eq_true, decide_eq_true_iff] at hq
    rw [hq.1]
    rfl
  · cases previous with
    | none => rfl
    | some t =>
        have ht : t.trimsNext = false := h t rfl
        have hasks : q = .showsBlank ∨ q = .isTrimmed ∨ q = .isLast := by
          rw [textAsks] at hq
          split at hq
          · exact .inr (.inr (of_decide_eq_true (Bool.and_eq_true_iff.mp hq).1))
          · split at hq
            · exact .inl (of_decide_eq_true (Bool.and_eq_true_iff.mp hq).1)
            · exact .inr (.inl (of_decide_eq_true (Bool.and_eq_true_iff.mp hq).1))
        rcases hasks with rfl | rfl | rfl <;>
          simp [Question.answer, showsBlankAfter, ht, Trace.plain]

end Context.LeavesBlanks

/-! ## Nodes of running text -/

namespace Markup.Node

/-- The names of the elements that format running text. -/
def formattingNames : List String :=
  ["b", "strong", "i", "em", "s", "del", "code", "span", "font"]

/-- An element that formats running text, or a link that is no deep link. -/
def isFormatting (name : String) (attributes : List (String × String)) : Bool :=
  formattingNames.contains name
    || (name == "a"
      && (DeepLink.ofUrl? ((Content.attribute? "href" attributes).getD "").toList).isNone)

mutual

/-- A node of running text. -/
def isRunning : Node → Bool
  | .text _ => true
  | .element name attributes children => isFormatting name attributes && areRunning children

/-- All nodes are of running text. -/
def areRunning : List Node → Bool
  | [] => true
  | node :: nodes => node.isRunning && areRunning nodes

end

/-- The content that a formatting element is. -/
theorem ofElement_of_isFormatting {name : String} {attributes : List (String × String)}
    (h : isFormatting name attributes = true) (cs : List Content) :
    (∃ e, Content.ofElement name attributes cs = .emphasis e cs)
      ∨ Content.ofElement name attributes cs = .code cs
      ∨ (∃ look, Content.ofElement name attributes cs = .span look cs)
      ∨ ∃ address, DeepLink.ofUrl? address.toList = none
        ∧ Content.ofElement name attributes cs = .anchor address cs := by
  rw [isFormatting, Bool.or_eq_true, Bool.and_eq_true, beq_iff_eq, List.contains_iff_mem] at h
  rcases h with h | ⟨rfl, hlink⟩
  · simp only [formattingNames, List.mem_cons, List.not_mem_nil, or_false] at h
    rcases h with rfl | rfl | rfl | rfl | rfl | rfl | rfl | rfl | rfl
    · exact .inl ⟨.bold, rfl⟩
    · exact .inl ⟨.bold, rfl⟩
    · exact .inl ⟨.italic, rfl⟩
    · exact .inl ⟨.italic, rfl⟩
    · exact .inl ⟨.strikethrough, rfl⟩
    · exact .inl ⟨.strikethrough, rfl⟩
    · exact .inr (.inl rfl)
    · exact .inr (.inr (.inl ⟨Content.spanLook attributes, rfl⟩))
    · exact .inr (.inr (.inl ⟨Content.spanLook attributes, rfl⟩))
  · exact .inr (.inr (.inr ⟨_, Option.isNone_iff_eq_none.mp hlink, rfl⟩))

mutual

/-- What a node of running text shows, nothing when it is dropped; `isAfter` tells whether
    a piece has been rendered before it. -/
def line? (ctx : Context) (isAfter : Bool) (ahead : List Node) : Node → Option (List Char)
  | .text data =>
      (visibleText? ctx (if isAfter then some .plain else none) (Content.ofNodes ahead) data).map
        ctx.words
  | .element _ _ children => some (lineText ctx false children)

/-- What nodes of running text show. -/
def lineText (ctx : Context) (isAfter : Bool) : List Node → List Char
  | [] => []
  | node :: nodes =>
      let first := node.line? ctx isAfter nodes
      first.getD [] ++ lineText ctx (first.isSome || isAfter) nodes

end

end Markup.Node

/-! ## The walk -/

section Walk

open Markup Node

variable {ctx : Context}

/-- A rendering shows the given text, or is nothing, and takes away nothing of the text
    after it. -/
structure Rendered.Shows (ctx : Context) (line? : Option (List Char)) (r : Rendered) : Prop where
  text : r.fragment.text.text = line?.getD []
  trace : r.trace.isSome = line?.isSome
  leaves : ctx.LeavesBlanks r.trace

/-- A run of text shows what is visible of it. -/
theorem shows_renderText (linked : Bool) (depth : Nat) (data : List Char) (ahead : List Node)
    {previous : Option Trace} (position : Cursor) (next : Int) (h : ctx.LeavesBlanks previous) :
    (renderOne (.text data) { ctx with isLinked := linked, depth := depth }
      (Content.ofNodes ahead) previous position next).Shows ctx
        ((Node.text data).line? ctx previous.isSome ahead) := by
  have hvisible : visibleText? { ctx with isLinked := linked, depth := depth } previous
        (Content.ofNodes ahead) data
      = visibleText? ctx (if previous.isSome then some .plain else none) (Content.ofNodes ahead)
        data := h.visibleText?_eq _ _
  rw [renderOne, hvisible, line?]
  cases visibleText? ctx (if previous.isSome then some .plain else none)
      (Content.ofNodes ahead) data with
  | none => exact ⟨rfl, rfl, .none⟩
  | some s =>
      refine ⟨?_, rfl, .plain⟩
      exact text_richText_autoLink ctx.style ctx.allowMention _ _ (withLabels ctx.labelled s)

/-- Formatting shows what is inside it. -/
theorem shows_withTrace {item : Item} {body : Rendered} {s : List Char}
    (htext : body.fragment.text.text = s) (htrace : ctx.LeavesBlanks body.trace) :
    ((body.marked item).withTrace .plain).Shows ctx (some s) := by
  refine ⟨htext, rfl, ?_⟩
  have hor : ((body.marked item).withTrace .plain).trace = body.trace.or (some .plain) := by
    cases htrace : body.trace with
    | none => simp [Rendered.withTrace, Rendered.marked, htrace]
    | some t => simp [Rendered.withTrace, Rendered.marked, htrace]
  rw [hor]
  exact htrace.or .plain

mutual

/-- A node of running text shows its characters, with its blanks where it stands. -/
theorem shows_renderOne : (node : Node) → node.isRunning = true → (linked : Bool) →
    (depth : Nat) → (ahead : List Node) → (previous : Option Trace) → (position : Cursor) →
    (next : Int) → ctx.LeavesBlanks previous →
    (renderOne (Content.ofNode node) { ctx with isLinked := linked, depth := depth }
      (Content.ofNodes ahead) previous position next).Shows ctx
        (node.line? ctx previous.isSome ahead)
  | .text data, _, linked, depth, ahead, previous, position, next, h => by
      rw [Content.ofNode]
      exact shows_renderText linked depth data ahead position next h
  | .element name attributes children, hrunning, linked, depth, ahead, previous, position, next,
      _ => by
      rw [isRunning, Bool.and_eq_true] at hrunning
      obtain ⟨hformatting, hchildren⟩ := hrunning
      have hbody := fun (linked : Bool) =>
        shows_renderAll children hchildren linked depth none position next .none
      rw [Content.ofNode, line?]
      rcases ofElement_of_isFormatting hformatting (Content.ofNodes children) with
        ⟨e, he⟩ | he | ⟨look, he⟩ | ⟨address, haddress, he⟩
      · rw [he, renderOne]
        exact shows_withTrace (hbody linked).1 (hbody linked).2
      · rw [he, renderOne]
        split
        · rename_i hpreformatted
          exact ⟨(hbody linked).1, rfl, .inl hpreformatted⟩
        · exact shows_withTrace (hbody linked).1 (hbody linked).2
      · rw [he, renderOne]
        exact shows_withTrace (hbody linked).1 (hbody linked).2
      · rw [he, renderOne, haddress]
        exact shows_withTrace (hbody true).1 (hbody true).2

/-- Nodes of running text show their characters one after the other. -/
theorem shows_renderAll : (nodes : List Node) → areRunning nodes = true → (linked : Bool) →
    (depth : Nat) → (previous : Option Trace) → (position : Cursor) → (next : Int) →
    ctx.LeavesBlanks previous →
    (renderAll (Content.ofNodes nodes) { ctx with isLinked := linked, depth := depth } previous
        position next).fragment.text.text = lineText ctx previous.isSome nodes
      ∧ ctx.LeavesBlanks (renderAll (Content.ofNodes nodes)
        { ctx with isLinked := linked, depth := depth } previous position next).trace
  | [], _, linked, depth, previous, position, next, h => by
      rw [Content.ofNodes, renderAll, lineText]
      exact ⟨rfl, h⟩
  | node :: nodes, hrunning, linked, depth, previous, position, next, h => by
      rw [areRunning, Bool.and_eq_true] at hrunning
      obtain ⟨hnode, hnodes⟩ := hrunning
      rw [Content.ofNodes, renderAll, lineText]
      have hfirst := shows_renderOne node hnode linked depth nodes previous position next h
      -- what the first piece shows and leaves behind is all that is needed of it
      generalize renderOne (Content.ofNode node) { ctx with isLinked := linked, depth := depth }
        (Content.ofNodes nodes) previous position next = first at hfirst ⊢
      have hrest := shows_renderAll nodes hnodes linked depth (first.trace.or previous)
        (position.advance first.fragment.text) first.next (hfirst.leaves.or h)
      refine ⟨?_, hrest.2⟩
      rw [Option.isSome_or, hfirst.trace] at hrest
      exact congrArg₂ (· ++ ·) hfirst.text hrest.1

end

/-- **Running text** shows the same wherever it stands, as long as blanks behind what is
    before it are left alone. -/
theorem text_renderAll_ofNodes {nodes : List Node} (hnodes : areRunning nodes = true)
    {previous : Option Trace} (h : ctx.LeavesBlanks previous) (depth : Nat) (position : Cursor)
    (next : Int) :
    (renderAll (Content.ofNodes nodes) { ctx with depth := depth } previous position
      next).fragment.text.text = lineText ctx previous.isSome nodes :=
  (shows_renderAll nodes hnodes ctx.isLinked depth previous position next h).1

end Walk

end MessageBody
