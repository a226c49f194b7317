import MessageBody.Proofs.RunningText
import MessageBody.Proofs.Wording

/-! # Running text in preformatted elements

    A preformatted element shows its text as it is, but for the line break that may follow
    its start tag, and but for one line break at the end of each run of text behind which
    nothing stands in its own element.  So at most one line break at the end of the whole
    text is missing just when nothing but line breaks comes behind the first run that
    loses one, and no other run does. -/

namespace MessageBody

/-- A text less at most one line break at its end. -/
def IsVerbatim (source shown : List Char) : Prop :=
  shown = source ∨ source = shown ++ ['\n']

/-- A text of line breaks can be moved past one of them, and no other text can. -/
theorem break_cons_eq_iff (s : List Char) :
    '\n' :: s = s ++ ['\n'] ↔ s.all (· == '\n') = true := by
  induction s with
  | nil => simp
  | cons c cs ih =>
      rw [List.cons_append, List.cons.injEq, List.all_cons, Bool.and_eq_true, beq_iff_eq]
      constructor
      · rintro ⟨rfl, h⟩
        exact ⟨rfl, ih.mp h⟩
      · rintro ⟨rfl, h⟩
        exact ⟨rfl, ih.mpr h⟩

namespace Markup.Node

/-! ## Runs of text -/

/-- A run of text in a tree. -/
structure TextRun where
  data : List Char
  /-- Nothing stands behind it in its own element. -/
  isLast : Bool

namespace TextRun

/-- The run is shown without the line break at its end. -/
def losesBreak (run : TextRun) : Bool :=
  run.isLast && run.data.getLast? == some '\n'

/-- What is shown of the run. -/
def kept (run : TextRun) : List Char :=
  if run.losesBreak then run.data.dropLast else run.data

/-- A run that loses no line break is kept. -/
theorem kept_of_not {run : TextRun} (h : run.losesBreak = false) : run.kept = run.data := by
  rw [kept, h]
  rfl

/-- A run that loses its last line break keeps the rest. -/
theorem data_eq_of_losesBreak {run : TextRun} (h : run.losesBreak = true) :
    run.data = run.kept ++ ['\n'] := by
  have hlast : run.data.getLast? = some '\n' :=
    beq_iff_eq.mp (Bool.and_eq_true_iff.mp h).2
  obtain ⟨init, hdata⟩ := List.getLast?_eq_some_iff.mp hlast
  rw [kept, if_pos h, hdata, List.dropLast_concat]

/-- One line break is missing for each run that loses one. -/
theorem length_flatMap_data (runs : List TextRun) :
    (runs.flatMap data).length = (runs.flatMap kept).length + runs.countP losesBreak := by
  induction runs with
  | nil => rfl
  | cons run runs ih =>
      rw [List.flatMap_cons, List.flatMap_cons, List.length_append, List.length_append, ih,
        List.countP_cons]
      cases h : run.losesBreak with
      | false =>
          rw [kept_of_not h, if_neg Bool.false_ne_true]
          omega
      | true =>
          rw [data_eq_of_losesBreak h, List.length_append, if_pos rfl, List.length_singleton]
          omega

/-- If no run loses a line break, all are kept. -/
theorem flatMap_kept_of_countP {runs : List TextRun} (h : runs.countP losesBreak = 0) :
    runs.flatMap kept = runs.flatMap data := by
  induction runs with
  | nil => rfl
  | cons run runs ih =>
      rw [List.countP_eq_zero, List.forall_mem_cons] at h
      rw [List.flatMap_cons, List.flatMap_cons, kept_of_not (Bool.eq_false_iff.mpr h.1),
        ih (List.countP_eq_zero.mpr h.2)]

/-- Behind the first run that loses its line break, nothing but line breaks follows, and no
    other is lost. -/
def onlyLastLoses : List TextRun → Bool
  | [] => true
  | run :: runs =>
      if run.losesBreak then
        runs.countP losesBreak == 0 && (runs.flatMap data).all (· == '\n')
      else onlyLastLoses runs

/-- The runs are shown verbatim, less at most one line break at the end, just when only the
    last of them loses one. -/
theorem isVerbatim_iff (runs : List TextRun) :
    IsVerbatim (runs.flatMap data) (runs.flatMap kept) ↔ onlyLastLoses runs = true := by
  induction runs with
  | nil => exact ⟨fun _ => rfl, fun _ => .inl rfl⟩
  | cons run runs ih =>
      rw [onlyLastLoses, List.flatMap_cons, List.flatMap_cons]
      have hlength := length_flatMap_data runs
      split
      · rename_i hloses
        -- the break that this run loses has to come back as the one at the very end
        have hsplit : run.data ++ runs.flatMap data
            = run.kept ++ ('\n' :: runs.flatMap data) := by
          rw [data_eq_of_losesBreak hloses, List.append_assoc]
          rfl
        rw [IsVerbatim, hsplit, List.append_assoc, List.append_cancel_left_eq,
          List.append_cancel_left_eq, Bool.and_eq_true, beq_iff_eq, ← break_cons_eq_iff]
        constructor
        · rintro (h | h)
          · have := congrArg List.length h
            rw [List.length_cons] at this
            omega
          · have hcount : runs.countP losesBreak = 0 := by
              have := congrArg List.length h
              rw [List.length_cons, List.length_append, List.length_singleton] at this
              omega
            rw [flatMap_kept_of_countP hcount] at h
            exact ⟨hcount, h⟩
        · rintro ⟨hcount, h⟩
          rw [flatMap_kept_of_countP hcount]
          exact .inr h
      · rename_i hloses
        rw [← ih, kept_of_not (Bool.eq_false_iff.mpr hloses), IsVerbatim, IsVerbatim,
          List.append_assoc, List.append_cancel_left_eq, List.append_cancel_left_eq]

end TextRun

mutual

/-- The runs of text in a node; `isLast` tells whether nothing stands behind the node. -/
def runs (isLast : Bool) : Node → List TextRun
  | .text data => [⟨data, isLast⟩]
  | .element _ _ children => runsOf children

/-- The runs of text in nodes, in document order. -/
def runsOf : List Node → List TextRun
  | [] => []
  | node :: nodes => node.runs nodes.isEmpty ++ runsOf nodes

end

mutual

/-- The runs of a node have its text. -/
theorem data_runs : (node : Node) → (isLast : Bool) →
    (node.runs isLast).flatMap TextRun.data = node.data
  | .text data, isLast => List.append_nil data
  | .element _ _ children, isLast => by
      rw [runs, data, data_runsOf children]

/-- The runs make up the text of the nodes. -/
theorem data_runsOf : (nodes : List Node) → (runsOf nodes).flatMap TextRun.data = dataOf nodes
  | [] => rfl
  | node :: nodes => by
      rw [runsOf, dataOf, List.flatMap_append, data_runs node, data_runsOf nodes]

end

/-- Nodes without the one line break that may stand in front of them. -/
def withoutFirstBreak : List Node → List Node
  | .text ('\n' :: data) :: rest => if data.isEmpty then rest else .text data :: rest
  | nodes => nodes

/-- The first line break is dropped from nodes as it is from content. -/
theorem ofNodes_withoutFirstBreak {nodes : List Node} (h : areRunning nodes = true) :
    Content.withoutFirstBreak (Content.ofNodes nodes)
      = Content.ofNodes (withoutFirstBreak nodes) := by
  match nodes with
  | [] => rfl
  | .text [] :: rest => rfl
  | .text (c :: data) :: rest =>
      rw [Content.ofNodes, Content.ofNode]
      by_cases hc : c = '\n'
      · rw [hc, Content.withoutFirstBreak, withoutFirstBreak]
        split <;> rfl
      · rw [Content.withoutFirstBreak.eq_2 _ (by simp [hc]),
          withoutFirstBreak.eq_2 _ (by simp [hc])]
        rfl
  | .element name attributes children :: rest =>
      rw [areRunning, Bool.and_eq_true, isRunning, Bool.and_eq_true] at h
      rw [withoutFirstBreak, Content.ofNodes, Content.ofNode]
      · rcases ofElement_of_isFormatting h.1.1 (Content.ofNodes children) with
          ⟨e, he⟩ | he | ⟨look, he⟩ | ⟨address, -, he⟩ <;> rw [he] <;> rfl
      · exact nofun

/-- Running text is running without its first line break. -/
theorem areRunning_withoutFirstBreak {nodes : List Node} (h : areRunning nodes = true) :
    areRunning (withoutFirstBreak nodes) = true := by
  unfold withoutFirstBreak
  split
  · rw [areRunning, Bool.and_eq_true] at h
    split
    · exact h.2
    · rw [areRunning, h.2]
      rfl
  · exact h

/-! ## What is shown -/

section Lines

variable {ctx : Context}

/-- Where mentions stand for themselves and line breaks are not labelled, a run of text
    stands for itself. -/
theorem words_of_standard (hstyle : ctx.style = .standard) (hlabelled : ctx.labelled = false)
    (s : List Char) : ctx.words s = s := by
  rw [Context.words, Context.richText, text_richText (by rw [hstyle]; rfl), withLabels, hlabelled]
  rfl

mutual

/-- Preformatted running text shows the kept parts of its runs. -/
theorem line?_preformatted (hstyle : ctx.style = .standard) (hlabelled : ctx.labelled = false)
    (hpre : ctx.isPreformatted = true) : (node : Node) → (isAfter : Bool) → (ahead : List Node) →
    node.line? ctx isAfter ahead = some ((node.runs ahead.isEmpty).flatMap TextRun.kept)
  | .text data, isAfter, ahead => by
      have hempty : (Content.ofNodes ahead).isEmpty = ahead.isEmpty := by
        cases ahead <;> rfl
      rw [line?, visibleText?_of_isPreformatted hpre, hempty, Option.map_some,
        words_of_standard hstyle hlabelled, runs, List.flatMap_singleton]
      rfl
  | .element _ _ children, isAfter, ahead => by
      rw [line?, runs, lineText_preformatted hstyle hlabelled hpre children]

/-- In preformatted text, each run is shown as it is but for the line break at its end. -/
theorem lineText_preformatted (hstyle : ctx.style = .standard)
    (hlabelled : ctx.labelled = false) (hpre : ctx.isPreformatted = true) :
    (nodes : List Node) → (isAfter : Bool) →
    lineText ctx isAfter nodes = (runsOf nodes).flatMap TextRun.kept
  | [], isAfter => rfl
  | node :: nodes, isAfter => by
      rw [lineText, runsOf, line?_preformatted hstyle hlabelled hpre node, List.flatMap_append]
      exact congrArg _ (lineText_preformatted hstyle hlabelled hpre nodes _)

end

end Lines

end Markup.Node

/-! ## Preformatted elements -/

/-- A separation without labels is nothing or a line break. -/
theorem separation_mem {ctx : Context} (h : ctx.labelled = false) (position : Cursor)
    (label : String) (ahead : List Content) :
    ctx.separation position label ahead ∈ [[], ['\n']] := by
  rw [Context.separation]
  split
  · rw [Context.lineBreak, h]
    exact List.mem_cons_of_mem _ (List.mem_singleton.mpr rfl)
  · exact List.mem_cons_self

theorem gapBefore_mem {ctx : Context} (h : ctx.labelled = false) (previous : Option Trace)
    (position : Cursor) (label : String) :
    gapBefore ctx previous position label ∈ [[], ['\n']] := by
  rw [gapBefore]
  split
  · exact separation_mem h position label []
  · exact List.mem_cons_self

/-- At most a line break is put behind preformatted content. -/
theorem text_closePreformatted {ctx : Context} (h : ctx.labelled = false) (ahead : List Content)
    (position : Cursor) (body : Rendered) :
    ∃ close ∈ [[], ['\n']], (closePreformatted ctx ahead position body).fragment.text.text
      = body.fragment.text.text ++ close := by
  rw [closePreformatted]
  split
  · exact ⟨[], List.mem_cons_self, (List.append_nil _).symm⟩
  · exact ⟨_, separation_mem h position "pre2" ahead, rfl⟩

/-- The context inside a preformatted element. -/
def Context.preformatted (ctx : Context) : Context :=
  { ctx with isPreformatted := true }

open Markup Node

/-- **Preformatted text**: between the line breaks that set it apart, a preformatted element
    shows each run of its text as it is, but for the line break after its start tag and but
    for one at the end of each run behind which nothing stands in its own element.  It shows
    its text verbatim, less at most one line break at the end, just when only the last of the
    runs loses one. -/
theorem text_preformatted {ctx : Context} (hstyle : ctx.style = .standard)
    (hlabelled : ctx.labelled = false) {nodes : List Node} (hnodes : areRunning nodes = true)
    (attributes : List (String × String)) (ahead : List Content) (previous : Option Trace)
    (position : Cursor) (next : Int) :
    let runs := runsOf (withoutFirstBreak nodes)
    let shown := runs.flatMap TextRun.kept
    (∃ before ∈ [[], ['\n']], ∃ after ∈ [[], ['\n']],
      (renderOne (Content.ofNode (.element "pre" attributes nodes)) ctx ahead previous position
        next).fragment.text.text = before ++ shown ++ after)
      ∧ (IsVerbatim (dataOf (withoutFirstBreak nodes)) shown
        ↔ TextRun.onlyLastLoses runs = true) := by
  intro runs shown
  refine ⟨?_, ?_⟩
  · let start := position.advance (.plain (gapBefore ctx previous position "pre1"))
    -- inside the element each text is shown as it is, wherever the element stands
    have hinner : lineText ctx.preformatted false (withoutFirstBreak nodes) = shown :=
      have hstyle' : ctx.preformatted.style = .standard := hstyle
      lineText_preformatted hstyle' hlabelled rfl _ false
    have hbody : (renderAll (Content.ofNodes (withoutFirstBreak nodes)) ctx.preformatted none start
        next).fragment.text.text = shown :=
      (text_renderAll_ofNodes (areRunning_withoutFirstBreak hnodes)
        (.none : ctx.preformatted.LeavesBlanks none) ctx.depth start next).trans hinner
    rw [Content.ofNode, Content.ofElement, ofNodes_withoutFirstBreak hnodes, renderOne]
    obtain ⟨after, hafter, hclose⟩ := text_closePreformatted hlabelled ahead
      (start.advance _) (renderAll (Content.ofNodes (withoutFirstBreak nodes)) ctx.preformatted none
        start next)
    rw [hbody] at hclose
    refine ⟨_, gapBefore_mem hlabelled previous position "pre1", after, hafter, ?_⟩
    rw [List.append_assoc, ← hclose]
    rfl
  · rw [← data_runsOf]
    exact TextRun.isVerbatim_iff runs

/-- Code with its words marked, between line breaks. -/
def highlightedCode : List Node :=
  [.text "\n".toList, .element "code" []
    [.element "span" [] [.text "def".toList], .text " f:\n  ".toList,
     .element "b" [] [.element "span" [] [.text "pass".toList]], .text "\n".toList]]

/-- The code is shown with its spaces and with every line break but the first and the last. -/
theorem text_preformatted_highlightedCode :
    ({} : Settings).context.style = .standard ∧ ({} : Settings).context.labelled = false
      ∧ areRunning highlightedCode = true
      ∧ (∃ before ∈ [[], ['\n']], ∃ after ∈ [[], ['\n']],
        (renderOne (Content.ofNode (.element "pre" [] highlightedCode)) ({} : Settings).context
          [.text "x".toList] none (.startAt 0) 1).fragment.text.text
            = before ++ "def f:\n  pass".toList ++ after)
      ∧ IsVerbatim (dataOf (withoutFirstBreak highlightedCode)) "def f:\n  pass".toList := by
  obtain ⟨htext, hverbatim⟩ := text_preformatted
    (show ({} : Settings).context.style = .standard from rfl) rfl
    (show areRunning highlightedCode = true by decide) [] [.text "x".toList] none (.startAt 0) 1
  have hshown : (runsOf (withoutFirstBreak highlightedCode)).flatMap TextRun.kept
      = "def f:\n  pass".toList := by decide
  rw [hshown] at htext hverbatim
  exact ⟨rfl, rfl, by decide, htext, hverbatim.mpr (by decide)⟩

/-- A line break at the end of a word that is marked is not shown, although text follows. -/
example :
    (Body.ofContent {} (Content.ofNodes [.element "pre" []
      [.element "span" [] [.text "a\n".toList], .text "b".toList]])).text.text = "ab".toList := by
  decide

end MessageBody
