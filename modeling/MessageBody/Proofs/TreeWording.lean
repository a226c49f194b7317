import MessageBody.Proofs.Summaries
import MessageBody.Proofs.WellFormedTrees
import MessageBody.Proofs.Wording

/-! # What trees say

    The wording of a tree is what its nodes stand for in document order: the text
    of text nodes, the label in front of each list item that gets one, the texts
    that stand for images, and the placeholder in front of each summary that has
    something beside it.  Understanding the names and attributes of the tree adds
    nothing to it and takes nothing away, except for the one line break that may
    follow the start of preformatted text. -/

namespace MessageBody

/-! ## The wording of nodes -/

namespace Markup.Node

/-- A nested list. -/
def isList : Node → Bool
  | .text _ => false
  | .element name _ _ => name == "ul" || name == "ol"

/-- Some of the nodes, nested lists left out, holds text that leaves a mark. -/
def haveOwnText (nodes : List Node) : Bool :=
  nodes.any fun node => !node.isList && !(Text.ink node.data).isEmpty

/-- What stands in front of the summary of a details element with the given
    children: nothing when there is nothing beside it. -/
def summarySign (children : List Node) : List Char :=
  if children.length = 1 then [] else RenderStyle.standard.summaryPlaceholder.toList

mutual

/-- What a node says. -/
def wording (scope : ListScope) (next : Int) : Node → Wording
  | .text data => ⟨data, next⟩
  | .element name attributes children =>
      match name with
      | "ul" => ⟨(wordingOf (.unordered RenderStyle.standardBullet) [] next children).text, next⟩
      | "ol" =>
          let start := (Content.numberAttribute? "start" attributes).getD 1
          ⟨(wordingOf .ordered [] start children).text, next⟩
      | "li" =>
          let value := Content.numberAttribute? "value" attributes
          let label := itemWording scope (haveOwnText children) value next
          let inside := wordingOf scope [] label.next children
          ⟨label.text ++ inside.text, inside.next⟩
      | "img" =>
          let inside := wordingOf scope [] next children
          match Content.imageInfo? attributes with
          | some info => ⟨(RenderStyle.standardImageText info).toList ++ inside.text, inside.next⟩
          | none => inside
      | "details" => wordingOf scope (summarySign children) next children
      | _ => wordingOf scope [] next children

/-- What nodes say, with `sign` in front of the first one that labels a details
    element. -/
def wordingOf (scope : ListScope) (sign : List Char) (next : Int) : List Node → Wording
  | [] => ⟨[], next⟩
  | node :: nodes =>
      let first := node.wording scope next
      if node.isSummary then
        let rest := wordingOf scope [] first.next nodes
        ⟨sign ++ (first.text ++ rest.text), rest.next⟩
      else
        let rest := wordingOf scope sign first.next nodes
        ⟨first.text ++ rest.text, rest.next⟩

end

end Markup.Node

/-! ## Understanding elements -/

namespace Content

open Markup

theorem dataOf_append (as bs : List Content) : dataOf (as ++ bs) = dataOf as ++ dataOf bs := by
  induction as with
  | nil => rfl
  | cons a as ih => rw [List.cons_append, dataOf, dataOf, ih, List.append_assoc]

/-- A second part is worded with the number that the first part leaves. -/
theorem wordingOf_append (scope : ListScope) (next : Int) (as bs : List Content) :
    wordingOf scope next (as ++ bs)
      = ⟨(wordingOf scope next as).text
          ++ (wordingOf scope (wordingOf scope next as).next bs).text,
        (wordingOf scope (wordingOf scope next as).next bs).next⟩ := by
  induction as generalizing next with
  | nil => rfl
  | cons a as ih =>
      simp only [List.cons_append, wordingOf, ih, List.append_assoc]

theorem data_detailsOf (cs : List Content) : (detailsOf cs).data = dataOf cs := by
  rcases detailsOf_cases cs with h | ⟨before, summary, after, rfl, h⟩
  · rw [h, data]
  · rw [h, data, dataOf_append, dataOf_append, List.append_assoc]

/-- A details element is worded as its parts one after the other. -/
theorem wording_detailsOf (scope : ListScope) (next : Int) (cs : List Content) :
    (detailsOf cs).wording scope next = wordingOf scope next cs := by
  rcases detailsOf_cases cs with h | ⟨before, summary, after, rfl, h⟩
  · rw [h, wording]
  · rw [h, wording, wordingOf_append, wordingOf_append]

/-- The line break that is left out leaves no mark. -/
theorem ink_dataOf_withoutFirstBreak (cs : List Content) :
    Text.ink (dataOf (withoutFirstBreak cs)) = Text.ink (dataOf cs) := by
  unfold withoutFirstBreak
  split
  · rename_i data rest
    have hbreak : Text.ink (dataOf (.text ('\n' :: data) :: rest))
        = Text.ink data ++ Text.ink (dataOf rest) := by
      rw [dataOf, Content.data, Text.ink_append, Text.ink_cons_of_isBlank (by decide)]
    rw [hbreak]
    split
    · rename_i hdata
      rw [List.isEmpty_iff.mp hdata]
      rfl
    · rw [dataOf, Content.data, Text.ink_append]
  · rfl

theorem wordingOf_withoutFirstBreak (scope : ListScope) (next : Int) (cs : List Content) :
    wordingOf scope next (withoutFirstBreak cs) = wordingOf scope next cs := by
  unfold withoutFirstBreak
  split
  · rename_i data rest
    have hbreak : Text.ink ('\n' :: data) = Text.ink data := Text.ink_cons_of_isBlank (by decide) _
    split
    · rename_i hdata
      rw [wordingOf, wording, hbreak, List.isEmpty_iff.mp hdata]
      rfl
    · simp only [wordingOf, wording, hbreak]
  · rfl

/-- An element has the text of what is inside it. -/
theorem ink_data_ofElement {name : String} (attributes : List (String × String))
    {cs : List Content} (hvoid : isVoid name = true → cs = []) :
    Text.ink (ofElement name attributes cs).data = Text.ink (dataOf cs) := by
  unfold ofElement
  split
  case h_19 => rw [data, ink_dataOf_withoutFirstBreak]
  case h_20 => rw [hvoid (by decide), data, dataOf]
  case h_21 => rw [data_detailsOf]
  case h_22 => rw [hvoid (by decide), data, dataOf]
  case h_24 =>
    split
    · rw [hvoid (by decide), data, dataOf]
    · rw [data]
  all_goals rw [data]

/-- An element that is neither a list, nor an item of one, nor an image says what is
    inside it. -/
theorem wording_ofElement (scope : ListScope) (next : Int) {name : String}
    (attributes : List (String × String)) {cs : List Content}
    (hname : name ∉ ["ul", "ol", "li", "img"]) (hvoid : isVoid name = true → cs = []) :
    (ofElement name attributes cs).wording scope next = wordingOf scope next cs := by
  unfold ofElement
  split
  case h_19 => rw [wording, wordingOf_withoutFirstBreak]
  case h_20 => rw [hvoid (by decide), wording, wordingOf]
  case h_21 => rw [wording_detailsOf]
  case h_22 => rw [hvoid (by decide), wording, wordingOf]
  case h_24 => exact absurd (by decide) hname
  case h_25 => exact absurd (by decide) hname
  case h_26 => exact absurd (by decide) hname
  case h_27 => exact absurd (by decide) hname
  all_goals rw [wording]

theorem isList_ofElement (name : String) (attributes : List (String × String))
    (cs : List Content) : (ofElement name attributes cs).isList = (name == "ul" || name == "ol") := by
  have hdetails : (detailsOf cs).isList = false := by
    rcases detailsOf_cases cs with h | ⟨before, summary, after, -, h⟩ <;> rw [h] <;> rfl
  unfold ofElement
  split
  case h_21 => exact hdetails
  case h_24 => split <;> rfl
  case h_28 =>
    rename_i hul hol _
    rw [beq_eq_false_iff_ne.mpr hul, beq_eq_false_iff_ne.mpr hol]
    rfl
  all_goals rfl

end Content

/-! ## Trees -/

namespace Markup.Node

mutual

/-- Understanding a tree keeps the ink of its text. -/
theorem ink_data_ofNode : (node : Node) → node.isWellFormed = true →
    Text.ink (Content.ofNode node).data = Text.ink node.data
  | .text data, _ => by
      rw [Content.ofNode, Content.data, Node.data]
  | .element name attributes children, h => by
      obtain ⟨hvoid, hchildren⟩ := isWellFormed_element_iff.mp h
      rw [Content.ofNode, Node.data, ← ink_dataOf_ofNodes children hchildren]
      refine Content.ink_data_ofElement attributes fun hname => ?_
      rw [hvoid hname, Content.ofNodes]

/-- Content has the ink of its nodes. -/
theorem ink_dataOf_ofNodes : (nodes : List Node) → (∀ node ∈ nodes, node.isWellFormed = true) →
    Text.ink (Content.dataOf (Content.ofNodes nodes)) = Text.ink (dataOf nodes)
  | [], _ => rfl
  | node :: nodes, h => by
      obtain ⟨hnode, hnodes⟩ := List.forall_mem_cons.mp h
      rw [Content.ofNodes, Content.dataOf, Node.dataOf, Text.ink_append, Text.ink_append,
        ink_data_ofNode node hnode, ink_dataOf_ofNodes nodes hnodes]

end

/-- Whether a list item has text of its own can be told from the tree. -/
theorem hasOwnText_ofNodes {nodes : List Node} (h : ∀ node ∈ nodes, node.isWellFormed = true) :
    Content.hasOwnText (Content.ofNodes nodes) = haveOwnText nodes := by
  induction nodes with
  | nil => rfl
  | cons node nodes ih =>
      obtain ⟨hnode, hnodes⟩ := List.forall_mem_cons.mp h
      have hlist : (Content.ofNode node).isList = node.isList := by
        cases node with
        | text data => rfl
        | element name attributes children =>
            rw [Content.ofNode, Content.isList_ofElement, isList]
      have hrest := ih hnodes
      rw [Content.hasOwnText, haveOwnText] at hrest
      rw [Content.ofNodes, Content.hasOwnText, haveOwnText, List.any_cons, List.any_cons, hrest,
        hlist, Text.hasOther_isBlank_shown, ink_data_ofNode node hnode]

/-- The sign in front of a summary leaves no ink. -/
theorem ink_summarySign (children : List Node) : Text.ink (summarySign children) = [] := by
  rw [summarySign]
  split <;> decide

mutual

/-- Understanding a tree keeps the ink of what it says. -/
theorem wording_ofNode : (node : Node) → (scope : ListScope) → (next : Int) →
    node.isWellFormed = true →
    (Content.ofNode node).wording scope next = (node.wording scope next).inked
  | .text data, scope, next, _ => by
      rw [Content.ofNode, Content.wording, Node.wording, Wording.inked]
  | .element name attributes children, scope, next, h => by
      obtain ⟨hvoid, hchildren⟩ := isWellFormed_element_iff.mp h
      rw [Content.ofNode, Node.wording.eq_def]
      dsimp only
      split
      · rw [Content.ofElement, Content.wording,
          wordingOf_ofNodes children _ [] next rfl hchildren]
        rfl
      · rw [Content.ofElement, Content.wording, wordingOf_ofNodes children _ [] _ rfl hchildren]
        rfl
      · rw [Content.ofElement, Content.wording, hasOwnText_ofNodes hchildren]
        simp only [wordingOf_ofNodes children _ [] _ rfl hchildren, Wording.inked, Text.ink_append]
      · rw [hvoid (by decide), Content.ofElement]
        cases Content.imageInfo? attributes with
        | some info => simp [Content.wording, Node.wordingOf, Wording.inked]
        | none => simp [Content.wording, Content.ofNodes, Content.wordingOf, Node.wordingOf,
            Wording.inked]
      · -- a details element shows the sign of its summary and then what is in it
        rw [Content.wording_ofElement scope next attributes (by decide)
            (fun hname => absurd hname (by decide)),
          wordingOf_ofNodes children scope (summarySign children) next (ink_summarySign children)
            hchildren]
      · rename_i hul hol hli himg hdetails
        have hname : name ∉ ["ul", "ol", "li", "img"] := by
          simp only [List.mem_cons, List.not_mem_nil, or_false, not_or]
          exact ⟨hul, hol, hli, himg⟩
        rw [Content.wording_ofElement scope next attributes hname fun hname => by
          rw [hvoid hname, Content.ofNodes], wordingOf_ofNodes children scope [] next rfl hchildren]

/-- Content is worded as its nodes are, up to blanks. -/
theorem wordingOf_ofNodes : (nodes : List Node) → (scope : ListScope) → (sign : List Char) →
    (next : Int) → Text.ink sign = [] → (∀ node ∈ nodes, node.isWellFormed = true) →
    Content.wordingOf scope next (Content.ofNodes nodes)
      = (wordingOf scope sign next nodes).inked
  | [], scope, sign, next, _, _ => by
      rw [Content.ofNodes, Content.wordingOf, Node.wordingOf]
      rfl
  | node :: nodes, scope, sign, next, hsign, h => by
      obtain ⟨hnode, hnodes⟩ := List.forall_mem_cons.mp h
      rw [Content.ofNodes, Content.wordingOf, Node.wordingOf, wording_ofNode node scope next hnode]
      -- the sign leaves no mark, wherever it stands
      split
      · have hrest := wordingOf_ofNodes nodes scope [] (node.wording scope next).next rfl hnodes
        simp [Wording.inked, hrest, hsign]
      · have hrest := wordingOf_ofNodes nodes scope sign (node.wording scope next).next hsign hnodes
        simp [Wording.inked, hrest]

end

end Markup.Node

/-! ## Bodies -/

/-- **What message bodies say**: whatever stands around a text, and however it is
    trimmed, a body has the ink of all that its tree says, in document order.  Every
    tree that is read from markup is well-formed. -/
theorem ink_of_nodes (allowMention : Bool) (nodes : List Markup.Node)
    (h : Markup.Node.areWellFormed nodes = true) :
    Text.ink (Body.ofContent { allowMention := allowMention } (Content.ofNodes nodes)).text.text
        = Text.ink (Markup.Node.wordingOf .none [] 1 nodes).text
      ∧ ∀ source, Markup.Node.areWellFormed (Markup.parse source) = true := by
  refine ⟨?_, Markup.areWellFormed_parse⟩
  have hwalk := inked_renderAll (Content.ofNodes nodes)
    (Settings.context { allowMention := allowMention }) none (.startAt 0) 1 rfl rfl
  have htree := Markup.Node.wordingOf_ofNodes nodes .none [] 1 rfl
    (Markup.Node.areWellFormed_iff.mp h)
  exact congrArg Wording.text (hwalk.trans htree)

/-- An ordered list, details with nested lists in them, and an image. -/
def numberedDetails : List Markup.Node :=
  [.element "ol" [("start", "3")]
    [.element "li" [] [.text "a".toList], .text " ".toList,
     .element "li" [("value", "7")] [.text " @room\n".toList]],
   .element "details" []
    [.text "c".toList, .element "summary" [] [.text "d".toList],
     .element "ul" [] [.element "li" []
      [.element "ul" [] [.element "li" [] [.text "e".toList]]]]],
   .element "img" [("src", "mxc://s/i"), ("title", "f g")] []]

/-- A number in a list inside details is shown with the other words. -/
theorem ink_numberedDetails :
    Text.ink (Body.ofContent { allowMention := true } (Content.ofNodes numberedDetails)).text.text
        = Text.ink (Markup.Node.wordingOf .none [] 1 numberedDetails).text
      ∧ (Markup.Node.wordingOf .none [] 1 numberedDetails).text
        = "3. a 7.  @room\nc\u2007\u2007d\u2022 ef g".toList :=
  ⟨(ink_of_nodes true numberedDetails (by decide)).1, by decide +kernel⟩

end MessageBody
