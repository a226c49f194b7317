import MessageBody.Proofs.Blocks
import MessageBody.Proofs.TreeWording

/-! # The bullets of list items

    An item of an unordered list begins with the bullet of that list and is annotated, and
    if it has no text outside of further lists, neither of the two.  Whether it has is
    looked up before the item is rendered, in the text of each child that is no list, lists
    inside the child included; the text that stands for an image does not count. -/

namespace MessageBody

namespace Markup.Node

/-! ## What an item holds -/

mutual

/-- Whether a node holds text that leaves a mark, outside of lists. -/
def hasPlainText : Node → Bool
  | .text data => !(Text.ink data).isEmpty
  | .element name _ children => !(name == "ul" || name == "ol") && havePlainText children

/-- Whether some of the nodes holds text that leaves a mark, outside of lists. -/
def havePlainText : List Node → Bool
  | [] => false
  | node :: nodes => node.hasPlainText || havePlainText nodes

end

/-- A node is a list, or text that leaves no mark. -/
def isListOrBlank : Node → Bool
  | .text data => (Text.ink data).isEmpty
  | .element name _ _ => name == "ul" || name == "ol"

mutual

/-- Plain text outside lists leaves ink. -/
theorem ink_data_of_hasPlainText : (node : Node) → node.hasPlainText = true →
    Text.ink node.data ≠ []
  | .text data, h => by
      rw [hasPlainText, Bool.not_eq_true', List.isEmpty_eq_false_iff] at h
      rw [Node.data]
      exact h
  | .element name attributes children, h => by
      rw [hasPlainText, Bool.and_eq_true] at h
      rw [Node.data]
      exact ink_dataOf_of_havePlainText children h.2

/-- Nodes that hold text outside of lists hold text. -/
theorem ink_dataOf_of_havePlainText : (nodes : List Node) → havePlainText nodes = true →
    Text.ink (dataOf nodes) ≠ []
  | node :: nodes, h => by
      rw [dataOf, Text.ink_append]
      rcases Bool.or_eq_true_iff.mp h with h | h
      · exact List.append_ne_nil_of_left_ne_nil (ink_data_of_hasPlainText node h) _
      · exact List.append_ne_nil_of_right_ne_nil _ (ink_dataOf_of_havePlainText nodes h)

end

/-- A node with plain text of its own is no list. -/
theorem isList_of_hasPlainText {node : Node} (h : node.hasPlainText = true) :
    node.isList = false := by
  cases node with
  | text data => rfl
  | element name attributes children =>
      rw [hasPlainText, Bool.and_eq_true, Bool.not_eq_true'] at h
      exact h.1

/-- Plain text is text that an item owns. -/
theorem haveOwnText_of_havePlainText {nodes : List Node} (h : havePlainText nodes = true) :
    haveOwnText nodes = true := by
  induction nodes with
  | nil => exact nomatch h
  | cons node nodes ih =>
      rw [haveOwnText, List.any_cons, Bool.or_eq_true_iff]
      rcases Bool.or_eq_true_iff.mp h with h | h
      · refine .inl ?_
        have hink := List.isEmpty_eq_false_iff.mpr (ink_data_of_hasPlainText node h)
        rw [isList_of_hasPlainText h, hink]
        rfl
      · exact .inr (ih h)

/-- Lists and blanks are no text that an item owns. -/
theorem haveOwnText_of_isListOrBlank {nodes : List Node} (h : ∀ node ∈ nodes, node.isListOrBlank) :
    haveOwnText nodes = false := by
  rw [haveOwnText, List.any_eq_false]
  intro node hnode
  have hblank := h node hnode
  cases node with
  | text data =>
      rw [isListOrBlank] at hblank
      simp [Node.data, hblank]
  | element name attributes children =>
      rw [isListOrBlank] at hblank
      simp [isList, hblank]

/-! ## Items of unordered lists -/

/-- An item of an unordered list: how many quotes and list items are around it, the bullet
    of its list, and what is in it. -/
structure BulletItem where
  depth : Nat
  bullet : String
  children : List Node

/-- The annotation and the bullet that the item may get. -/
def BulletItem.mark (item : BulletItem) : Mark :=
  .unorderedItem item.depth item.bullet.toList

mutual

/-- The items in a node whose list is unordered.  Breaks, rules and images show nothing that
    is inside. -/
def bulletItems (style : RenderStyle) (scope : ListScope) (depth : Nat) : Node → List BulletItem
  | .text _ => []
  | .element name attributes children =>
      match name with
      | "blockquote" => bulletItemsOf style scope (depth + 1) children
      | "ul" => bulletItemsOf style (.unordered (style.bullet depth)) depth children
      | "ol" => bulletItemsOf style .ordered depth children
      | "li" =>
          match scope with
          | .none => bulletItemsOf style .none depth children
          | .unordered bullet =>
              let inside := bulletItemsOf style (.unordered bullet) (depth + 1) children
              ⟨depth, bullet, children⟩ :: inside
          | .ordered => bulletItemsOf style .ordered (depth + 1) children
      | _ => if showsInside name attributes then bulletItemsOf style scope depth children else []

/-- The items in nodes whose list is unordered, in document order. -/
def bulletItemsOf (style : RenderStyle) (scope : ListScope) (depth : Nat) :
    List Node → List BulletItem
  | [] => []
  | node :: nodes => node.bulletItems style scope depth ++ bulletItemsOf style scope depth nodes

end

/-- The marks of the items that have text of their own. -/
def bulletMarks (items : List BulletItem) : List Mark :=
  (items.filter fun item => haveOwnText item.children).map BulletItem.mark

mutual

/-- The items of unordered lists that have text of their own are those with a mark. -/
theorem filter_marksOf_blocks (style : RenderStyle) : (node : Node) →
    node.isWellFormed = true → (scope : ListScope) → (depth : Nat) → (next : Int) →
    (Block.marksOf style scope depth next node.blocks).filter (·.tag == .unorderedListItem)
      = bulletMarks (node.bulletItems style scope depth)
  | .text data, _, scope, depth, next => by
      rw [blocks, bulletItems, Block.marksOf]
      rfl
  | .element name attributes children, h, scope, depth, next => by
      have hchildren := (isWellFormed_element_iff.mp h).2
      have hinside := filter_marksOf_blocksOf style children hchildren
      rw [bulletItems.eq_def]
      dsimp only
      split
      · rw [blocks, marksOf_singleton, Block.marks]
        exact hinside scope (depth + 1) next
      · rw [blocks, marksOf_singleton, Block.marks]
        exact hinside (.unordered (style.bullet depth)) depth next
      · rw [blocks, marksOf_singleton, Block.marks]
        exact hinside .ordered depth _
      · rw [blocks, marksOf_singleton]
        cases scope with
        | none => exact hinside .none depth next
        | unordered bullet =>
            rw [Block.marks, hasOwnText_ofNodes hchildren, List.filter_append,
              hinside (.unordered bullet) (depth + 1) next, bulletMarks, bulletMarks]
            -- only an item with text of its own has a bullet
            cases hown : haveOwnText children with
            | true => simp [hown, BulletItem.mark, Mark.unorderedItem]
            | false => simp [hown]
        | ordered => exact hinside .ordered (depth + 1) _
      · simp only [blocks]
        split
        · exact hinside scope depth next
        · rfl

/-- The marks with a bullet are those of the items that have one. -/
theorem filter_marksOf_blocksOf (style : RenderStyle) : (nodes : List Node) →
    (∀ node ∈ nodes, node.isWellFormed = true) → (scope : ListScope) → (depth : Nat) →
    (next : Int) →
    (Block.marksOf style scope depth next (blocksOf nodes)).filter (·.tag == .unorderedListItem)
      = bulletMarks (bulletItemsOf style scope depth nodes)
  | [], _, scope, depth, next => by
      rw [blocksOf, bulletItemsOf, Block.marksOf]
      rfl
  | node :: nodes, h, scope, depth, next => by
      obtain ⟨hnode, hnodes⟩ := List.forall_mem_cons.mp h
      rw [blocksOf, bulletItemsOf, Block.marksOf_append, List.filter_append,
        filter_marksOf_blocks style node hnode, filter_marksOf_blocksOf style nodes hnodes,
        bulletMarks, bulletMarks, bulletMarks, List.filter_append, List.map_append]

end

end Markup.Node

/-! ## The walk -/

open Markup (Node)

/-- The rendering of what is inside an item of a list. -/
def renderItemBody (ctx : Context) (children : List Node) (start : Cursor) (next : Int) :
    Rendered :=
  renderAll (Content.ofNodes children) { ctx with depth := ctx.depth + 1 } none start next

/-- An item of an unordered list gets the bullet in front of what is inside it and the
    annotation around both, if it has text of its own.  Otherwise it is rendered as what is
    inside it. -/
theorem renderOne_bulletItem {ctx : Context} {bullet : String}
    (hscope : ctx.scope = .unordered bullet) (attributes : List (String × String))
    {children : List Node} (h : ∀ node ∈ children, node.isWellFormed = true)
    (ahead : List Content) (previous : Option Trace) (position : Cursor) (next : Int) :
    renderOne (Content.ofNode (.element "li" attributes children)) ctx ahead previous position next
      = if Node.haveOwnText children then
          (((renderItemBody ctx children (position.advance (.plain bullet.toList)) next).after
            bullet.toList).marked (.note .unorderedListItem (payloadOf ctx.depth))).withTrace .block
        else renderItemBody ctx children position next := by
  have hlabel : itemLabel? ctx (Content.numberAttribute? "value" attributes) next
      = some (bullet.toList, .unorderedListItem, next) := by
    rw [itemLabel?, hscope]
  rw [Content.ofNode, Content.ofElement, renderOne, hlabel, Node.hasOwnText_ofNodes h]
  dsimp only
  cases Node.haveOwnText children <;> rfl

/-! ## Message bodies -/

/-- The annotations of the items of unordered lists in the body of a tree are one for each
    of the items that have text of their own, and the bullet of its list stands in front. -/
theorem Body.opens_bulletItems {settings : Settings} (hstyle : settings.style.KeepsLinkContent)
    {nodes : List Node} (h : ∀ node ∈ nodes, node.isWellFormed = true) :
    List.Forall₂ (Mark.Opens (ofContent settings (Content.ofNodes nodes)).text)
      (Node.bulletMarks (Node.bulletItemsOf settings.style .none 0 nodes))
      ((ofContent settings (Content.ofNodes nodes)).text.tagged .unorderedListItem) := by
  rw [← Node.filter_marksOf_blocksOf settings.style nodes h .none 0 1]
  exact (laid_ofContent hstyle nodes).opens_filter rfl

/-- **Bullets**: an item of an unordered list that holds text which leaves a mark, outside of
    further lists, is rendered with the bullet of its list in front and annotated; one that
    holds nothing but lists and blank text is neither, it is rendered as what is inside it.
    In the body of a tree there is one such annotation for each item that has text of its
    own, in document order.  Every tree that is read from markup is well-formed. -/
theorem bullets_of_nodes (settings : Settings) (hstyle : settings.style.KeepsLinkContent)
    (nodes : List Node) (h : Node.areWellFormed nodes = true) :
    (let text := (Body.ofContent settings (Content.ofNodes nodes)).text
      let items := Node.bulletItemsOf settings.style .none 0 nodes
      List.Forall₂ (fun item r => item.mark.Opens text r)
          (items.filter fun item => Node.haveOwnText item.children)
          (text.tagged .unorderedListItem)
        ∧ ∀ item ∈ items,
          (Node.havePlainText item.children = true → Node.haveOwnText item.children = true)
          ∧ ((∀ node ∈ item.children, node.isListOrBlank = true) →
            Node.haveOwnText item.children = false))
    ∧ (∀ (ctx : Context) (bullet : String), ctx.scope = .unordered bullet →
      ∀ (attributes : List (String × String)) (children : List Node),
      Node.areWellFormed children = true →
      ∀ (ahead : List Content) (previous : Option Trace) (position : Cursor) (next : Int),
        let item := renderOne (Content.ofNode (.element "li" attributes children)) ctx ahead
          previous position next
        (Node.havePlainText children = true →
          item = (((renderItemBody ctx children (position.advance (.plain bullet.toList))
            next).after bullet.toList).marked
              (.note .unorderedListItem (payloadOf ctx.depth))).withTrace .block)
        ∧ ((∀ node ∈ children, node.isListOrBlank = true) →
          item = renderItemBody ctx children position next))
    ∧ ∀ source, Node.areWellFormed (Markup.parse source) = true := by
  refine ⟨⟨?_, ?_⟩, ?_, Markup.areWellFormed_parse⟩
  · exact List.forall₂_map_left_iff.mp
      (Body.opens_bulletItems hstyle (Node.areWellFormed_iff.mp h))
  · exact fun item _ =>
      ⟨Node.haveOwnText_of_havePlainText, Node.haveOwnText_of_isListOrBlank⟩
  · intro ctx bullet hscope attributes children hchildren ahead previous position next item
    have hitem := renderOne_bulletItem hscope attributes (Node.areWellFormed_iff.mp hchildren)
      ahead previous position next
    constructor
    · intro htext
      rwa [Node.haveOwnText_of_havePlainText htext, if_pos rfl] at hitem
    · intro hlists
      rwa [Node.haveOwnText_of_isListOrBlank hlists, if_neg Bool.false_ne_true] at hitem

/-- An item that holds a list and, behind it, text in a link. -/
def linkedItem : List Node :=
  [.element "ul" [] [.element "li" [] [.text "a".toList]],
   .element "b" [] [.element "a" [("href", "https://example.org")] [.text "b".toList]]]

/-- An item that holds a list and blank text. -/
def outerItem : List Node :=
  [.text "\n".toList, .element "ol" [] [.element "li" [] [.text "c".toList]]]

/-- A list in a quote, with an item of each sort and one that has a list further inside. -/
def quotedItems : List Node :=
  [.element "blockquote" []
    [.element "ul" []
      [.element "li" [] linkedItem, .element "li" [] outerItem,
       .element "li" []
        [.element "div" [] [.element "ul" [] [.element "li" [] [.text "d".toList]]]]]]]

/-- The context inside an unordered list. -/
def bulletContext : Context :=
  { ({} : Settings).context with scope := .unordered "- " }

/-- All items of the list but the second are annotated, and so are the items of the lists
    that have a bullet inside. -/
theorem bullets_quotedItems :
    (let text := (Body.ofContent {} (Content.ofNodes quotedItems)).text
      let items := Node.bulletItemsOf RenderStyle.standard .none 0 quotedItems
      List.Forall₂ (fun item r => item.mark.Opens text r)
          (items.filter fun item => Node.haveOwnText item.children)
          (text.tagged .unorderedListItem)
        ∧ (text.tagged .unorderedListItem).map (fun r => String.ofList (r.slice text.text))
          = ["• • ab", "• a", "• • d", "• d"])
      ∧ (renderOne (Content.ofNode (.element "li" [] linkedItem)) bulletContext [] none (.startAt 0)
          1).fragment.text.text = "- • ab".toList
      ∧ renderOne (Content.ofNode (.element "li" [] outerItem)) bulletContext [] none (.startAt 0) 1
        = renderItemBody bulletContext outerItem (.startAt 0) 1 := by
  obtain ⟨⟨hopens, -⟩, hrender, -⟩ := bullets_of_nodes {} RenderStyle.standard_keepsLinkContent
    quotedItems (by decide)
  obtain ⟨hlinked, -⟩ := hrender bulletContext "- " rfl [] linkedItem (by decide) [] none
    (.startAt 0) 1
  obtain ⟨-, hlist⟩ := hrender bulletContext "- " rfl [] outerItem (by decide) [] none
    (.startAt 0) 1
  refine ⟨⟨hopens, by decide +kernel⟩, ?_, hlist (by decide)⟩
  rw [hlinked (by decide)]
  decide +kernel

/-- The text that stands for an image gets no bullet. -/
example :
    let text := (Body.ofContent {} (Content.ofNodes [.element "ul" [] [.element "li" []
      [.element "img" [("src", "mxc://s/i"), ("alt", "a")] []]]])).text
    text.text = "a".toList ∧ text.tagged .unorderedListItem = [] := by
  decide

end MessageBody
