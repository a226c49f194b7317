import MessageBody.Proofs.Blocks

/-! # How deep blocks are

    The walk hands a depth on from block to block.  What it comes to is a count of blocks
    around: a quote counts, and an item counts if there is a list around it, whether the
    item is annotated or not.  Nothing else counts, neither a list nor an item that stands
    alone nor what comes before. -/

namespace MessageBody

namespace Block

/-- The list that stands most closely around something, ordered or not, and the blocks
    around that list; blocks are given from the innermost on. -/
def listAround : List Block → Option (Bool × List Block)
  | [] => none
  | .unorderedList _ :: outer => some (false, outer)
  | .orderedList _ _ :: outer => some (true, outer)
  | .quote _ :: outer | .item _ _ _ :: outer => listAround outer

/-- How many of the blocks around something are quotes, or items with a list around
    them. -/
def depthIn : List Block → Nat
  | [] => 0
  | .quote _ :: outer => depthIn outer + 1
  | .item _ _ _ :: outer => if (listAround outer).isSome then depthIn outer + 1 else depthIn outer
  | .unorderedList _ :: outer | .orderedList _ _ :: outer => depthIn outer

/-- A block and the blocks around it, from the innermost on. -/
structure Site where
  block : Block
  around : List Block

mutual

/-- A block and the blocks inside it, in document order. -/
def sites (around : List Block) : Block → List Site
  | .quote inside => ⟨.quote inside, around⟩ :: sitesOf (.quote inside :: around) inside
  | .unorderedList inside =>
      ⟨.unorderedList inside, around⟩ :: sitesOf (.unorderedList inside :: around) inside
  | .orderedList start inside =>
      ⟨.orderedList start inside, around⟩ :: sitesOf (.orderedList start inside :: around) inside
  | .item value hasText inside =>
      ⟨.item value hasText inside, around⟩ :: sitesOf (.item value hasText inside :: around) inside

/-- Blocks and the blocks inside them, in document order. -/
def sitesOf (around : List Block) : List Block → List Site
  | [] => []
  | b :: bs => b.sites around ++ sitesOf around bs

end

/-- The mark that a block calls for where it stands.  An item of an unordered list has the
    bullet of that list, and no mark if all it holds is further lists; an item outside of
    lists has none either. -/
def Site.mark? (style : RenderStyle) (s : Site) : Option Mark :=
  match s.block with
  | .quote _ => some (.quote (depthIn s.around + 1))
  | .unorderedList _ => some (.unorderedList (depthIn s.around))
  | .orderedList _ _ => some (.orderedList (depthIn s.around))
  | .item _ hasText _ =>
      match listAround s.around with
      | none => none
      | some (true, _) => some (.orderedItem (depthIn s.around) [])
      | some (false, outer) =>
          if hasText then
            some (.unorderedItem (depthIn s.around) (style.bullet (depthIn outer)).toList)
          else none

/-! ## The walk -/

/-- The list that content stands in where the given blocks are around it. -/
def scopeIn (style : RenderStyle) (around : List Block) : ListScope :=
  match listAround around with
  | none => .none
  | some (true, _) => .ordered
  | some (false, outer) => .unordered (style.bullet (depthIn outer))

end Block

/-- The second mark is the first with perhaps more at the end of its label. -/
def Mark.ExtendsTo (m m' : Mark) : Prop :=
  m.item = m'.item ∧ m.label <+: m'.label

/-- A mark says all that is known of itself. -/
theorem Mark.extendsTo_self (m : Mark) : m.ExtendsTo m :=
  ⟨rfl, List.prefix_rfl⟩

/-- What has longer labels has the shorter ones too. -/
theorem Mark.opens_of_extendsTo {t : AnnotatedText} {ms ms' : List Mark} {rs : List Range}
    (h : List.Forall₂ ExtendsTo ms ms') (hopens : List.Forall₂ (Opens t) ms' rs) :
    List.Forall₂ (Opens t) ms rs := by
  induction h generalizing rs with
  | nil => exact hopens
  | cons hm _ ih =>
      obtain ⟨r, rs', hr, hrs, rfl⟩ := List.forall₂_cons_left_iff.mp hopens
      exact .cons ⟨hr.item_eq.trans hm.1.symm, hr.bounds, hm.2.trans hr.label_prefix⟩ (ih hrs)

namespace Block

variable {style : RenderStyle}

mutual

/-- The depths that are handed on are those that the blocks around make up. -/
theorem marks_sites : (b : Block) → (around : List Block) → (next : Int) →
    List.Forall₂ Mark.ExtendsTo ((b.sites around).filterMap (Site.mark? style))
      (b.marks style (scopeIn style around) (depthIn around) next)
  | .quote inside, around, next => by
      rw [sites, marks]
      exact .cons (Mark.extendsTo_self _) (marksOf_sites inside (.quote inside :: around) next)
  | .unorderedList inside, around, next => by
      rw [sites, marks]
      exact .cons (Mark.extendsTo_self _)
        (marksOf_sites inside (.unorderedList inside :: around) next)
  | .orderedList start inside, around, next => by
      rw [sites, marks]
      exact .cons (Mark.extendsTo_self _)
        (marksOf_sites inside (.orderedList start inside :: around) (start.getD 1))
  | .item value hasText inside, around, next => by
      -- which number the inside begins with is only known once the list of the item is
      have hinside := fun next => marksOf_sites inside (.item value hasText inside :: around) next
      rw [sites, scopeIn]
      rw [scopeIn, listAround, depthIn] at hinside
      cases hlist : listAround around with
      | none =>
          simp only [hlist] at hinside
          simp only [marks, List.filterMap_cons, Site.mark?, hlist]
          exact hinside next
      | some list =>
          obtain ⟨isOrdered, outer⟩ := list
          simp only [hlist, Option.isSome_some, if_true] at hinside
          cases isOrdered with
          | true =>
              simp only [marks, List.filterMap_cons, Site.mark?, hlist]
              exact .cons ⟨rfl, List.nil_prefix⟩ (hinside _)
          | false =>
              cases hasText with
              | true =>
                  simp only [marks, List.filterMap_cons, Site.mark?, hlist, if_true]
                  exact .cons (Mark.extendsTo_self _) (hinside next)
              | false =>
                  simp only [marks, List.filterMap_cons, Site.mark?, hlist]
                  exact hinside next

/-- The blocks of a tree, each seen from the blocks around it, are marked as the recursion over
    the blocks marks them. -/
theorem marksOf_sites : (bs : List Block) → (around : List Block) → (next : Int) →
    List.Forall₂ Mark.ExtendsTo ((sitesOf around bs).filterMap (Site.mark? style))
      (marksOf style (scopeIn style around) (depthIn around) next bs)
  | [], around, next => by
      rw [sitesOf, marksOf]
      exact .nil
  | b :: bs, around, next => by
      rw [sitesOf, marksOf, List.filterMap_append]
      exact List.rel_append (marks_sites b around next) (marksOf_sites bs around _)

end

end Block

/-! ## Message bodies -/

/-- **Nesting depths**: the annotations of quotes, lists and list items in the body of a
    tree are those that its blocks call for where they stand, one for each and in document
    order, and every item of an unordered list begins with the bullet for the depth of that
    list. -/
theorem blocks_of_nodes (settings : Settings) (hstyle : settings.style.KeepsLinkContent)
    (nodes : List Markup.Node) :
    let text := (Body.ofContent settings (Content.ofNodes nodes)).text
    List.Forall₂ (Mark.Opens text)
      ((Block.sitesOf [] (Markup.Node.blocksOf nodes)).filterMap
        (Block.Site.mark? settings.style)) text.blocks :=
  Mark.opens_of_extendsTo (Block.marksOf_sites _ [] 1) (Body.laid_ofContent hstyle nodes).opened

/-- Settings under which bullets show their depth. -/
def depthBullets : Settings :=
  { style := { RenderStyle.standard with bullet := fun depth => toString depth ++ ") " } }

/-- A list in a quote in a list item, with an item between that only holds a further list,
    and an item outside of lists. -/
def nestedBlocks : List Markup.Node :=
  [.element "ul" []
    [.element "li" []
      [.text "a".toList,
       .element "blockquote" []
        [.element "ul" [] [.element "li" []
          [.element "ol" [] [.element "li" [] [.text "b".toList]]]]]],
     .element "li" [] [.text "c".toList]],
   .element "li" [] [.element "blockquote" [] [.text "d".toList]]]

/-- Lists and quotes in one another have the depths and bullets of the blocks around them. -/
theorem blocks_nestedBlocks :
    depthBullets.style.KeepsLinkContent
      ∧ List.Forall₂ (Mark.Opens (Body.ofContent depthBullets (Content.ofNodes nestedBlocks)).text)
        ((Block.sitesOf [] (Markup.Node.blocksOf nestedBlocks)).filterMap
          (Block.Site.mark? depthBullets.style))
        (Body.ofContent depthBullets (Content.ofNodes nestedBlocks)).text.blocks
      ∧ ((Block.sitesOf [] (Markup.Node.blocksOf nestedBlocks)).filterMap
          (Block.Site.mark? depthBullets.style)).map
            (fun m => (m.tag, m.depth, String.ofList m.label))
        = [(.unorderedList, 0, ""), (.unorderedListItem, 0, "0) "), (.blockQuote, 2, ""),
          (.unorderedList, 2, ""), (.orderedList, 3, ""), (.orderedListItem, 3, ""),
          (.unorderedListItem, 0, "0) "), (.blockQuote, 1, "")] := by
  have hstyle : depthBullets.style.KeepsLinkContent :=
    ⟨fun _ _ => rfl, fun _ _ _ => rfl, fun _ _ _ _ => rfl⟩
  exact ⟨hstyle, blocks_of_nodes depthBullets hstyle nestedBlocks, by decide +kernel⟩

end MessageBody
