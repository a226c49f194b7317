import Mathlib.Data.List.Forall2
import MessageBody.Proofs.Encoding
import MessageBody.Proofs.SharedIds

/-! # Quotes, lists and list items

    Quotes, lists and list items are the blocks of a tree.  What other elements stand
    between them does not matter to how deep a block is or what number an item has, so
    `Block` leaves them out.  `Block.marks` tells which annotations the blocks call for, in
    the order in which they open, and how the text of each of them begins.  The walk makes
    these annotations and no others of their kinds, and no quote or list item is less deep
    than one around it. -/

namespace MessageBody

/-- A quote, a list or an item of a list, and the blocks inside it. -/
inductive Block where
  | quote (inside : List Block)
  | unorderedList (inside : List Block)
  /-- An ordered list and the number it starts with, if one is given. -/
  | orderedList (start : Option Int) (inside : List Block)
  /-- An item, the number it is given, if any, and whether it holds text outside of
      further lists. -/
  | item (value : Option Int) (hasText : Bool) (inside : List Block)

/-! ## The blocks of a tree -/

namespace Markup.Node

mutual

/-- The blocks in a node.  An element that is no block itself is replaced by what it shows;
    breaks, rules and images are void, they show nothing that is inside. -/
def blocks : Node → List Block
  | .text _ => []
  | .element name attributes children =>
      match name with
      | "blockquote" => [.quote (blocksOf children)]
      | "ul" => [.unorderedList (blocksOf children)]
      | "ol" => [.orderedList (Content.numberAttribute? "start" attributes) (blocksOf children)]
      | "li" =>
          [.item (Content.numberAttribute? "value" attributes)
            (Content.hasOwnText (Content.ofNodes children)) (blocksOf children)]
      | _ => if showsInside name attributes then blocksOf children else []

/-- The blocks in nodes, in document order. -/
def blocksOf : List Node → List Block
  | [] => []
  | node :: nodes => node.blocks ++ blocksOf nodes

end

end Markup.Node

namespace Content

open Markup

mutual

/-- The blocks in a piece of content. -/
def blocks : Content → List Block
  | .text _ | .lineBreak | .image _ | .rule => []
  | .quote children => [.quote (blocksOf children)]
  | .unorderedList children => [.unorderedList (blocksOf children)]
  | .orderedList start children => [.orderedList start (blocksOf children)]
  | .listItem value children => [.item value (hasOwnText children) (blocksOf children)]
  | .details before summary after => blocksOf before ++ (blocksOf summary ++ blocksOf after)
  | .emphasis _ children | .code children | .span _ children | .anchor _ children
  | .foreignImage children | .heading _ children | .paragraph _ children
  | .preformatted children | .unsupported _ children => blocksOf children

/-- The blocks in pieces of content, in document order. -/
def blocksOf : List Content → List Block
  | [] => []
  | c :: cs => c.blocks ++ blocksOf cs

end

/-- The blocks of two parts come one after the other. -/
theorem blocksOf_append (as bs : List Content) :
    blocksOf (as ++ bs) = blocksOf as ++ blocksOf bs := by
  induction as with
  | nil => rfl
  | cons a as ih => rw [List.cons_append, blocksOf, blocksOf, ih, List.append_assoc]

/-- A details element has the blocks of its content, whichever part they are in. -/
theorem blocks_detailsOf (cs : List Content) : (detailsOf cs).blocks = blocksOf cs := by
  have hparts : cs.takeWhile (fun c => !c.isSummary) ++ cs.dropWhile (fun c => !c.isSummary) = cs :=
    List.takeWhile_append_dropWhile
  unfold detailsOf
  extract_lets before
  split
  · rename_i summary after hdrop
    split
    · rw [blocks]
    · rw [hdrop] at hparts
      rw [← hparts, blocksOf_append]
      simp only [blocks, blocksOf, List.append_nil]
      rfl
  · rw [blocks]

/-- A dropped line break is no block. -/
theorem blocksOf_withoutFirstBreak (cs : List Content) :
    blocksOf (withoutFirstBreak cs) = blocksOf cs := by
  unfold withoutFirstBreak
  split
  · split <;> simp only [blocksOf, blocks, List.nil_append]
  · rfl

/-- An element is a block, or it shows the blocks inside it, or nothing. -/
theorem blocks_ofElement (name : String) (attributes : List (String × String))
    {children : List Node} (h : blocksOf (ofNodes children) = Node.blocksOf children) :
    (ofElement name attributes (ofNodes children)).blocks
      = (Node.element name attributes children).blocks := by
  unfold ofElement
  split
  case h_21 => simp [blocks_detailsOf, Node.blocks, Node.showsInside, h]
  case h_24 =>
    cases himage : imageInfo? attributes with
    | some info => simp [blocks, Node.blocks, Node.showsInside, himage]
    | none => simp [blocks, Node.blocks, Node.showsInside, himage, h]
  all_goals simp [blocks, Node.blocks, Node.showsInside, h, blocksOf_withoutFirstBreak]

mutual

/-- A node is understood with the blocks that its elements name. -/
theorem blocks_ofNode : (node : Node) → (ofNode node).blocks = node.blocks
  | .text data => by rw [ofNode, blocks, Node.blocks]
  | .element name attributes children => by
      rw [ofNode]
      exact blocks_ofElement name attributes (blocksOf_ofNodes children)

/-- The content of a tree has the blocks of the tree. -/
theorem blocksOf_ofNodes : (nodes : List Node) →
    blocksOf (ofNodes nodes) = Node.blocksOf nodes
  | [] => by rw [ofNodes, blocksOf, Node.blocksOf]
  | node :: nodes => by
      rw [ofNodes, blocksOf, Node.blocksOf, blocks_ofNode node, blocksOf_ofNodes nodes]

end

end Content

/-! ## Marks -/

/-- The kinds of annotation that mark a block. -/
def Tag.isBlock : Tag → Bool
  | .blockQuote | .unorderedList | .unorderedListItem | .orderedList | .orderedListItem => true
  | _ => false

/-- Whether an item is an annotation that marks a block. -/
def Item.isBlock (item : Item) : Bool :=
  item.tag?.any Tag.isBlock

/-- The annotation that a block calls for: its kind, how deep it is, and the characters
    that the text of the block begins with. -/
structure Mark where
  tag : Tag
  tag_isBlock : tag.isBlock = true
  depth : Nat
  label : List Char

namespace Mark

/-- The annotation itself. -/
def item (m : Mark) : Item :=
  .note m.tag (payloadOf m.depth)

/-- What a mark asks for is the annotation of a block. -/
theorem isBlock_item (m : Mark) : m.item.isBlock = true :=
  m.tag_isBlock

/-- The mark of a quote. -/
def quote (depth : Nat) : Mark :=
  ⟨.blockQuote, rfl, depth, []⟩

/-- The mark of a list. -/
def unorderedList (depth : Nat) : Mark :=
  ⟨.unorderedList, rfl, depth, []⟩

@[inherit_doc unorderedList]
def orderedList (depth : Nat) : Mark :=
  ⟨.orderedList, rfl, depth, []⟩

/-- The mark of an item whose text begins with `label`. -/
def unorderedItem (depth : Nat) (label : List Char) : Mark :=
  ⟨.unorderedListItem, rfl, depth, label⟩

@[inherit_doc unorderedItem]
def orderedItem (depth : Nat) (label : List Char) : Mark :=
  ⟨.orderedListItem, rfl, depth, label⟩

end Mark

/-- The number of an item of an ordered list as it is shown. -/
def numberLabel (n : Int) : List Char :=
  (toString n).toList ++ ['.', ' ']

namespace Block

/-- The number after that of an item, which only an ordered list counts. -/
def nextAfterItem (scope : ListScope) (value : Option Int) (next : Int) : Int :=
  match scope with
  | .none | .unordered _ => next
  | .ordered => value.getD next + 1

mutual

/-- The number of the item after a block, where `next` is that of the first item in it.
    A list leaves the number around it as it is. -/
def nextAfter (scope : ListScope) (next : Int) : Block → Int
  | .quote inside => nextAfterAll scope next inside
  | .unorderedList _ | .orderedList _ _ => next
  | .item value _ inside => nextAfterAll scope (nextAfterItem scope value next) inside

/-- The number of the item after blocks. -/
def nextAfterAll (scope : ListScope) (next : Int) : List Block → Int
  | [] => next
  | b :: bs => nextAfterAll scope (nextAfter scope next b) bs

end

mutual

/-- The marks of a block and of those inside it, in the order in which they open, where
    `depth` quotes and list items are around it. -/
def marks (style : RenderStyle) (scope : ListScope) (depth : Nat) (next : Int) : Block → List Mark
  | .quote inside => .quote (depth + 1) :: marksOf style scope (depth + 1) next inside
  | .unorderedList inside =>
      .unorderedList depth :: marksOf style (.unordered (style.bullet depth)) depth next inside
  | .orderedList start inside =>
      .orderedList depth :: marksOf style .ordered depth (start.getD 1) inside
  | .item value hasText inside =>
      match scope with
      | .none => marksOf style .none depth next inside
      | .unordered bullet =>
          (if hasText then [.unorderedItem depth bullet.toList] else [])
            ++ marksOf style (.unordered bullet) (depth + 1) next inside
      | .ordered =>
          .orderedItem depth (numberLabel (value.getD next))
            :: marksOf style .ordered (depth + 1) (value.getD next + 1) inside

/-- The marks of blocks and of those inside them. -/
def marksOf (style : RenderStyle) (scope : ListScope) (depth : Nat) (next : Int) :
    List Block → List Mark
  | [] => []
  | b :: bs =>
      b.marks style scope depth next ++ marksOf style scope depth (b.nextAfter scope next) bs

end

section Append

variable (style : RenderStyle) (scope : ListScope) (depth : Nat)

/-- The number of the next item is handed on from part to part. -/
theorem nextAfterAll_append (next : Int) (as bs : List Block) :
    nextAfterAll scope next (as ++ bs) = nextAfterAll scope (nextAfterAll scope next as) bs := by
  induction as generalizing next with
  | nil => rfl
  | cons a as ih => rw [List.cons_append, nextAfterAll, nextAfterAll, ih]

/-- The marks of the second part begin with the number that the first part leaves. -/
theorem marksOf_append (next : Int) (as bs : List Block) :
    marksOf style scope depth next (as ++ bs)
      = marksOf style scope depth next as
        ++ marksOf style scope depth (nextAfterAll scope next as) bs := by
  induction as generalizing next with
  | nil => rfl
  | cons a as ih =>
      rw [List.cons_append, marksOf, marksOf, nextAfterAll, ih, List.append_assoc]

end Append

end Block

/-! ## Texts with the marks of blocks -/

/-- What indents is a block. -/
theorem Tag.isBlock_of_indents {tag : Tag} (h : tag.indents = true) : tag.isBlock = true := by
  cases tag with
  | blockQuote | unorderedListItem | orderedListItem => rfl
  | _ => exact absurd h (by decide)

namespace Range

/-- A range is the annotation of a quote or a list item at depth `n`. -/
def IndentsTo (r : Range) (n : Nat) : Prop :=
  ∃ tag, tag.indents = true ∧ r.item = .note tag (payloadOf n)

/-- A range that indents is that of a block. -/
theorem IndentsTo.isBlock {r : Range} {n : Nat} (h : r.IndentsTo n) : r.item.isBlock = true := by
  obtain ⟨tag, htag, hitem⟩ := h
  rw [hitem]
  exact Tag.isBlock_of_indents htag

end Range

/-- Where a mark counts as a depth, that is its depth. -/
theorem Mark.depth_eq (m : Mark) {r : Range} (hr : r.item = m.item) {n : Nat}
    (hn : r.IndentsTo n) : m.depth = n := by
  obtain ⟨tag, -, hitem⟩ := hn
  rw [hr, Mark.item, Item.note.injEq] at hitem
  exact payloadOf_injective hitem.2

/-- A range of a text carries a mark, and the text in it begins with the label of the
    mark. -/
structure Mark.Opens (t : AnnotatedText) (m : Mark) (r : Range) : Prop where
  item_eq : r.item = m.item
  bounds : r.start ≤ r.stop ∧ r.stop ≤ t.length
  label_prefix : m.label <+: r.slice t.text

namespace Mark.Opens

variable {t : AnnotatedText} {m : Mark} {r : Range}

/-- A mark that is opened stays where it is when more text comes behind. -/
theorem append_left (h : m.Opens t r) (u : AnnotatedText) : m.Opens (t ++ u) r where
  item_eq := h.item_eq
  bounds := by
    rw [AnnotatedText.length_append]
    exact ⟨h.bounds.1, Nat.le_add_right_of_le h.bounds.2⟩
  label_prefix := by
    have hstands : StandsAt (t ++ u).text 0 t.text := (StandsAt.refl (t.text ++ u.text)).left
    have hslice := hstands.slice_shift h.bounds.1 h.bounds.2
    rw [Range.shift_zero] at hslice
    rw [hslice]
    exact h.label_prefix

/-- A mark that is opened moves with its text when more text comes in front. -/
theorem append_right (h : m.Opens t r) (s : AnnotatedText) :
    m.Opens (s ++ t) (r.shift s.length) where
  item_eq := h.item_eq
  bounds := by
    rw [AnnotatedText.length_append]
    exact ⟨Nat.add_le_add_left h.bounds.1 _, Nat.add_le_add_left h.bounds.2 _⟩
  label_prefix := by
    have hstands : StandsAt (s ++ t).text (0 + s.length) t.text :=
      (StandsAt.refl (s.text ++ t.text)).right
    rw [Nat.zero_add] at hstands
    rw [hstands.slice_shift h.bounds.1 h.bounds.2]
    exact h.label_prefix

/-- A mark that is opened stays where it is when an item is put around its text. -/
theorem marked (h : m.Opens t r) (item : Item) : m.Opens (t.marked item) r :=
  ⟨h.item_eq, h.bounds, h.label_prefix⟩

end Mark.Opens

namespace AnnotatedText

/-- The annotations of a text that mark blocks. -/
def blocks (t : AnnotatedText) : List Range :=
  t.ranges.filter fun r => r.item.isBlock

/-- The blocks of a text have the given marks, no quote or list item among them is less
    deep than `depth`, and none is less deep than one around it. -/
structure Laid (depth : Nat) (marks : List Mark) (t : AnnotatedText) : Prop where
  opened : List.Forall₂ (Mark.Opens t) marks t.blocks
  deep : ∀ r ∈ t.ranges, ∀ n, r.IndentsTo n → depth ≤ n
  nested : t.ranges.Pairwise fun r s =>
    r.stop ≤ s.start ∨ ∀ m n, r.IndentsTo m → s.IndentsTo n → m ≤ n

section Blocks

variable {t u : AnnotatedText} {depth : Nat} {marks marks' : List Mark}

/-- The blocks of the second text move behind those of the first. -/
theorem blocks_append : (t ++ u).blocks = t.blocks ++ u.blocks.map (Range.shift t.length) := by
  rw [blocks, ranges_append, List.filter_append, List.filter_map]
  rfl

/-- A block that is put around a text comes first. -/
theorem blocks_marked {item : Item} (h : item.isBlock = true) :
    (t.marked item).blocks = ⟨item, 0, t.length⟩ :: t.blocks :=
  List.filter_cons_of_pos h

/-- An item that is no block leaves the blocks as they are. -/
theorem blocks_marked_of_not {item : Item} (h : item.isBlock = false) :
    (t.marked item).blocks = t.blocks :=
  List.filter_cons_of_neg (Bool.eq_false_iff.mp h)

/-- A text without block items has no blocks. -/
theorem blocks_eq_nil (h : t.ItemsSatisfy fun item => item.isBlock = false) : t.blocks = [] := by
  rw [blocks, List.filter_eq_nil_iff]
  intro r hr
  rw [h r hr]
  exact Bool.false_ne_true

/-- The label of a mark around a text that it begins stands at its front. -/
theorem opens_marked {m : Mark} (hlabel : m.label <+: t.text) :
    m.Opens (t.marked m.item) ⟨m.item, 0, t.length⟩ where
  item_eq := rfl
  bounds := ⟨Nat.zero_le _, Nat.le_refl _⟩
  label_prefix := by
    rw [Range.slice, List.drop_zero, Nat.sub_zero, text_marked, length, List.take_length]
    exact hlabel

namespace Laid

/-- A quote or a list item ends in the text. -/
theorem stop_le (h : t.Laid depth marks) {r : Range} (hr : r ∈ t.ranges) {n : Nat}
    (hn : r.IndentsTo n) : r.stop ≤ t.length := by
  have hall : ∀ {ms : List Mark} {rs : List Range}, List.Forall₂ (Mark.Opens t) ms rs →
      ∀ r ∈ rs, r.stop ≤ t.length := by
    intro ms rs hopened
    induction hopened with
    | nil => exact List.forall_mem_nil _
    | cons hopens _ ih => exact List.forall_mem_cons.mpr ⟨hopens.bounds.2, ih⟩
  exact hall h.opened r (List.mem_filter.mpr ⟨hr, hn.isBlock⟩)

/-- A text in which no annotation marks a block. -/
theorem bare (h : t.ItemsSatisfy fun item => item.isBlock = false) : t.Laid depth [] where
  opened := by
    rw [blocks_eq_nil h]
    exact .nil
  deep := fun r hr n hn => Bool.noConfusion ((h r hr).symm.trans hn.isBlock)
  nested := List.pairwise_of_forall_mem_list fun r hr s _ =>
    Or.inr fun m n hm => Bool.noConfusion ((h r hr).symm.trans hm.isBlock)

/-- Characters alone are laid out without marks. -/
theorem plain (s : List Char) : (plain s).Laid depth [] :=
  bare (itemsSatisfy_plain s)

/-- No quote or list item is less deep than a smaller number either. -/
theorem mono (h : t.Laid depth marks) {depth' : Nat} (hle : depth' ≤ depth) :
    t.Laid depth' marks where
  opened := h.opened
  deep := fun r hr n hn => Nat.le_trans hle (h.deep r hr n hn)
  nested := h.nested

/-- Texts that are laid out one after the other have their marks one after the other. -/
theorem append (ht : t.Laid depth marks) (hu : u.Laid depth marks') :
    (t ++ u).Laid depth (marks ++ marks') where
  opened := by
    rw [blocks_append]
    refine List.rel_append (ht.opened.imp fun m r h => h.append_left u) ?_
    rw [List.forall₂_map_right_iff]
    exact hu.opened.imp fun m r h => h.append_right t
  deep := by
    intro r hr n hn
    rcases List.mem_append.mp hr with hr | hr
    · exact ht.deep r hr n hn
    · obtain ⟨r', hr', rfl⟩ := List.mem_map.mp hr
      exact hu.deep r' hr' n hn
  nested := by
    rw [ranges_append]
    refine List.pairwise_append.mpr ⟨ht.nested, ?_, ?_⟩
    · refine hu.nested.map _ fun r s h => h.imp_left fun hle => ?_
      exact Nat.add_le_add_left hle t.length
    · intro r hr s hs
      obtain ⟨s', -, rfl⟩ := List.mem_map.mp hs
      -- what comes from the second text is behind the end of the first
      by_cases hdeep : ∃ m, r.IndentsTo m
      · obtain ⟨m, hm⟩ := hdeep
        exact Or.inl (Nat.le_trans (ht.stop_le hr hm) (Nat.le_add_right ..))
      · exact Or.inr fun m n hm => absurd ⟨m, hm⟩ hdeep

/-- Characters in front of a text change none of its blocks. -/
theorem after (h : t.Laid depth marks) (s : List Char) :
    (AnnotatedText.plain s ++ t).Laid depth marks :=
  (Laid.plain s).append h

/-- Characters behind a text change none of its blocks. -/
theorem before (h : t.Laid depth marks) (s : List Char) :
    (t ++ AnnotatedText.plain s).Laid depth marks := by
  have happend := h.append (Laid.plain s)
  rw [List.append_nil] at happend
  exact happend

/-- An annotation of another kind around a text changes no block. -/
theorem marked_of_not (h : t.Laid depth marks) {item : Item} (hitem : item.isBlock = false) :
    (t.marked item).Laid depth marks where
  opened := by
    rw [blocks_marked_of_not hitem]
    exact h.opened.imp fun m r h => h.marked item
  deep := by
    intro r hr n hn
    rcases List.mem_cons.mp hr with rfl | hr
    · exact Bool.noConfusion (hitem.symm.trans hn.isBlock)
    · exact h.deep r hr n hn
  nested := List.pairwise_cons.mpr ⟨fun s _ => Or.inr fun m n hm =>
    Bool.noConfusion (hitem.symm.trans hm.isBlock), h.nested⟩

/-- A block around a text; a quote or a list item is no deeper than what is inside it. -/
theorem marked {inner : Nat} (h : t.Laid inner marks) {m : Mark} (hlabel : m.label <+: t.text)
    (hdepth : depth ≤ m.depth) (hinner : m.depth ≤ inner) :
    (t.marked m.item).Laid depth (m :: marks) where
  opened := by
    rw [blocks_marked m.isBlock_item]
    exact .cons (opens_marked hlabel) (h.opened.imp fun m' r h => h.marked m.item)
  deep := by
    intro r hr n hn
    rcases List.mem_cons.mp hr with rfl | hr
    · exact m.depth_eq rfl hn ▸ hdepth
    · exact Nat.le_trans (Nat.le_trans hdepth hinner) (h.deep r hr n hn)
  nested := by
    -- the new range comes first and reaches everywhere, and nothing inside is less deep than it
    refine List.pairwise_cons.mpr ⟨fun s hs => Or.inr fun k n hk hn => ?_, h.nested⟩
    rw [← m.depth_eq rfl hk]
    exact Nat.le_trans hinner (h.deep s hs n hn)

/-- The ranges that have the marks of one kind are the annotations of that kind. -/
theorem opens_filter (h : t.Laid depth marks) {tag : Tag} (hblock : tag.isBlock = true) :
    List.Forall₂ (Mark.Opens t) (marks.filter (·.tag == tag)) (t.tagged tag) := by
  have htagged : t.blocks.filter (fun r => r.item.tag? == some tag) = t.tagged tag := by
    rw [blocks, List.filter_filter]
    refine List.filter_congr fun r _ => ?_
    rw [Bool.and_eq_left_iff_imp, beq_iff_eq]
    intro htag
    rw [Item.isBlock, htag]
    exact hblock
  rw [← htagged]
  refine List.rel_filter (fun m r hopens => ?_) h.opened
  have htag : r.item.tag? = some m.tag := by
    rw [hopens.item_eq]
    rfl
  simp [htag]

end Laid

end Blocks

end AnnotatedText

/-! ## The walk -/

section Walk

open AnnotatedText Block

theorem nextAfterAll_singleton (scope : ListScope) (next : Int) (b : Block) :
    nextAfterAll scope next [b] = b.nextAfter scope next := by
  rw [nextAfterAll, nextAfterAll]

theorem marksOf_singleton (style : RenderStyle) (scope : ListScope) (depth : Nat) (next : Int)
    (b : Block) : marksOf style scope depth next [b] = b.marks style scope depth next := by
  rw [marksOf, marksOf, List.append_nil]

/-- The line breaks of a paragraph do not count items. -/
theorem next_closeParagraph (ctx : Context) (isDivision : Bool) (ahead : List Content)
    (body : Rendered) : (closeParagraph ctx isDivision ahead body).next = body.next := by
  rw [closeParagraph]
  split <;> rfl

theorem next_closePreformatted (ctx : Context) (ahead : List Content) (position : Cursor)
    (body : Rendered) : (closePreformatted ctx ahead position body).next = body.next := by
  rw [closePreformatted]
  split <;> rfl

theorem next_closeAnchor (ctx : Context) (address : String) (link? : Option DeepLink)
    (body : Rendered) : (closeAnchor ctx address link? body).next = body.next := by
  cases link? <;> rfl

/-- What a details element hides hands the number on, also where there is nothing. -/
theorem next_hideContent (id : String) (content : List Content) {scope : ListScope} {next : Int}
    {body : Rendered} (h : body.next = nextAfterAll scope next (Content.blocksOf content)) :
    (hideContent id content next body).next
      = nextAfterAll scope next (Content.blocksOf content) := by
  cases content with
  | nil => rfl
  | cons c cs => exact h

/-- The label of a list item comes with the number of the item after it. -/
theorem itemLabel?_next (ctx : Context) (value : Option Int) (next : Int) :
    itemLabel? ctx value next = none ∧ nextAfterItem ctx.scope value next = next
      ∨ ∃ label tag, itemLabel? ctx value next
        = some (label, tag, nextAfterItem ctx.scope value next) := by
  rw [itemLabel?]
  cases ctx.scope with
  | none => exact Or.inl ⟨rfl, rfl⟩
  | unordered bullet => exact Or.inr ⟨_, _, rfl⟩
  | ordered => exact Or.inr ⟨_, _, rfl⟩

mutual

/-- The walk hands on the number of the item after a piece of content. -/
theorem renderOne_next : (c : Content) → (ctx : Context) → (ahead : List Content) →
    (previous : Option Trace) → (position : Cursor) → (next : Int) →
    (renderOne c ctx ahead previous position next).next = nextAfterAll ctx.scope next c.blocks
  | .text data, ctx, ahead, previous, position, next => by
      rw [renderOne, Content.blocks]
      split <;> rfl
  | .emphasis e children, ctx, _, _, position, next => by
      rw [renderOne, Content.blocks]
      exact renderAll_next children ctx none position next
  | .code children, ctx, _, _, position, next => by
      rw [renderOne, Content.blocks]
      split
      · exact renderAll_next children ctx none position next
      · exact renderAll_next children ctx none position next
  | .span look children, ctx, _, _, position, next => by
      rw [renderOne, Content.blocks]
      exact renderAll_next children ctx none position next
  | .anchor address children, ctx, _, _, position, next => by
      rw [renderOne, Content.blocks]
      refine (next_closeAnchor ..).trans ?_
      exact renderAll_next children { ctx with isLinked := true } none _ next
  | .lineBreak, ctx, ahead, previous, position, next => by
      rw [renderOne, Content.blocks]
      rfl
  | .image info, ctx, _, _, position, next => by
      rw [renderOne, Content.blocks]
      rfl
  | .foreignImage children, ctx, _, _, position, next => by
      rw [renderOne, Content.blocks]
      exact renderAll_next children ctx none position next
  | .heading level children, ctx, _, _, position, next => by
      rw [renderOne, Content.blocks]
      exact renderAll_next children ctx none position next
  | .paragraph isDivision children, ctx, ahead, previous, position, next => by
      rw [renderOne, Content.blocks]
      refine (next_closeParagraph ..).trans ?_
      exact renderAll_next children ctx none _ next
  | .quote children, ctx, _, _, position, next => by
      rw [renderOne, Content.blocks, nextAfterAll_singleton, nextAfter]
      exact renderAll_next children { ctx with depth := ctx.depth + 1 } none position next
  | .preformatted children, ctx, ahead, previous, position, next => by
      rw [renderOne, Content.blocks]
      refine (next_closePreformatted ..).trans ?_
      exact renderAll_next children { ctx with isPreformatted := true } none _ next
  | .rule, ctx, ahead, _, position, next => by
      rw [renderOne, Content.blocks]
      rfl
  | .details before summary after, ctx, _, previous, position, next => by
      rw [renderOne, Content.blocks, nextAfterAll_append, nextAfterAll_append]
      -- each part hands its number on to the next one
      have hbefore := next_hideContent (payloadOf position.offset) before
        (renderAll_next before ctx previous position next)
      generalize hideContent (payloadOf position.offset) before next
        (renderAll before ctx previous position next) = hiddenBefore at hbefore ⊢
      have hsummary := renderAll_next summary ctx none
        ((position.advance hiddenBefore.fragment.text).advance
          (.plain ctx.style.summaryPlaceholder.toList)) hiddenBefore.next
      rw [← hbefore, ← hsummary]
      exact next_hideContent _ after (renderAll_next after ctx (some .block) _ _)
  | .unorderedList children, ctx, _, _, position, next => by
      rw [renderOne, Content.blocks, nextAfterAll_singleton, nextAfter]
      rfl
  | .orderedList start children, ctx, _, _, position, next => by
      rw [renderOne, Content.blocks, nextAfterAll_singleton, nextAfter]
      rfl
  | .listItem value children, ctx, _, _, position, next => by
      rw [renderOne, Content.blocks, nextAfterAll_singleton, nextAfter]
      -- outside a list an item is only its content; in one, its label has the number as well
      rcases itemLabel?_next ctx value next with ⟨hlabel, hnext⟩ | ⟨label, tag, hlabel⟩
      · rw [hlabel, hnext]
        exact renderAll_next children ctx none position next
      · rw [hlabel]
        dsimp only
        split
        · exact renderAll_next children { ctx with depth := ctx.depth + 1 } none _ _
        · exact renderAll_next children { ctx with depth := ctx.depth + 1 } none _ _
  | .unsupported _ children, ctx, _, _, position, next => by
      rw [renderOne, Content.blocks]
      exact renderAll_next children ctx none position next

/-- The walk hands on the number of the item after pieces of content. -/
theorem renderAll_next : (cs : List Content) → (ctx : Context) → (previous : Option Trace) →
    (position : Cursor) → (next : Int) →
    (renderAll cs ctx previous position next).next
      = nextAfterAll ctx.scope next (Content.blocksOf cs)
  | [], ctx, previous, position, next => by
      rw [renderAll, Content.blocksOf, nextAfterAll]
  | c :: cs, ctx, previous, position, next => by
      rw [renderAll, Content.blocksOf, nextAfterAll_append,
        ← renderOne_next c ctx cs previous position next]
      exact renderAll_next cs ctx _ _ _

end

variable {ctx : Context} {depth : Nat} {marks : List Mark}

/-- What holds of every link that is no deep link, and of every deep link, holds of the link
    to an address. -/
theorem linkItem_cases {P : Item → Prop} (hweb : ∀ address, P (.note .webLink address))
    (hdeep : ∀ link : DeepLink, P (.note link.tag link.payload)) (address : List Char) :
    P (linkItem address) := by
  rw [linkItem]
  split
  · exact hdeep _
  · exact hweb _

/-- A deep link is no block. -/
theorem isBlock_deepLink (link : DeepLink) :
    (Item.note link.tag link.payload).isBlock = false := by
  cases link <;> rfl

/-- Running text has links and mentions, which are no blocks. -/
theorem laid_richText (style : RenderStyle) (allowMention autoLink : Bool) (s : List Char) :
    (richText style allowMention autoLink s).Laid depth [] := by
  have hlink : ∀ address, (linkItem address).isBlock = false :=
    linkItem_cases (P := fun item => item.isBlock = false) (fun _ => rfl) isBlock_deepLink
  exact .bare (itemsSatisfy_richText (P := fun item => item.isBlock = false) rfl hlink style
    allowMention autoLink s)

/-- The line breaks of a paragraph add no marks. -/
theorem laid_closeParagraph {isDivision : Bool} {ahead : List Content} {body : Rendered}
    (h : body.fragment.text.Laid depth marks) :
    (closeParagraph ctx isDivision ahead body).fragment.text.Laid depth marks := by
  rw [closeParagraph]
  split
  · exact h
  · exact h.before _

theorem laid_closePreformatted {ahead : List Content} {position : Cursor} {body : Rendered}
    (h : body.fragment.text.Laid depth marks) :
    (closePreformatted ctx ahead position body).fragment.text.Laid depth marks := by
  rw [closePreformatted]
  split
  · exact h
  · exact h.before _

/-- Under callbacks that keep the content of links, an anchor has the blocks of its
    content. -/
theorem laid_closeAnchor (hstyle : ctx.style.KeepsLinkContent) {address : String}
    {link? : Option DeepLink} {body : Rendered} (h : body.fragment.text.Laid depth marks) :
    (closeAnchor ctx address link? body).fragment.text.Laid depth marks := by
  cases link? with
  | none => exact h.marked_of_not rfl
  | some link =>
      rw [closeAnchor, Rendered.fragment_withTrace, Fragment.text_marked, linkText_eq hstyle]
      exact h.marked_of_not (isBlock_deepLink link)

/-- What is hidden keeps its marks, for details are no block. -/
theorem laid_hideContent (id : String) {content : List Content} {style : RenderStyle}
    {scope : ListScope} {next : Int} {body : Rendered}
    (h : body.fragment.text.Laid depth
      (marksOf style scope depth next (Content.blocksOf content))) :
    (hideContent id content next body).fragment.text.Laid depth
      (marksOf style scope depth next (Content.blocksOf content)) := by
  cases content with
  | nil => exact .plain []
  | cons c cs => exact h.marked_of_not rfl

mutual

/-- What the walk makes of a piece of content has the blocks of the content, as deep as the
    context says, and its items are numbered from `next` on. -/
theorem renderOne_laid : (c : Content) → (ctx : Context) → (ahead : List Content) →
    (previous : Option Trace) → (position : Cursor) → (next : Int) →
    ctx.style.KeepsLinkContent →
    (renderOne c ctx ahead previous position next).fragment.text.Laid ctx.depth
      (marksOf ctx.style ctx.scope ctx.depth next c.blocks)
  | .text data, ctx, ahead, previous, position, next, _ => by
      rw [renderOne, Content.blocks]
      split
      · exact .plain []
      · exact laid_richText ..
  | .emphasis e children, ctx, _, _, position, next, hstyle => by
      rw [renderOne, Content.blocks]
      exact (renderAll_laid children ctx none position next hstyle).marked_of_not rfl
  | .code children, ctx, _, _, position, next, hstyle => by
      rw [renderOne, Content.blocks]
      have hbody := renderAll_laid children ctx none position next hstyle
      split
      · exact hbody.marked_of_not rfl
      · exact hbody.marked_of_not rfl
  | .span look children, ctx, _, _, position, next, hstyle => by
      rw [renderOne, Content.blocks]
      exact (renderAll_laid children ctx none position next hstyle).marked_of_not rfl
  | .anchor address children, ctx, _, _, position, next, hstyle => by
      rw [renderOne, Content.blocks]
      exact laid_closeAnchor hstyle
        (renderAll_laid children { ctx with isLinked := true } none _ next hstyle)
  | .lineBreak, ctx, ahead, previous, position, next, _ => by
      rw [renderOne, Content.blocks]
      exact .plain _
  | .image info, ctx, _, _, position, next, _ => by
      rw [renderOne, Content.blocks]
      exact (Laid.plain _).marked_of_not rfl
  | .foreignImage children, ctx, _, _, position, next, hstyle => by
      rw [renderOne, Content.blocks]
      exact renderAll_laid children ctx none position next hstyle
  | .heading level children, ctx, _, _, position, next, hstyle => by
      rw [renderOne, Content.blocks]
      exact (renderAll_laid children ctx none position next hstyle).marked_of_not rfl
  | .paragraph isDivision children, ctx, ahead, previous, position, next, hstyle => by
      rw [renderOne, Content.blocks]
      exact (laid_closeParagraph (renderAll_laid children ctx none _ next hstyle)).after _
  | .quote children, ctx, _, _, position, next, hstyle => by
      rw [renderOne, Content.blocks, marksOf_singleton, Block.marks]
      have hbody := renderAll_laid children { ctx with depth := ctx.depth + 1 } none position next
        hstyle
      exact hbody.marked (m := .quote (ctx.depth + 1)) List.nil_prefix
        (Nat.le_succ _) (Nat.le_refl _)
  | .preformatted children, ctx, ahead, previous, position, next, hstyle => by
      rw [renderOne, Content.blocks]
      exact (laid_closePreformatted
        (renderAll_laid children { ctx with isPreformatted := true } none _ next hstyle)).after _
  | .rule, ctx, ahead, _, position, next, _ => by
      rw [renderOne, Content.blocks]
      exact (((Laid.plain ruleText).marked_of_not rfl).after _).before _
  | .details before summary after, ctx, _, previous, position, next, hstyle => by
      rw [renderOne, Content.blocks, marksOf_append, marksOf_append]
      have hnext := next_hideContent (payloadOf position.offset) before
        (renderAll_next before ctx previous position next)
      have hbefore := laid_hideContent (payloadOf position.offset)
        (renderAll_laid before ctx previous position next hstyle)
      generalize hideContent (payloadOf position.offset) before next
        (renderAll before ctx previous position next) = hiddenBefore at hnext hbefore ⊢
      have hnumber := renderAll_next summary ctx none
        ((position.advance hiddenBefore.fragment.text).advance
          (.plain ctx.style.summaryPlaceholder.toList)) hiddenBefore.next
      have hsummary := renderAll_laid summary ctx none
        ((position.advance hiddenBefore.fragment.text).advance
          (.plain ctx.style.summaryPlaceholder.toList)) hiddenBefore.next hstyle
      rw [← hnext, ← hnumber, ← List.append_assoc]
      refine (hbefore.append ((hsummary.after _).marked_of_not rfl)).append ?_
      exact laid_hideContent _ (renderAll_laid after ctx (some .block) _ _ hstyle)
  | .unorderedList children, ctx, _, _, position, next, hstyle => by
      rw [renderOne, Content.blocks, marksOf_singleton, Block.marks]
      have hbody := renderAll_laid children
        { ctx with scope := .unordered (ctx.style.bullet ctx.depth) } none position next hstyle
      exact hbody.marked (m := .unorderedList ctx.depth) List.nil_prefix
        (Nat.le_refl _) (Nat.le_refl _)
  | .orderedList start children, ctx, _, _, position, next, hstyle => by
      rw [renderOne, Content.blocks, marksOf_singleton, Block.marks]
      have hbody := renderAll_laid children { ctx with scope := .ordered } none position
        (start.getD 1) hstyle
      exact hbody.marked (m := .orderedList ctx.depth) List.nil_prefix
        (Nat.le_refl _) (Nat.le_refl _)
  | .listItem value children, ctx, _, _, position, next, hstyle => by
      rw [renderOne, Content.blocks, marksOf_singleton]
      -- where the inside begins depends on the label, but the marks in it do not
      have hbody : ∀ start number, (renderAll children { ctx with depth := ctx.depth + 1 } none
          start number).fragment.text.Laid (ctx.depth + 1)
          (marksOf ctx.style ctx.scope (ctx.depth + 1) number (Content.blocksOf children)) :=
        fun start number => renderAll_laid children { ctx with depth := ctx.depth + 1 } none start
          number hstyle
      cases hscope : ctx.scope with
      | none =>
          simp only [itemLabel?, hscope, Block.marks]
          exact hscope ▸ renderAll_laid children ctx none position next hstyle
      | unordered bullet =>
          simp only [hscope] at hbody
          simp only [itemLabel?, hscope, Block.marks]
          cases Content.hasOwnText children with
          | false => exact (hbody _ _).mono (Nat.le_succ _)
          | true =>
              exact ((hbody _ _).after _).marked
                (m := .unorderedItem ctx.depth bullet.toList) (List.prefix_append ..)
                (Nat.le_refl _) (Nat.le_succ _)
      | ordered =>
          simp only [hscope] at hbody
          simp only [itemLabel?, hscope, Block.marks]
          exact ((hbody _ _).after _).marked
            (m := .orderedItem ctx.depth (numberLabel (value.getD next)))
            (List.prefix_append ..) (Nat.le_refl _) (Nat.le_succ _)
  | .unsupported _ children, ctx, _, _, position, next, hstyle => by
      rw [renderOne, Content.blocks]
      exact renderAll_laid children ctx none position next hstyle

/-- What the walk makes of pieces of content has the blocks of the content. -/
theorem renderAll_laid : (cs : List Content) → (ctx : Context) → (previous : Option Trace) →
    (position : Cursor) → (next : Int) → ctx.style.KeepsLinkContent →
    (renderAll cs ctx previous position next).fragment.text.Laid ctx.depth
      (marksOf ctx.style ctx.scope ctx.depth next (Content.blocksOf cs))
  | [], ctx, previous, position, next, _ => by
      rw [renderAll, Content.blocksOf, marksOf]
      exact .plain []
  | c :: cs, ctx, previous, position, next, hstyle => by
      rw [renderAll, Content.blocksOf, marksOf_append,
        ← renderOne_next c ctx cs previous position next]
      exact (renderOne_laid c ctx cs previous position next hstyle).append
        (renderAll_laid cs ctx _ _ _ hstyle)

end

end Walk

namespace Body

/-- The text of the body of a tree has the blocks of the tree, with nothing around them. -/
theorem laid_ofContent {settings : Settings} (hstyle : settings.style.KeepsLinkContent)
    (nodes : List Markup.Node) :
    (ofContent settings (Content.ofNodes nodes)).text.Laid 0
      (Block.marksOf settings.style .none 0 1 (Markup.Node.blocksOf nodes)) := by
  rw [← Content.blocksOf_ofNodes]
  exact renderAll_laid _ settings.context none (.startAt 0) 1 hstyle

end Body

end MessageBody
