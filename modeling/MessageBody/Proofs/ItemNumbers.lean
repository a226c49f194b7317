import MessageBody.Proofs.Blocks

/-! # The numbers of list items

    The walk hands the number of the next item on from piece to piece.  What it comes to is
    that every ordered list counts its own items and nothing else: those that have no
    further list between them and it, however deep they are inside, in document order. -/

namespace MessageBody

/-! ## Counting -/

/-- The numbers of items in a row: the number that an item is given, and otherwise one more
    than that of the item before, or `next` for the first. -/
def numbersFrom (next : Int) : List (Option Int) → List Int
  | [] => []
  | value :: values => value.getD next :: numbersFrom (value.getD next + 1) values

/-- The number of the item after a row of items. -/
def numberAfter (next : Int) : List (Option Int) → Int
  | [] => next
  | value :: values => numberAfter (value.getD next + 1) values

/-- The items of a second part are numbered on from the first. -/
theorem numbersFrom_append (next : Int) (values values' : List (Option Int)) :
    numbersFrom next (values ++ values')
      = numbersFrom next values ++ numbersFrom (numberAfter next values) values' := by
  induction values generalizing next with
  | nil => rfl
  | cons value values ih => rw [List.cons_append, numbersFrom, numbersFrom, ih]; rfl

/-- The number after two parts is that after the second, numbered on from the first. -/
theorem numberAfter_append (next : Int) (values values' : List (Option Int)) :
    numberAfter next (values ++ values') = numberAfter (numberAfter next values) values' := by
  induction values generalizing next with
  | nil => rfl
  | cons value values ih => rw [List.cons_append, numberAfter, numberAfter, ih]

/-- The texts of items begin with their numbers, counted from `next` on; every item comes
    with the number it is given, if any. -/
def CountsFrom (t : AnnotatedText) (next : Int) (items : List (Option Int × Range)) : Prop :=
  List.Forall₂ (fun n r => numberLabel n <+: r.slice t.text)
    (numbersFrom next (items.map Prod.fst)) (items.map Prod.snd)

namespace CountsFrom

variable {t : AnnotatedText} {next : Int}

theorem nil : CountsFrom t next [] :=
  List.Forall₂.nil

/-- An item with its number in front of items that count on from it. -/
theorem cons {value : Option Int} {r : Range} {items : List (Option Int × Range)}
    (hr : numberLabel (value.getD next) <+: r.slice t.text)
    (h : CountsFrom t (value.getD next + 1) items) : CountsFrom t next ((value, r) :: items) :=
  List.Forall₂.cons hr h

/-- Items that count on from others count with them. -/
theorem append {items items' : List (Option Int × Range)} (h : CountsFrom t next items)
    (h' : CountsFrom t (numberAfter next (items.map Prod.fst)) items') :
    CountsFrom t next (items ++ items') := by
  rw [CountsFrom, List.map_append, List.map_append, numbersFrom_append]
  exact List.rel_append h h'

end CountsFrom

/-! ## Items and their lists -/

namespace Block

mutual

/-- The ranges `rs` are those of the items of ordered lists in a block, one for each and in
    document order.  The items whose list is the one around the block are `own`; every
    ordered list inside the block counts those whose list it is. -/
def NumberedBy (t : AnnotatedText) (inOrdered : Bool) :
    Block → (rs : List Range) → (own : List (Option Int × Range)) → Prop
  | .quote inside, rs, own => NumberedByAll t inOrdered inside rs own
  | .unorderedList inside, rs, own => own = [] ∧ NumberedByAll t false inside rs []
  | .orderedList start inside, rs, own =>
      own = [] ∧ ∃ items, NumberedByAll t true inside rs items ∧ CountsFrom t (start.getD 1) items
  | .item value _ inside, rs, own =>
      if inOrdered then
        ∃ r rs' own', rs = r :: rs' ∧ own = (value, r) :: own'
          ∧ NumberedByAll t true inside rs' own'
      else NumberedByAll t false inside rs own

/-- The ranges `rs` are those of the items of ordered lists in blocks. -/
def NumberedByAll (t : AnnotatedText) (inOrdered : Bool) :
    List Block → (rs : List Range) → (own : List (Option Int × Range)) → Prop
  | [], rs, own => rs = [] ∧ own = []
  | b :: bs, rs, own =>
      ∃ rs₁ rs₂ own₁ own₂, rs = rs₁ ++ rs₂ ∧ own = own₁ ++ own₂
        ∧ b.NumberedBy t inOrdered rs₁ own₁ ∧ NumberedByAll t inOrdered bs rs₂ own₂

end

/-! ## The walk -/

/-- The marks of items of ordered lists among marks. -/
def numberedMarks (ms : List Mark) : List Mark :=
  ms.filter fun m => m.tag == .orderedListItem

/-- What stands in a list of the given kind, or in none, makes up `own` and counts them
    from `next` on. -/
structure Counts (t : AnnotatedText) (scope : ListScope) (next after : Int)
    (own : List (Option Int × Range)) : Prop where
  counted : CountsFrom t next own
  after_eq : after = numberAfter next (own.map Prod.fst)
  own_eq_nil : scope ≠ .ordered → own = []

/-- A relation to a list in two parts splits the other list as well. -/
theorem exists_append_of_forall₂ {α β : Type} {R : α → β → Prop} {as bs : List α} {cs : List β}
    (h : List.Forall₂ R (as ++ bs) cs) :
    ∃ cs₁ cs₂, cs = cs₁ ++ cs₂ ∧ List.Forall₂ R as cs₁ ∧ List.Forall₂ R bs cs₂ := by
  induction as generalizing cs with
  | nil => exact ⟨[], cs, rfl, .nil, h⟩
  | cons a as ih =>
      obtain ⟨c, cs', hc, hcs, rfl⟩ := List.forall₂_cons_left_iff.mp h
      obtain ⟨cs₁, cs₂, rfl, has, hbs⟩ := ih hcs
      exact ⟨c :: cs₁, cs₂, rfl, .cons hc has, hbs⟩

mutual

/-- The ranges that have the marks of a block are those of its items, and the number that
    is handed on counts the items of the list around. -/
theorem numberedBy_of_marks {t : AnnotatedText} (style : RenderStyle) : (b : Block) →
    (scope : ListScope) → (depth : Nat) → (next : Int) → (rs : List Range) →
    List.Forall₂ (Mark.Opens t) (numberedMarks (b.marks style scope depth next)) rs →
    ∃ own, b.NumberedBy t (decide (scope = .ordered)) rs own
      ∧ Counts t scope next (b.nextAfter scope next) own
  | .quote inside, scope, depth, next, rs, h => by
      rw [marks] at h
      exact numberedByAll_of_marks style inside scope (depth + 1) next rs h
  | .unorderedList inside, scope, depth, next, rs, h => by
      rw [marks] at h
      obtain ⟨own, hinside, hcounts⟩ :=
        numberedByAll_of_marks style inside (.unordered (style.bullet depth)) depth next rs h
      -- the items of this list are not numbered, so nothing is left for those around it
      cases hcounts.own_eq_nil ListScope.noConfusion
      exact ⟨[], ⟨rfl, hinside⟩, .nil, rfl, fun _ => rfl⟩
  | .orderedList start inside, scope, depth, next, rs, h => by
      rw [marks] at h
      obtain ⟨items, hinside, hcounts⟩ :=
        numberedByAll_of_marks style inside .ordered depth (start.getD 1) rs h
      exact ⟨[], ⟨rfl, items, hinside, hcounts.counted⟩, .nil, rfl, fun _ => rfl⟩
  | .item value hasText inside, scope, depth, next, rs, h => by
      cases scope with
      | none => exact numberedByAll_of_marks style inside .none depth next rs h
      | unordered bullet =>
          refine numberedByAll_of_marks style inside (.unordered bullet) (depth + 1) next rs ?_
          rw [marks] at h
          cases hasText with
          | true => exact h
          | false => exact h
      | ordered =>
          rw [marks] at h
          obtain ⟨r, rs', hr, hrs, rfl⟩ := List.forall₂_cons_left_iff.mp h
          obtain ⟨own, hinside, hcounts⟩ :=
            numberedByAll_of_marks style inside .ordered (depth + 1) (value.getD next + 1) rs' hrs
          exact ⟨(value, r) :: own, ⟨r, rs', own, rfl, rfl, hinside⟩,
            hcounts.counted.cons hr.label_prefix, hcounts.after_eq, fun hne => absurd rfl hne⟩

/-- The marks of blocks are numbered as their lists say. -/
theorem numberedByAll_of_marks {t : AnnotatedText} (style : RenderStyle) : (bs : List Block) →
    (scope : ListScope) → (depth : Nat) → (next : Int) → (rs : List Range) →
    List.Forall₂ (Mark.Opens t) (numberedMarks (marksOf style scope depth next bs)) rs →
    ∃ own, NumberedByAll t (decide (scope = .ordered)) bs rs own
      ∧ Counts t scope next (nextAfterAll scope next bs) own
  | [], scope, depth, next, rs, h => by
      cases List.forall₂_nil_left_iff.mp h
      exact ⟨[], ⟨rfl, rfl⟩, .nil, rfl, fun _ => rfl⟩
  | b :: bs, scope, depth, next, rs, h => by
      rw [marksOf, numberedMarks, List.filter_append] at h
      obtain ⟨rs₁, rs₂, rfl, hfirst, hrest⟩ := exists_append_of_forall₂ h
      obtain ⟨own₁, hb, hcounts⟩ := numberedBy_of_marks style b scope depth next rs₁ hfirst
      obtain ⟨own₂, hbs, hcounts'⟩ := numberedByAll_of_marks style bs scope depth _ rs₂ hrest
      refine ⟨own₁ ++ own₂, ⟨rs₁, rs₂, own₁, own₂, rfl, rfl, hb, hbs⟩, ?_, ?_, ?_⟩
      · -- the second part counts on from where the first one stopped
        exact hcounts.counted.append (hcounts.after_eq ▸ hcounts'.counted)
      · rw [nextAfterAll, hcounts'.after_eq, hcounts.after_eq, List.map_append, numberAfter_append]
      · intro hne
        rw [hcounts.own_eq_nil hne, hcounts'.own_eq_nil hne]
        rfl

end

end Block

/-! ## Message bodies -/

/-- The ranges that have the marks of ordered items are the annotations of that kind. -/
theorem AnnotatedText.Laid.opens_tagged {t : AnnotatedText} {depth : Nat} {marks : List Mark}
    (h : t.Laid depth marks) :
    List.Forall₂ (Mark.Opens t) (Block.numberedMarks marks) (t.tagged .orderedListItem) :=
  h.opens_filter rfl

/-- **Numbers of list items**: in the body of a tree, the annotations of items of ordered
    lists are one for each such item, in document order, and the texts of the items of every
    ordered list begin with their numbers: the first has the number it is given, or else that
    with which the list starts, or else 1, and each of the others the number it is given, or
    else one more than the item of this list before it. -/
theorem numbered_of_nodes (settings : Settings) (hstyle : settings.style.KeepsLinkContent)
    (nodes : List Markup.Node) :
    let text := (Body.ofContent settings (Content.ofNodes nodes)).text
    Block.NumberedByAll text false (Markup.Node.blocksOf nodes)
      (text.tagged .orderedListItem) [] := by
  intro text
  obtain ⟨own, hnumbered, hcounts⟩ :=
    Block.numberedByAll_of_marks _ _ _ _ _ _ (Body.laid_ofContent hstyle nodes).opens_tagged
  cases hcounts.own_eq_nil ListScope.noConfusion
  exact hnumbered

/-- An ordered list with items in a quote, in a link and in a details element, an item with
    an ordered list in it, a list between its items, and a number that cannot be read. -/
def interruptedList : List Markup.Node :=
  [.element "ol" [("start", "3")]
    [.element "li" [] [.text "a".toList],
     .element "blockquote" []
      [.element "li" [("value", "10")]
        [.text "b".toList, .element "ol" [] [.element "li" [] [.text "c".toList]]]],
     .element "a" [("href", "https://matrix.to/#/@u:s")] [.element "li" [] [.text "d".toList]],
     .element "details" []
      [.element "summary" [] [.text "e".toList],
       .element "li" [("value", "-1")] [.text "f".toList]],
     .element "ul" [] [.element "li" [] [.text "g".toList]],
     .element "li" [("value", "h")] [.text "i".toList]]]

/-- The list counts on through the quote, the link and the details, and the list inside an item
    counts for itself. -/
theorem numbered_interruptedList :
    ({} : Settings).style.KeepsLinkContent
      ∧ (let text := (Body.ofContent {} (Content.ofNodes interruptedList)).text
        Block.NumberedByAll text false (Markup.Node.blocksOf interruptedList)
          (text.tagged .orderedListItem) [])
      ∧ (let text := (Body.ofContent {} (Content.ofNodes interruptedList)).text
        (text.tagged .orderedListItem).map fun r => String.ofList (r.slice text.text))
        = ["3. a", "10. b1. c", "1. c", "11. d", "-1. f", "0. i"] :=
  ⟨RenderStyle.standard_keepsLinkContent,
    numbered_of_nodes {} RenderStyle.standard_keepsLinkContent interruptedList,
    by decide +kernel⟩

end MessageBody
