import MessageBody.Markup.Tree

/-! # Well-formed trees

    A tree is well-formed when the elements that never have content have none.
    Every tree that is read from markup is: such an element is never opened. -/

namespace MessageBody.Markup

namespace Node

mutual

/-- Whether nothing stands inside an element that never has content. -/
def isWellFormed : Node → Bool
  | .text _ => true
  | .element name _ children => (!isVoid name || children.isEmpty) && areWellFormed children

/-- Whether all nodes are well-formed. -/
def areWellFormed : List Node → Bool
  | [] => true
  | node :: nodes => node.isWellFormed && areWellFormed nodes

end

theorem areWellFormed_iff {nodes : List Node} :
    areWellFormed nodes = true ↔ ∀ node ∈ nodes, node.isWellFormed = true := by
  induction nodes with
  | nil => simp [areWellFormed]
  | cons node nodes ih => rw [areWellFormed, Bool.and_eq_true, ih, List.forall_mem_cons]

/-- A void element has no children, and the children of the others are well-formed. -/
theorem isWellFormed_element_iff {name : String} {attributes : List (String × String)}
    {children : List Node} : (element name attributes children).isWellFormed = true
      ↔ (isVoid name = true → children = []) ∧ ∀ node ∈ children, node.isWellFormed = true := by
  rw [isWellFormed, Bool.and_eq_true, areWellFormed_iff]
  refine and_congr_left fun _ => ?_
  cases isVoid name <;> simp

end Node

/-- An open element that may have content, and whose child nodes are
    well-formed. -/
def Frame.IsWellFormed (frame : Frame) : Prop :=
  isVoid frame.name = false ∧ ∀ node ∈ frame.children, node.isWellFormed = true

namespace Partial

/-- A partly built tree whose nodes are well-formed. -/
structure IsWellFormed (t : Partial) : Prop where
  frames : ∀ frame ∈ t.frames, frame.IsWellFormed
  body : ∀ node ∈ t.body, node.isWellFormed = true

variable {t : Partial}

theorem isWellFormed_empty : empty.IsWellFormed :=
  ⟨nofun, nofun⟩

theorem isWellFormed_of_mem_addTo {node : Node} {nodes : List Node}
    (hnode : node.isWellFormed = true) (hnodes : ∀ n ∈ nodes, n.isWellFormed = true) :
    ∀ n ∈ addTo node nodes, n.isWellFormed = true := by
  unfold addTo
  split
  · obtain ⟨-, hrest⟩ := List.forall_mem_cons.mp hnodes
    split
    · exact List.forall_mem_cons.mpr ⟨rfl, hrest⟩
    · exact List.forall_mem_cons.mpr ⟨hnode, hnodes⟩
  · exact List.forall_mem_cons.mpr ⟨hnode, hnodes⟩

/-- A tree under construction stays well-formed when a node is added. -/
theorem IsWellFormed.add (h : t.IsWellFormed) {node : Node} (hnode : node.isWellFormed = true) :
    (t.add node).IsWellFormed := by
  unfold Partial.add
  split
  · exact ⟨h.frames, isWellFormed_of_mem_addTo hnode h.body⟩
  · rename_i frame frames hframes
    obtain ⟨⟨hname, hchildren⟩, hrest⟩ := List.forall_mem_cons.mp (hframes ▸ h.frames)
    exact ⟨List.forall_mem_cons.mpr ⟨⟨hname, isWellFormed_of_mem_addTo hnode hchildren⟩, hrest⟩,
      h.body⟩

theorem IsWellFormed.addText (h : t.IsWellFormed) (data : List Char) :
    (t.addText data).IsWellFormed := by
  rw [Partial.addText]
  split
  · exact h
  · exact h.add rfl

theorem IsWellFormed.close (h : t.IsWellFormed) : t.close.IsWellFormed := by
  unfold Partial.close
  split
  · exact h
  · rename_i frame frames hframes
    obtain ⟨⟨hname, hchildren⟩, hrest⟩ := List.forall_mem_cons.mp (hframes ▸ h.frames)
    have hclosed : ({ t with frames := frames, depth := t.depth - 1 } : Partial).IsWellFormed :=
      ⟨hrest, h.body⟩
    refine hclosed.add (Node.isWellFormed_element_iff.mpr ⟨?_, ?_⟩)
    · exact fun hvoid => nomatch hname.symm.trans hvoid
    · exact fun node hnode => hchildren node (List.mem_reverse.mp hnode)

theorem IsWellFormed.closeMany (h : t.IsWellFormed) (n : Nat) : (closeMany n t).IsWellFormed := by
  induction n generalizing t with
  | zero => exact h
  | succ n ih => exact ih h.close

/-- Only elements that are not void are opened for children. -/
theorem IsWellFormed.push (h : t.IsWellFormed) {tag : StartTag} (htag : isVoid tag.name = false) :
    (t.push tag).IsWellFormed :=
  ⟨List.forall_mem_cons.mpr ⟨⟨htag, nofun⟩, h.frames⟩, h.body⟩

end Partial

variable {t t' : Partial}

theorem isWellFormed_openTag (h : t.IsWellFormed) {tag : StartTag} {rest rest' : List Char}
    (hopen : openTag t tag rest = some (t', rest')) : t'.IsWellFormed := by
  unfold openTag at hopen
  extract_lets ended passed opened at hopen
  have hended : ended.IsWellFormed := h.closeMany _
  have hpassed : passed.IsWellFormed := ⟨hended.frames, hended.body⟩
  split at hopen
  · split at hopen
    · obtain ⟨rfl, -⟩ := Prod.mk.inj (Option.some.inj hopen)
      exact hpassed
    · split at hopen
      · exact nomatch hopen
      · obtain ⟨rfl, -⟩ := Prod.mk.inj (Option.some.inj hopen)
        exact hpassed.close
  · split at hopen
    · exact nomatch hopen
    · split at hopen
      · obtain ⟨rfl, -⟩ := Prod.mk.inj (Option.some.inj hopen)
        exact hended.add (Node.isWellFormed_element_iff.mpr ⟨fun _ => rfl, nofun⟩)
      · rename_i hvoid
        have hopened : opened.IsWellFormed :=
          hended.push (Bool.or_eq_false_iff.mp (Bool.eq_false_iff.mpr hvoid)).2
        -- the ways of reading the content only add text
        split at hopen <;> obtain ⟨rfl, -⟩ := Prod.mk.inj (Option.some.inj hopen)
        · exact hopened
        all_goals exact hopened.addText _

theorem isWellFormed_closeTag (h : t.IsWellFormed) {name : String}
    (hclose : closeTag t name = some t') : t'.IsWellFormed := by
  unfold closeTag at hclose
  split at hclose
  · cases hclose
    exact ⟨h.frames, h.body⟩
  · split at hclose
    · exact nomatch hclose
    · cases hclose
      exact h.closeMany _

/-- Whatever source is read, the tree under construction is well-formed. -/
theorem isWellFormed_grow (fuel : Nat) (h : t.IsWellFormed) (s : List Char) :
    (grow fuel t s).IsWellFormed := by
  induction fuel generalizing t s with
  | zero => exact h
  | succ fuel ih =>
      rw [grow]
      split
      · exact h
      · exact ih h _
      · exact ih (h.addText _) _
      · split
        · rename_i hopen
          exact ih (isWellFormed_openTag h hopen) _
        · exact h
      · split
        · rename_i hclose
          exact ih (isWellFormed_closeTag h hclose) _
        · exact h

/-- The tree of markup is well-formed, whatever the markup is. -/
theorem areWellFormed_parse (source : List Char) : Node.areWellFormed (parse source) = true := by
  refine Node.areWellFormed_iff.mpr fun node hnode => ?_
  have hgrown := isWellFormed_grow
    ((Text.unifyLineBreaks (compress source ++ "</body></html>".toList)).length + 1)
    Partial.isWellFormed_empty (Text.unifyLineBreaks (compress source ++ "</body></html>".toList))
  exact (hgrown.closeMany _).body node (List.mem_reverse.mp hnode)

end MessageBody.Markup
