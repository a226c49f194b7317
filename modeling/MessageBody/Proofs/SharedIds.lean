import Mathlib.Data.List.TakeWhile
import MessageBody.IdSet
import MessageBody.Proofs.Openings

/-! # Ids that elements share

    Every spoiler and every details element with something to hide registers the position
    at which it opens as its id.  Elements that open one right after the other share an
    id, and are revealed together; elements with something shown between their openings
    have ids of their own. -/

namespace MessageBody

/-! ## Elements that can be revealed -/

namespace Markup.Node

/-- Whether an element can be revealed: a spoiler, or a details element with a summary
    and something beside it. -/
def isExpandable (name : String) (attributes : List (String × String)) (children : List Node) :
    Bool :=
  match name with
  | "span" | "font" => (Content.attribute? "data-mx-spoiler" attributes).isSome
  | "details" => children.any isSummary && 1 < children.length
  | _ => false

/-- Whether an element shows what is inside it. -/
def showsInside (name : String) (attributes : List (String × String)) : Bool :=
  match name with
  | "hr" | "br" => false
  | "img" => (Content.imageInfo? attributes).isNone
  | _ => true

mutual

/-- The number of elements in a node that can be revealed. -/
def expandables : Node → Nat
  | .text _ => 0
  | .element name attributes children =>
      (if isExpandable name attributes children then 1 else 0)
        + (if showsInside name attributes then expandablesOf children else 0)

/-- The number of elements in nodes that can be revealed. -/
def expandablesOf : List Node → Nat
  | [] => 0
  | node :: nodes => node.expandables + expandablesOf nodes

end

end Markup.Node

namespace Content

open Markup

/-- The steps of two parts come one after the other. -/
theorem stepsOf_append (scope : ListScope) (as bs : List Content) :
    stepsOf scope (as ++ bs) = stepsOf scope as ++ stepsOf scope bs := by
  induction as with
  | nil => rfl
  | cons a as ih => rw [List.cons_append, stepsOf, stepsOf, ih, List.append_assoc]

/-- A details element opens if it has a summary and something beside it. -/
theorem count_steps_detailsOf (scope : ListScope) (cs : List Content) :
    ((detailsOf cs).steps scope).count .opens
      = (if cs.any isSummary && 1 < cs.length then 1 else 0)
        + (stepsOf scope cs).count .opens := by
  have hparts : cs.takeWhile (fun c => !c.isSummary) ++ cs.dropWhile (fun c => !c.isSummary) = cs :=
    List.takeWhile_append_dropWhile
  unfold detailsOf
  extract_lets before
  split
  · rename_i summary after hdrop
    rw [hdrop] at hparts
    have hsummary : summary.isSummary = true := by
      have hhead := List.head_dropWhile_not (fun c : Content => !c.isSummary) (l := cs)
        (by rw [hdrop]; exact List.cons_ne_nil _ _)
      simpa [hdrop] using hhead
    have hany : cs.any isSummary = true := by
      rw [← hparts, List.any_append, List.any_cons, hsummary, Bool.true_or, Bool.or_true]
    have hlength : cs.length = before.length + (after.length + 1) := by
      rw [← hparts, List.length_append, List.length_cons]
    rw [hany, Bool.true_and]
    by_cases hbeside : (before.isEmpty && after.isEmpty) = true
    · -- the summary stands alone
      obtain ⟨hbefore, hafter⟩ := Bool.and_eq_true_iff.mp hbeside
      rw [List.isEmpty_iff_length_eq_zero] at hbefore hafter
      have hone : ¬ 1 < cs.length := by omega
      rw [if_pos hbeside, steps, if_neg (by simpa using hone), Nat.zero_add]
    · -- with something beside its summary the element can be expanded
      have htwo : 1 < cs.length := by
        rw [Bool.and_eq_true, List.isEmpty_iff_length_eq_zero, List.isEmpty_iff_length_eq_zero]
          at hbeside
        omega
      have hcount : (stepsOf scope cs).count .opens = (stepsOf scope before).count .opens
          + ((summary.steps scope).count .opens + (stepsOf scope after).count .opens) := by
        rw [← hparts, stepsOf_append, stepsOf, List.count_append, List.count_append]
      rw [if_neg hbeside, hcount, if_pos (decide_eq_true htwo)]
      simp only [steps, stepsOf, List.append_nil, List.count_cons_self, List.count_append,
        List.count_cons_of_ne (show Step.shows ≠ .opens by decide)]
      omega
  · rename_i hdrop
    have hnone : cs.any isSummary = false := by
      rw [List.any_eq_false]
      intro c hc hsummary
      have hkept := List.dropWhile_eq_nil_iff.mp hdrop c hc
      rw [hsummary] at hkept
      exact Bool.noConfusion hkept
    rw [hnone, steps, Bool.false_and, if_neg Bool.false_ne_true, Nat.zero_add]

/-- A run of text opens nothing. -/
theorem count_steps_text (scope : ListScope) (data : List Char) :
    ((text data).steps scope).count .opens = 0 := by
  rw [steps]
  split <;> rfl

/-- A dropped line break opens nothing. -/
theorem count_stepsOf_withoutFirstBreak (scope : ListScope) (cs : List Content) :
    (stepsOf scope (withoutFirstBreak cs)).count .opens = (stepsOf scope cs).count .opens := by
  unfold withoutFirstBreak
  split
  · rw [stepsOf, List.count_append, count_steps_text, Nat.zero_add]
    split
    · rfl
    · rw [stepsOf, List.count_append, count_steps_text, Nat.zero_add]
  · rfl

/-- The label of an item opens nothing. -/
theorem count_labelSteps (scope : ListScope) (hasText : Bool) :
    (labelSteps scope hasText).count .opens = 0 := by
  cases scope with
  | none | ordered => rfl
  | unordered bullet =>
      rw [labelSteps]
      split <;> rfl

/-- An element opens if it can be revealed, and then what is inside it opens. -/
theorem count_steps_ofElement (name : String) (attributes : List (String × String))
    {children : List Node} {n : Nat}
    (h : ∀ scope, (stepsOf scope (ofNodes children)).count .opens = n) (scope : ListScope) :
    ((ofElement name attributes (ofNodes children)).steps scope).count .opens
      = (if Node.isExpandable name attributes children then 1 else 0)
        + (if Node.showsInside name attributes then n else 0) := by
  have hspan : ((span (spanLook attributes) (ofNodes children)).steps scope).count .opens
      = (if (attribute? "data-mx-spoiler" attributes).isSome then 1 else 0) + n := by
    rw [steps, List.count_append, h]
    show (if (attribute? "data-mx-spoiler" attributes).isSome then [Step.opens] else []).count _ + n
      = _
    split <;> rfl
  unfold ofElement
  split
  case h_14 | h_15 => exact hspan
  case h_21 =>
    have hany : (ofNodes children).any isSummary = children.any Node.isSummary := by
      rw [ofNodes_eq_map, List.any_map]
      exact congrArg (children.any ·) (funext isSummary_ofNode)
    rw [count_steps_detailsOf, h, hany, ofNodes_eq_map, List.length_map]
    rfl
  case h_24 =>
    unfold Node.isExpandable Node.showsInside
    cases himage : imageInfo? attributes with
    | some info => simp [steps]
    | none => simp [steps, h]
  all_goals
    simp [steps, Node.isExpandable, Node.showsInside, h, count_stepsOf_withoutFirstBreak,
      count_labelSteps]

mutual

/-- As many elements open in a node as can be revealed. -/
theorem count_steps_ofNode : (node : Node) → (scope : ListScope) →
    ((ofNode node).steps scope).count .opens = node.expandables
  | .text data, scope => by
      rw [ofNode, Node.expandables]
      exact count_steps_text scope data
  | .element name attributes children, scope => by
      rw [ofNode, Node.expandables]
      exact count_steps_ofElement name attributes
        (fun scope => count_stepsOf_ofNodes children scope) scope

/-- As many elements open in nodes as can be revealed. -/
theorem count_stepsOf_ofNodes : (nodes : List Node) → (scope : ListScope) →
    (stepsOf scope (ofNodes nodes)).count .opens = Node.expandablesOf nodes
  | [], scope => by
      rw [ofNodes, stepsOf, Node.expandablesOf]
      rfl
  | node :: nodes, scope => by
      rw [ofNodes, stepsOf, Node.expandablesOf, List.count_append,
        count_steps_ofNode node scope, count_stepsOf_ofNodes nodes scope]

end

end Content

/-! ## Ids -/

/-- The ids of steps lie behind where they begin. -/
theorem Follows.forall_le {steps : List Step} {p q : Nat} {ids : List Nat}
    (h : Follows steps p q ids) : ∀ id ∈ ids, p ≤ id := by
  induction h with
  | nil => exact List.forall_mem_nil _
  | opens _ ih => exact List.forall_mem_cons.mpr ⟨Nat.le_refl _, ih⟩
  | shows hlt _ ih => exact fun id hid => Nat.le_trans (Nat.le_of_lt hlt) (ih id hid)
  | mayShow hle _ ih => exact fun id hid => Nat.le_trans hle (ih id hid)

/-- Elements open at positions that do not decrease. -/
theorem Follows.pairwise_le {steps : List Step} {p q : Nat} {ids : List Nat}
    (h : Follows steps p q ids) : ids.Pairwise (· ≤ ·) := by
  induction h with
  | nil => exact .nil
  | opens h ih => exact List.pairwise_cons.mpr ⟨h.forall_le, ih⟩
  | shows _ _ ih => exact ih
  | mayShow _ _ ih => exact ih

/-- Toggling an id leaves another one as it is, and not itself. -/
theorem IdSet.mem_toggle_iff_mem {i j : Nat} (s : IdSet) :
    ((j : Int) ∈ s.toggle i ↔ (j : Int) ∈ s) ↔ i ≠ j := by
  rw [mem_toggle, Ne, Ne, Int.natCast_inj, eq_comm (a := j)]
  by_cases hj : (j : Int) ∈ s
  · simp [hj]
  · simp [hj]

/-- **Ids of elements**: in whatever tree, every element that can be revealed registers
    one id, in document order.  The ids of two elements differ if something is shown
    between their openings, and are the same if elements only open there; where they
    differ, toggling one of them leaves the other as it is, and where they are the same,
    it does not. -/
theorem ids_of_nodes (settings : Settings) (hstyle : settings.style = .standard)
    (nodes : List Markup.Node) {ids : List Nat}
    (hids : (Body.render settings (Content.ofNodes nodes)).reveals = ids) :
    (Body.ofContent settings (Content.ofNodes nodes)).revealable = .ofList (ids.map Int.ofNat)
    ∧ ids.length = Markup.Node.expandablesOf nodes
    ∧ ids.Pairwise (· ≤ ·)
    ∧ ∀ before between after : List Step,
        Content.stepsOf .none (Content.ofNodes nodes)
          = before ++ .opens :: (between ++ .opens :: after) →
        ∃ (i j : Nat) (first inside rest : List Nat), ids = first ++ i :: (inside ++ j :: rest)
          ∧ first.length = before.count .opens ∧ inside.length = between.count .opens
          ∧ (.shows ∈ between → i ≠ j)
          ∧ ((∀ step ∈ between, step = .opens) → i = j)
          ∧ ∀ expanded : IdSet, ((j : Int) ∈ expanded.toggle i ↔ (j : Int) ∈ expanded) ↔ i ≠ j := by
  subst hids
  have hwalk := renderAll_takes (Content.ofNodes nodes) settings.context none (.startAt 0) 1 hstyle
  refine ⟨rfl, ?_, hwalk.pairwise_le, ?_⟩
  · rw [← Content.count_stepsOf_ofNodes nodes .none]
    exact hwalk.length_eq
  · intro before between after hsteps
    have hfollows : Follows (Content.stepsOf .none (Content.ofNodes nodes)) _ _ _ := hwalk
    rw [hsteps] at hfollows
    obtain ⟨i, j, first, inside, rest, hids, hfirst, hinside, hbetween⟩ := hfollows.openings
    refine ⟨i, j, first, inside, rest, hids, hfirst, hinside, ?_, hbetween.eq_of_opens, ?_⟩
    · intro hshows
      exact Nat.ne_of_lt (hbetween.lt_of_shows hshows)
    · intro expanded
      exact expanded.mem_toggle_iff_mem

/-- A spoiler in a spoiler, and details behind them. -/
def nestedSpoilers : List Markup.Node :=
  [.element "span" [("data-mx-spoiler", "")]
    [.element "span" [("data-mx-spoiler", "")] [.text "a".toList]],
   .element "details" [] [.element "summary" [] [.text "b".toList], .text "c".toList]]

/-- The spoilers share an id, and the details have one of their own. -/
theorem ids_nestedSpoilers :
    (Body.ofContent {} (Content.ofNodes nestedSpoilers)).revealable = .ofList [0, 0, 1]
    ∧ Markup.Node.expandablesOf nestedSpoilers = 3
    ∧ ∃ (i j : Nat) (rest : List Nat), [0, 0, 1] = i :: (j :: rest) ∧ i = j
      ∧ ∀ expanded : IdSet, ¬ ((j : Int) ∈ expanded.toggle i ↔ (j : Int) ∈ expanded) := by
  obtain ⟨hrevealable, hlength, -, hopenings⟩ := ids_of_nodes {} rfl nestedSpoilers
    (show (Body.render {} (Content.ofNodes nestedSpoilers)).reveals = [0, 0, 1] by rfl)
  obtain ⟨i, j, first, inside, rest, hids, hfirst, hinside, -, hsame, htoggle⟩ :=
    hopenings [] [] [.shows, .opens, .shows, .shows, .shows] (by decide)
  rw [List.eq_nil_of_length_eq_zero hfirst, List.eq_nil_of_length_eq_zero hinside] at hids
  have hij : i = j := hsame (List.forall_mem_nil _)
  refine ⟨hrevealable, hlength.symm, i, j, rest, hids, hij, ?_⟩
  intro expanded hkept
  exact (htoggle expanded).mp hkept hij

end MessageBody
