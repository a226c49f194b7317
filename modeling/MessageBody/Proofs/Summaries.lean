import MessageBody.Body

/-! # Details elements and their summaries

    A details element hides what stands beside its first summary, if it has a
    summary and something stands there; otherwise it shows as its children do.
    Which of its children is a summary can be told from the tree. -/

namespace MessageBody

/-- Whether a node of the tree is the element that labels a details element. -/
def Markup.Node.isSummary : Markup.Node → Bool
  | .text _ => false
  | .element name _ _ => name == "summary"

namespace Content

/-- A details element without a summary, or with nothing beside it, is its
    children; otherwise these come in its three parts. -/
theorem detailsOf_cases (cs : List Content) : detailsOf cs = .unsupported "details" cs
    ∨ ∃ before summary after, cs = before ++ [summary] ++ after
      ∧ detailsOf cs = .details before [summary] after := by
  unfold detailsOf
  extract_lets before
  split
  · rename_i summary after hdrop
    split
    · exact Or.inl rfl
    · refine Or.inr ⟨before, summary, after, ?_, rfl⟩
      rw [List.append_assoc, List.singleton_append, ← hdrop]
      exact List.takeWhile_append_dropWhile.symm
  · exact Or.inl rfl

/-- When a details element has something to hide: it has a summary, and something
    beside it. -/
theorem detailsOf_of_summary {before after : List Content} {summary : Content}
    (hbefore : ∀ c ∈ before, c.isSummary = false) (hsummary : summary.isSummary = true)
    (hbeside : before ≠ [] ∨ after ≠ []) :
    detailsOf (before ++ summary :: after) = .details before [summary] after := by
  have hnot : ∀ c ∈ before, (!c.isSummary) = true := fun c hc => by rw [hbefore c hc]; rfl
  have htake : (before ++ summary :: after).takeWhile (fun c => !c.isSummary) = before := by
    rw [List.takeWhile_append_of_pos hnot, List.takeWhile_cons_of_neg (by simp [hsummary]),
      List.append_nil]
  have hdrop : (before ++ summary :: after).dropWhile (fun c => !c.isSummary)
      = summary :: after := by
    rw [List.dropWhile_append_of_pos hnot, List.dropWhile_cons_of_neg (by simp [hsummary])]
  have hempty : (before.isEmpty && after.isEmpty) = false := by
    rcases hbeside with h | h <;> simp [h]
  rw [detailsOf, htake, hdrop]
  simp only [hempty, Bool.false_eq_true, if_false]

theorem isSummary_detailsOf (cs : List Content) : (detailsOf cs).isSummary = false := by
  rcases detailsOf_cases cs with h | ⟨before, summary, after, -, h⟩
  · rw [h]
    rfl
  · rw [h]
    rfl

theorem isSummary_ofElement (name : String) (attributes : List (String × String))
    (cs : List Content) : (ofElement name attributes cs).isSummary = (name == "summary") := by
  unfold ofElement
  split
  case h_21 => exact isSummary_detailsOf cs
  case h_24 => split <;> rfl
  all_goals rfl

theorem isSummary_ofNode (node : Markup.Node) : (ofNode node).isSummary = node.isSummary := by
  cases node with
  | text data => rfl
  | element name attributes children =>
      rw [ofNode, isSummary_ofElement, Markup.Node.isSummary]

theorem ofNodes_eq_map (nodes : List Markup.Node) : ofNodes nodes = nodes.map ofNode := by
  induction nodes with
  | nil => rfl
  | cons node nodes ih => rw [ofNodes, ih, List.map_cons]

/-- A details element of the tree with a summary and something beside it hides what
    stands before and after its first summary. -/
theorem ofNode_details (attributes : List (String × String)) {before after : List Markup.Node}
    {summary : Markup.Node} (hbefore : ∀ node ∈ before, node.isSummary = false)
    (hsummary : summary.isSummary = true) (hbeside : before ≠ [] ∨ after ≠ []) :
    ofNode (.element "details" attributes (before ++ summary :: after))
      = .details (ofNodes before) [ofNode summary] (ofNodes after) := by
  have hnone : ∀ c ∈ before.map ofNode, c.isSummary = false := by
    intro c hc
    obtain ⟨node, hnode, rfl⟩ := List.mem_map.mp hc
    rw [isSummary_ofNode, hbefore node hnode]
  simp only [ofNode, ofElement, ofNodes_eq_map, List.map_append, List.map_cons]
  refine detailsOf_of_summary hnone (by rw [isSummary_ofNode, hsummary]) ?_
  rwa [Ne, Ne, List.map_eq_nil_iff, List.map_eq_nil_iff]

end Content

end MessageBody
