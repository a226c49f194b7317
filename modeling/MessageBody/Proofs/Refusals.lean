import MessageBody.Body
import MessageBody.Proofs.WholeNumbers

/-! # Markup that is refused

    No markup is malformed, and elements that are nested too deeply show as text,
    yet some markup is refused: a number in an attribute may have too many digits
    to be read, and reading does not answer "no number" then.  The attributes that
    are read as numbers are the `numerals` of a tree.  Nothing else makes a body
    fail, no colour, no address and no other attribute. -/

namespace MessageBody

/-- Only numbers of too many digits are refused. -/
theorem Text.count_of_wholeNumber_error {s : List Char} {refusal : TooManyDigits}
    (h : wholeNumber s = .error refusal) : TooManyDigits.limit < refusal.count := by
  cases hds : digitValues? (cutSign s).2 with
  | none => exact nomatch (wholeNumber_of_none hds).symm.trans h
  | some ds =>
      cases ds with
      | nil => exact nomatch (wholeNumber_of_nil hds).symm.trans h
      | cons d ds =>
          rw [wholeNumber_of_cons hds] at h
          split at h
          · rename_i hlong
            cases h
            exact hlong
          · exact nomatch h

/-! ## Numbers in a tree -/

namespace Markup.Node

mutual

/-- How deeply elements are nested in a node, the node itself included. -/
def height : Node → Nat
  | .text _ => 0
  | .element _ _ children => heightOf children + 1

/-- The height of the highest node. -/
def heightOf : List Node → Nat
  | [] => 0
  | node :: nodes => max node.height (heightOf nodes)

end

/-- The values among the attributes of an element that are read as numbers, in the
    order in which they are read; `inOrdered` tells whether the list around the
    element is ordered. -/
def ownNumerals (inOrdered : Bool) (name : String) (attributes : List (String × String)) :
    List String :=
  match name with
  | "ol" => (Content.attribute? "start" attributes).toList
  | "li" => if inOrdered then (Content.attribute? "value" attributes).toList else []
  | "img" =>
      if (Content.imageInfo? attributes).isSome then
        (Content.attribute? "width" attributes).toList
          ++ (Content.attribute? "height" attributes).toList
      else []
  | _ => []

mutual

/-- The values in a node that are read as numbers. -/
def numerals (inOrdered : Bool) : Node → List String
  | .text _ => []
  | .element name attributes children =>
      ownNumerals inOrdered name attributes
        ++ numeralsOf (Obstacle.insideOrdered inOrdered name) children

/-- The values in nodes that are read as numbers. -/
def numeralsOf (inOrdered : Bool) : List Node → List String
  | [] => []
  | node :: nodes => node.numerals inOrdered ++ numeralsOf inOrdered nodes

end

end Markup.Node

/-! ## Obstacles -/

namespace Obstacle

open Markup.Node

/-- The obstacle in a value that is read as a number. -/
def inNumeral? (value : String) : Option Obstacle :=
  match Text.wholeNumber value.toList with
  | .error refusal => some (.tooManyDigits refusal)
  | .ok _ => none

/-- An attribute that is missing is no obstacle. -/
theorem inNumber?_eq (name : String) (attributes : List (String × String)) :
    inNumber? name attributes
      = (Content.attribute? name attributes).toList.findSome? inNumeral? := by
  rw [inNumber?]
  cases Content.attribute? name attributes with
  | none => rfl
  | some value =>
      rw [Option.bind_some, Option.toList_some, List.findSome?_singleton]
      rfl

/-- The obstacle in the attributes is the first in the numerals that the element reads. -/
theorem inAttributes?_eq (inOrdered : Bool) (name : String) (attributes : List (String × String)) :
    inAttributes? inOrdered name attributes
      = (ownNumerals inOrdered name attributes).findSome? inNumeral? := by
  unfold inAttributes?
  split
  · exact inNumber?_eq "start" attributes
  · rw [ownNumerals]
    split
    · exact inNumber?_eq "value" attributes
    · rfl
  · rw [ownNumerals]
    split
    · rw [List.findSome?_append, inNumber?_eq, inNumber?_eq]
    · rfl
  · rw [ownNumerals]
    · rfl
    all_goals assumption

mutual

/-- The obstacle in a node is that of its first numeral, unless elements are nested
    too deeply before it. -/
theorem inNode?_cases : (node : Markup.Node) → (inOrdered : Bool) → (depth : Nat) →
    inNode? inOrdered depth node = (node.numerals inOrdered).findSome? inNumeral?
      ∨ inNode? inOrdered depth node = some .tooDeep ∧ depth < node.height
  | .text _, _, _ => by
      rw [inNode?.eq_def, numerals]
      exact Or.inl rfl
  | .element name attributes children, inOrdered, depth => by
      rw [inNode?.eq_def, numerals, height]
      cases depth with
      | zero => exact Or.inr ⟨rfl, Nat.succ_pos _⟩
      | succ depth =>
          dsimp only
          rw [inAttributes?_eq, List.findSome?_append]
          rcases inNodes?_cases children (insideOrdered inOrdered name) depth with h | ⟨h, hdepth⟩
          · rw [h]
            exact Or.inl rfl
          · rw [h]
            -- an attribute of the element itself comes first
            cases (ownNumerals inOrdered name attributes).findSome? inNumeral? with
            | none => exact Or.inr ⟨rfl, Nat.succ_lt_succ hdepth⟩
            | some obstacle => exact Or.inl rfl

/-- The first obstacle in nodes is in the first numeral that is one, unless elements are nested
    too deeply. -/
theorem inNodes?_cases : (nodes : List Markup.Node) → (inOrdered : Bool) → (depth : Nat) →
    inNodes? inOrdered depth nodes = (numeralsOf inOrdered nodes).findSome? inNumeral?
      ∨ inNodes? inOrdered depth nodes = some .tooDeep ∧ depth < heightOf nodes
  | [], _, _ => by
      rw [inNodes?, numeralsOf]
      exact Or.inl rfl
  | node :: nodes, inOrdered, depth => by
      rw [inNodes?, numeralsOf, heightOf, List.findSome?_append]
      -- the first number that is refused decides, unless the depth runs out before it
      rcases inNode?_cases node inOrdered depth with hnode | ⟨hnode, hdepth⟩
      · rw [hnode]
        cases (node.numerals inOrdered).findSome? inNumeral? with
        | some obstacle => exact Or.inl rfl
        | none =>
            rcases inNodes?_cases nodes inOrdered depth with h | ⟨h, hdepth⟩
            · exact Or.inl h
            · exact Or.inr ⟨h, Nat.lt_of_lt_of_le hdepth (Nat.le_max_right ..)⟩
      · rw [hnode]
        exact Or.inr ⟨rfl, Nat.lt_of_lt_of_le hdepth (Nat.le_max_left ..)⟩

end

/-- A numeral is an obstacle if it is refused. -/
theorem inNumeral?_eq_some_iff {value : String} {obstacle : Obstacle} :
    inNumeral? value = some obstacle ↔
      ∃ refusal, Text.wholeNumber value.toList = .error refusal
        ∧ obstacle = .tooManyDigits refusal := by
  rw [inNumeral?]
  cases Text.wholeNumber value.toList with
  | error refusal => simp [eq_comm]
  | ok n? => simp

/-- A numeral is no obstacle if it has few digits or is none. -/
theorem inNumeral?_eq_none_iff {value : String} :
    inNumeral? value = none ↔ Text.FitsDigits value.toList := by
  rw [← Text.wholeNumber_ok_iff, inNumeral?]
  cases Text.wholeNumber value.toList <;> simp

end Obstacle

/-! ## Bodies -/

namespace Body

open Obstacle Markup.Node

variable {settings : Settings} {nodes : List Markup.Node} {refusal : Text.TooManyDigits}

/-- A tree is refused for a numeral that is found before anything too deep. -/
theorem ofNodes_eq_error_iff : ofNodes settings nodes = .error refusal
    ↔ inNodes? false depthLimit nodes = some (.tooManyDigits refusal) := by
  rw [ofNodes]
  split
  · rename_i h
    simp [h]
  · rename_i h
    simp [h]
  · rename_i h
    simp [h]

/-- A tree is refused for one of its numerals only. -/
theorem exists_numeral_of_ofNodes_eq_error (h : ofNodes settings nodes = .error refusal) :
    ∃ value ∈ numeralsOf false nodes, Text.wholeNumber value.toList = .error refusal := by
  have hobstacle := ofNodes_eq_error_iff.mp h
  rcases inNodes?_cases nodes false depthLimit with hcases | ⟨hcases, -⟩
  · obtain ⟨value, hvalue, hsome⟩ := List.exists_of_findSome?_eq_some (hcases.symm.trans hobstacle)
    obtain ⟨refusal', hrefusal, heq⟩ := inNumeral?_eq_some_iff.mp hsome
    cases heq
    exact ⟨value, hvalue, hrefusal⟩
  · exact nomatch hcases.symm.trans hobstacle

/-- A tree in which elements are not nested too deeply gives a body just when no
    number in it has too many digits. -/
theorem ofNodes_ok_iff (hheight : heightOf nodes ≤ depthLimit) :
    (∃ body log, ofNodes settings nodes = .ok (body, log))
      ↔ ∀ value ∈ numeralsOf false nodes, Text.FitsDigits value.toList := by
  have hcases : inNodes? false depthLimit nodes
      = (numeralsOf false nodes).findSome? inNumeral? := by
    rcases inNodes?_cases nodes false depthLimit with h | ⟨-, h⟩
    · exact h
    · exact absurd h (Nat.not_lt.mpr hheight)
  rw [ofNodes, hcases]
  cases hfirst : (numeralsOf false nodes).findSome? inNumeral? with
  | none =>
      refine iff_of_true ⟨_, _, rfl⟩ fun value hvalue => ?_
      exact inNumeral?_eq_none_iff.mp (List.findSome?_eq_none_iff.mp hfirst value hvalue)
  | some obstacle =>
      -- the first numeral that cannot be read stops the reading
      obtain ⟨value, hvalue, hsome⟩ := List.exists_of_findSome?_eq_some hfirst
      obtain ⟨refusal, -, rfl⟩ := inNumeral?_eq_some_iff.mp hsome
      refine iff_of_false (fun ⟨_, _, h⟩ => nomatch h) fun hfits => ?_
      exact nomatch (inNumeral?_eq_none_iff.mpr (hfits value hvalue)).symm.trans hsome

/-- **Which markup is refused**: whatever builds the tree, every source gives a
    body, unless the tree has a numeral of more digits than can be read; and as long
    as elements are not nested too deeply, every such numeral is refused. -/
theorem outcome_of_markup (build : List Char → Except String (List Markup.Node))
    (settings : Settings) (source : List Char) :
    ((∃ body log, ofMarkup build settings source = .ok (body, log))
      ∨ ∃ nodes value refusal, build source = .ok nodes ∧ value ∈ numeralsOf false nodes
        ∧ Text.wholeNumber value.toList = .error refusal
        ∧ Text.TooManyDigits.limit < refusal.count
        ∧ ofMarkup build settings source = .error refusal)
    ∧ ∀ nodes, heightOf nodes ≤ depthLimit →
      ((∃ body log, ofNodes settings nodes = .ok (body, log))
        ↔ ∀ value ∈ numeralsOf false nodes, Text.FitsDigits value.toList) := by
  refine ⟨?_, fun nodes => ofNodes_ok_iff⟩
  rw [ofMarkup]
  split
  · exact Or.inl ⟨_, _, rfl⟩
  · cases build source with
    | error reason => exact Or.inl ⟨_, _, rfl⟩
    | ok nodes =>
        cases hresult : ofNodes settings nodes with
        | ok result => exact Or.inl ⟨result.1, result.2, hresult⟩
        | error refusal =>
            obtain ⟨value, hvalue, herror⟩ := exists_numeral_of_ofNodes_eq_error hresult
            exact Or.inr ⟨nodes, value, refusal, rfl, hvalue, herror,
              Text.count_of_wholeNumber_error herror, hresult⟩

/-- An ordered list that starts with a number of `n` digits. -/
def longStart (n : Nat) : List Markup.Node :=
  [.element "ol" [("start", String.ofList (List.replicate n '1'))]
    [.element "li" [] [.text "a".toList]]]

/-- More ones than the limit are too many digits. -/
theorem not_fitsDigits_replicate {n : Nat} (h : Text.TooManyDigits.limit < n) :
    ¬ Text.FitsDigits (List.replicate n '1') := by
  have hdigit : ∀ c ∈ List.replicate n '1', c.isDigit := by
    intro c hc
    rw [List.eq_of_mem_replicate hc]
    decide
  intro hfits
  have hlength := hfits _ (by rw [Text.cutSign_of_isDigit hdigit, Text.digitValues?_of_isDigit hdigit])
  rw [List.length_map, List.length_replicate] at hlength
  exact absurd hlength (Nat.not_le.mpr h)

/-- A list cannot start with a number of one digit too many. -/
theorem not_ok_longStart : ¬ ∃ body log, ofNodes {} (longStart 4301) = .ok (body, log) := by
  rw [(outcome_of_markup (fun _ => .ok (longStart 4301)) {} []).2 (longStart 4301) (by decide)]
  intro hfits
  have hstart := hfits (String.ofList (List.replicate 4301 '1')) (List.mem_cons_self ..)
  rw [String.toList_ofList] at hstart
  exact not_fitsDigits_replicate (by decide) hstart

end Body

end MessageBody
