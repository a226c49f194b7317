/-! # Sets of ids

    The ids of what can be revealed form a finite set of whole numbers, kept in
    increasing order so that equal sets are equal values. -/

namespace MessageBody

/-- A finite set of whole numbers. -/
structure IdSet where
  /-- The elements in increasing order. -/
  toList : List Int
  sorted : toList.Pairwise (· < ·) := by simp
  deriving DecidableEq

namespace IdSet

/-- `x` put in its place among increasing numbers. -/
def place (x : Int) : List Int → List Int
  | [] => [x]
  | y :: ys => if x < y then x :: y :: ys else if x = y then y :: ys else y :: place x ys

/-- Placing a number adds it and nothing else. -/
theorem mem_place {x y : Int} {ys : List Int} : y ∈ place x ys ↔ y = x ∨ y ∈ ys := by
  induction ys with
  | nil => simp [place]
  | cons z zs ih =>
      rw [place]
      split
      · simp
      · split
        · rename_i h
          subst h
          simp
        · simp only [List.mem_cons, ih]
          constructor
          · rintro (h | h | h) <;> simp [h]
          · rintro (h | h | h) <;> simp [h]

/-- Numbers stay in increasing order when one is put in its place. -/
theorem pairwise_place {x : Int} {ys : List Int} (h : ys.Pairwise (· < ·)) :
    (place x ys).Pairwise (· < ·) := by
  induction ys with
  | nil => simp [place]
  | cons z zs ih =>
      rw [List.pairwise_cons] at h
      rw [place]
      split
      · rename_i hx
        rw [List.pairwise_cons, List.pairwise_cons]
        refine ⟨?_, h⟩
        intro a ha
        rcases List.mem_cons.mp ha with rfl | ha
        · exact hx
        · have := h.1 a ha
          omega
      · split
        · exact List.pairwise_cons.mpr h
        · rename_i hx hne
          refine List.pairwise_cons.mpr ⟨?_, ih h.2⟩
          intro a ha
          rcases mem_place.mp ha with rfl | ha
          · omega
          · exact h.1 a ha

/-- The set without elements. -/
def empty : IdSet := ⟨[], .nil⟩

instance : Membership Int IdSet := ⟨fun s x => x ∈ s.toList⟩

instance (x : Int) (s : IdSet) : Decidable (x ∈ s) :=
  inferInstanceAs (Decidable (x ∈ s.toList))

/-- The set with one more element. -/
def insert (x : Int) (s : IdSet) : IdSet :=
  ⟨place x s.toList, pairwise_place s.sorted⟩

/-- The set without one element. -/
def erase (x : Int) (s : IdSet) : IdSet :=
  ⟨s.toList.filter (· ≠ x), s.sorted.filter _⟩

/-- The set with further elements. -/
def insertAll (xs : List Int) (s : IdSet) : IdSet :=
  xs.foldr insert s

/-- The set without the given elements. -/
def eraseAll (xs : List Int) (s : IdSet) : IdSet :=
  xs.foldr erase s

/-- The set of the given elements. -/
def ofList (xs : List Int) : IdSet :=
  insertAll xs empty

/-- The set with one element put in, or taken out if it is there. -/
def toggle (x : Int) (s : IdSet) : IdSet :=
  if x ∈ s then s.erase x else s.insert x

/-- Whether every element of `s` is one of `t`. -/
def isSubset (s t : IdSet) : Bool :=
  s.toList.all fun x => x ∈ t

theorem mem_def {x : Int} {s : IdSet} : x ∈ s ↔ x ∈ s.toList := .rfl

/-- No element is listed twice. -/
theorem nodup_toList (s : IdSet) : s.toList.Nodup :=
  s.sorted.imp fun hlt => Int.ne_of_lt hlt

/-- Sets with the same elements are equal. -/
theorem eq_of_mem_iff {s s' : IdSet} (h : ∀ x, x ∈ s ↔ x ∈ s') : s = s' := by
  have hperm : s.toList.Perm s'.toList :=
    (List.perm_ext_iff_of_nodup s.nodup_toList s'.nodup_toList).mpr h
  -- there is only one order for the elements
  have hlists : s.toList = s'.toList :=
    hperm.eq_of_pairwise (fun _ _ _ _ hlt hgt => absurd hlt (Int.not_lt.mpr (Int.le_of_lt hgt)))
      s.sorted s'.sorted
  cases s
  cases s'
  cases hlists
  rfl

@[simp] theorem not_mem_empty (x : Int) : ¬ x ∈ empty :=
  List.not_mem_nil

@[simp] theorem mem_insert {x y : Int} {s : IdSet} : x ∈ s.insert y ↔ x = y ∨ x ∈ s :=
  mem_place

@[simp] theorem mem_erase {x y : Int} {s : IdSet} : x ∈ s.erase y ↔ x ∈ s ∧ x ≠ y := by
  simp [mem_def, erase]

@[simp] theorem mem_insertAll {x : Int} {ys : List Int} {s : IdSet} :
    x ∈ s.insertAll ys ↔ x ∈ ys ∨ x ∈ s := by
  induction ys with
  | nil => simp [insertAll]
  | cons y ys ih =>
      show x ∈ (s.insertAll ys).insert y ↔ _
      simp [ih, or_assoc]

@[simp] theorem mem_eraseAll {x : Int} {ys : List Int} {s : IdSet} :
    x ∈ s.eraseAll ys ↔ x ∈ s ∧ x ∉ ys := by
  induction ys with
  | nil => simp [eraseAll]
  | cons y ys ih =>
      show x ∈ (s.eraseAll ys).erase y ↔ _
      simp only [mem_erase, ih, List.mem_cons, not_or]
      constructor
      · rintro ⟨⟨h, hs⟩, hy⟩
        exact ⟨h, hy, hs⟩
      · rintro ⟨h, hy, hs⟩
        exact ⟨⟨h, hs⟩, hy⟩

@[simp] theorem mem_ofList {x : Int} {ys : List Int} : x ∈ ofList ys ↔ x ∈ ys := by
  simp [ofList]

/-- Toggling changes the membership of one number and of no other. -/
theorem mem_toggle {x y : Int} {s : IdSet} : x ∈ s.toggle y ↔ (x ∈ s ↔ x ≠ y) := by
  unfold toggle
  by_cases hy : y ∈ s
  · rw [if_pos hy, mem_erase]
    by_cases hx : x = y <;> simp [hx, hy]
  · rw [if_neg hy, mem_insert]
    by_cases hx : x = y <;> simp [hx, hy]

theorem isSubset_iff {s t : IdSet} : s.isSubset t = true ↔ ∀ x ∈ s, x ∈ t := by
  simp [isSubset, mem_def]

end IdSet

end MessageBody
