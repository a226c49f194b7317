/-! # Sorting by insertion

    A stable sort that computes by structural recursion: elements that the order
    does not tell apart stay in the order they came in. -/

namespace MessageBody.Order

variable {α : Type}

/-- `x` put in front of the first element that it may precede. -/
def insert (le : α → α → Bool) (x : α) : List α → List α
  | [] => [x]
  | y :: ys => if le x y then x :: y :: ys else y :: insert le x ys

/-- The elements of `xs` in increasing order. -/
def sort (le : α → α → Bool) : List α → List α
  | [] => []
  | x :: xs => insert le x (sort le xs)

@[simp] theorem sort_nil (le : α → α → Bool) : sort le [] = [] := rfl

@[simp] theorem sort_cons (le : α → α → Bool) (x : α) (xs : List α) :
    sort le (x :: xs) = insert le x (sort le xs) := rfl

/-- Inserting adds the element and nothing else. -/
theorem insert_perm (le : α → α → Bool) (x : α) (ys : List α) :
    (insert le x ys).Perm (x :: ys) := by
  induction ys with
  | nil => exact .refl _
  | cons y ys ih =>
      rw [insert]
      split
      · exact .refl _
      · exact (ih.cons y).trans (.swap x y ys)

/-- Sorting keeps the elements. -/
theorem sort_perm (le : α → α → Bool) (xs : List α) : (sort le xs).Perm xs := by
  induction xs with
  | nil => exact .refl _
  | cons x xs ih => exact (insert_perm le x _).trans (ih.cons x)

theorem mem_sort {le : α → α → Bool} {x : α} {xs : List α} : x ∈ sort le xs ↔ x ∈ xs :=
  (sort_perm le xs).mem_iff

section Pairwise

variable {le : α → α → Bool} (trans : ∀ x y z, le x y = true → le y z = true → le x z = true)
  (total : ∀ x y, le x y = true ∨ le y x = true)

include trans total in
/-- A sorted list stays sorted when an element is put in its place. -/
theorem pairwise_insert {x : α} {ys : List α} (h : ys.Pairwise fun a b => le a b = true) :
    (insert le x ys).Pairwise fun a b => le a b = true := by
  induction ys with
  | nil => exact List.pairwise_singleton _ x
  | cons y ys ih =>
      have hy := List.pairwise_cons.mp h
      rw [insert]
      split
      · rename_i hxy
        refine List.pairwise_cons.mpr ⟨?_, h⟩
        intro z hz
        rcases List.mem_cons.mp hz with rfl | hz
        · exact hxy
        · exact trans x y z hxy (hy.1 z hz)
      · rename_i hxy
        refine List.pairwise_cons.mpr ⟨?_, ih hy.2⟩
        intro z hz
        rcases List.mem_cons.mp ((insert_perm le x ys).subset hz) with rfl | hz
        · exact (total z y).resolve_left hxy
        · exact hy.1 z hz

include trans total in
/-- Sorting puts elements in order. -/
theorem pairwise_sort (xs : List α) : (sort le xs).Pairwise fun a b => le a b = true := by
  induction xs with
  | nil => exact .nil
  | cons x xs ih => exact pairwise_insert trans total ih

end Pairwise

/-- Sorting leaves elements alone that are in order. -/
theorem sort_eq_self {le : α → α → Bool} {xs : List α}
    (h : xs.Pairwise fun a b => le a b = true) : sort le xs = xs := by
  induction xs with
  | nil => rfl
  | cons x xs ih =>
      rw [List.pairwise_cons] at h
      rw [sort, ih h.2]
      cases xs with
      | nil => rfl
      | cons y ys => rw [insert, if_pos (h.1 y (List.mem_cons_self ..))]

/-- Putting in place commutes with a map when the order is that of the images. -/
theorem insert_map {β : Type} (le : β → β → Bool) (f : α → β) (x : α) (ys : List α) :
    insert le (f x) (ys.map f) = (insert (fun a b => le (f a) (f b)) x ys).map f := by
  induction ys with
  | nil => rfl
  | cons y ys ih =>
      rw [List.map_cons, insert, insert, ih]
      split <;> rfl

/-- An order that looks at images sorts the images. -/
theorem sort_map {β : Type} (le : β → β → Bool) (f : α → β) (xs : List α) :
    sort le (xs.map f) = (sort (fun a b => le (f a) (f b)) xs).map f := by
  induction xs with
  | nil => rfl
  | cons x xs ih => rw [List.map_cons, sort, sort, ih, insert_map]

end MessageBody.Order
