import MessageBody.Proofs.JsonText

/-! # JSON with sorted keys

    Sorting the members of every object by their keys changes neither what can be
    written nor what a key gives: with each key once, a member is found by its key
    wherever it stands. -/

namespace MessageBody.Json

/-- Sorting members only reorders them. -/
theorem sortMembers_perm (members : List (String × Json)) : (sortMembers members).Perm members :=
  Order.sort_perm _ members

theorem sortKeysList_eq (items : List Json) : sortKeysList items = items.map sortKeys := by
  induction items with
  | nil => rfl
  | cons item items ih => rw [sortKeysList, ih, List.map_cons]

theorem sortKeysMembers_eq (members : List (String × Json)) :
    sortKeysMembers members = members.map fun m => (m.1, m.2.sortKeys) := by
  induction members with
  | nil => rfl
  | cons member members ih => rw [sortKeysMembers, ih, List.map_cons]

theorem sortKeys_arr (items : List Json) : sortKeys (.arr items) = .arr (items.map sortKeys) := by
  rw [sortKeys, sortKeysList_eq]

theorem sortKeys_obj (members : List (String × Json)) :
    sortKeys (.obj members) = .obj (sortMembers (members.map fun m => (m.1, m.2.sortKeys))) := by
  rw [sortKeys, sortKeysMembers_eq]

mutual

/-- Sorting the keys moves the numbers of a value, and keeps each of them. -/
theorem numbers_sortKeys_perm : (v : Json) → v.sortKeys.numbers.Perm v.numbers
  | .null | .bool _ | .int _ | .float _ | .str _ => .refl _
  | .arr items => by
      rw [sortKeys, numbers, numbers]
      exact numbersOfItems_sortKeys_perm items
  | .obj members => by
      rw [sortKeys, numbers, numbers]
      refine .trans ?_ (numbersOfMembers_sortKeys_perm members)
      rw [numbersOfMembers_eq, numbersOfMembers_eq]
      exact (sortMembers_perm _).flatMap_right _

/-- The same for the items of a list. -/
theorem numbersOfItems_sortKeys_perm : (items : List Json) →
    (numbersOfItems (sortKeysList items)).Perm (numbersOfItems items)
  | [] => .refl _
  | item :: items => by
      rw [sortKeysList, numbersOfItems, numbersOfItems]
      exact (numbers_sortKeys_perm item).append (numbersOfItems_sortKeys_perm items)

/-- The same for the members of an object, before they are moved. -/
theorem numbersOfMembers_sortKeys_perm : (members : List (String × Json)) →
    (numbersOfMembers (sortKeysMembers members)).Perm (numbersOfMembers members)
  | [] => .refl _
  | (key, value) :: members => by
      rw [sortKeysMembers, numbersOfMembers, numbersOfMembers]
      exact (numbers_sortKeys_perm value).append (numbersOfMembers_sortKeys_perm members)

end

/-! ## Members by their keys -/

/-- Among members with each key once, a member is found by its key. -/
theorem member?_of_mem {members : List (String × Json)} (hkeys : (members.map Prod.fst).Nodup)
    {m : String × Json} (h : m ∈ members) : member? m.1 members = some m.2 := by
  induction members with
  | nil => exact nomatch h
  | cons member members ih =>
      obtain ⟨hkey, hrest⟩ := List.nodup_cons.mp hkeys
      rw [member?, List.lookup_cons]
      rcases List.mem_cons.mp h with rfl | h
      · rw [beq_self_eq_true]
      · have hne : (m.1 == member.1) = false := by
          refine beq_eq_false_iff_ne.mpr fun heq => hkey ?_
          rw [← heq]
          exact List.mem_map_of_mem h
        rw [hne]
        exact ih hrest h

/-- The members of an object with sorted keys. -/
theorem mem_sortKeys {members : List (String × Json)} {m : String × Json} (h : m ∈ members) :
    (m.1, m.2.sortKeys) ∈ sortMembers (members.map fun m => (m.1, m.2.sortKeys)) :=
  (sortMembers_perm _).mem_iff.mpr (List.mem_map_of_mem h)

/-- Sorted members have the keys that were there. -/
theorem keys_sortKeys (members : List (String × Json)) :
    ((sortMembers (members.map fun m => (m.1, m.2.sortKeys))).map Prod.fst).Perm
      (members.map Prod.fst) := by
  have hperm := (sortMembers_perm (members.map fun m => (m.1, m.2.sortKeys))).map Prod.fst
  rw [List.map_map] at hperm
  exact hperm

/-- Sorting the keys does not change what a key gives. -/
theorem member?_sortKeys {members : List (String × Json)} (hkeys : (members.map Prod.fst).Nodup)
    {m : String × Json} (h : m ∈ members) :
    member? m.1 (sortMembers (members.map fun m => (m.1, m.2.sortKeys))) = some m.2.sortKeys :=
  member?_of_mem ((keys_sortKeys members).nodup_iff.mpr hkeys) (mem_sortKeys h)

/-! ## Writing with sorted keys -/

/-- What can be read back can be read back with sorted keys. -/
theorem Writable.sortKeys {v : Json} (h : Writable v) : Writable v.sortKeys := by
  induction h with
  | null => exact .null
  | bool b => exact .bool b
  | int n h => exact .int n h
  | str s => exact .str s
  | arr items h ih =>
      rw [sortKeys_arr]
      refine .arr _ fun v hv => ?_
      obtain ⟨item, hitem, rfl⟩ := List.mem_map.mp hv
      exact ih item hitem
  | obj members hkeys h ih =>
      rw [sortKeys_obj]
      -- sorting permutes the members, so their names stay different
      refine .obj _ ((keys_sortKeys members).nodup_iff.mpr hkeys) fun m hm => ?_
      obtain ⟨member, hmember, rfl⟩ := List.mem_map.mp ((sortMembers_perm _).mem_iff.mp hm)
      exact ih member hmember

theorem nestingList_le_iff {items : List Json} {n : Nat} :
    nestingList items ≤ n ↔ ∀ v ∈ items, v.nesting ≤ n := by
  induction items with
  | nil => simp [nestingList]
  | cons item items ih => rw [nestingList, Nat.max_le, ih, List.forall_mem_cons]

theorem nestingMembers_le_iff {members : List (String × Json)} {n : Nat} :
    nestingMembers members ≤ n ↔ ∀ m ∈ members, m.2.nesting ≤ n := by
  induction members with
  | nil => simp [nestingMembers]
  | cons member members ih => rw [nestingMembers, Nat.max_le, ih, List.forall_mem_cons]

/-- Sorting the keys does not nest a value more deeply. -/
theorem Writable.nesting_sortKeys_le {v : Json} (h : Writable v) : v.sortKeys.nesting ≤ v.nesting := by
  induction h with
  | null => exact Nat.le_refl _
  | bool b => exact Nat.le_refl _
  | int n h => exact Nat.le_refl _
  | str s => exact Nat.le_refl _
  | arr items h ih =>
      rw [sortKeys_arr, nesting, nesting]
      refine Nat.succ_le_succ (nestingList_le_iff.mpr fun v hv => ?_)
      obtain ⟨item, hitem, rfl⟩ := List.mem_map.mp hv
      exact Nat.le_trans (ih item hitem) (nesting_le_of_mem hitem)
  | obj members hkeys h ih =>
      rw [sortKeys_obj, nesting, nesting]
      refine Nat.succ_le_succ (nestingMembers_le_iff.mpr fun m hm => ?_)
      obtain ⟨member, hmember, rfl⟩ := List.mem_map.mp ((sortMembers_perm _).mem_iff.mp hm)
      exact Nat.le_trans (ih member hmember) (nesting_le_of_mem_members hmember)

/-! ## Writing values of bounded depth -/

/-- A value whose text can be read back, with at most `n` brackets around any of
    its parts. -/
structure WritableIn (n : Nat) (v : Json) : Prop where
  writable : Writable v
  nesting_le : v.nesting ≤ n

namespace WritableIn

variable {n : Nat}

theorem null : WritableIn n .null := ⟨.null, Nat.zero_le n⟩

theorem bool (b : Bool) : WritableIn n (.bool b) := ⟨.bool b, Nat.zero_le n⟩

theorem str (s : String) : WritableIn n (.str s) := ⟨.str s, Nat.zero_le n⟩

theorem int {k : Int} (h : (Nat.toDigits 10 k.natAbs).length ≤ Text.TooManyDigits.limit) :
    WritableIn n (.int k) :=
  ⟨.int k h, Nat.zero_le n⟩

/-- A list is nested one deeper than its items. -/
theorem arr {vs : List Json} (h : ∀ v ∈ vs, WritableIn n v) : WritableIn (n + 1) (.arr vs) := by
  refine ⟨.arr vs fun v hv => (h v hv).writable, ?_⟩
  rw [nesting]
  exact Nat.succ_le_succ (nestingList_le_iff.mpr fun v hv => (h v hv).nesting_le)

/-- An object is nested one deeper than its members, and has each key once. -/
theorem obj {members : List (String × Json)} (hkeys : (members.map Prod.fst).Nodup)
    (h : ∀ m ∈ members, WritableIn n m.2) : WritableIn (n + 1) (.obj members) := by
  refine ⟨.obj members hkeys fun m hm => (h m hm).writable, ?_⟩
  rw [nesting]
  exact Nat.succ_le_succ (nestingMembers_le_iff.mpr fun m hm => (h m hm).nesting_le)

theorem mono {k : Nat} {v : Json} (h : WritableIn k v) (hle : k ≤ n) : WritableIn n v :=
  ⟨h.writable, Nat.le_trans h.nesting_le hle⟩

/-- A value is read back with sorted keys when its keys are sorted before it is
    written. -/
theorem parse_sortKeys {v : Json} (h : WritableIn n v) (hdepth : n ≤ depthLimit)
    (layout : Layout) : parse (v.sortKeys.text layout) = .ok v.sortKeys :=
  parse_text layout h.writable.sortKeys
    (Nat.le_trans h.writable.nesting_sortKeys_le (Nat.le_trans h.nesting_le hdepth))

end WritableIn

end MessageBody.Json
