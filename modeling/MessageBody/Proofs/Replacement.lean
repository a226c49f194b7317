import MessageBody.Text.Search

/-! # Replacing a fixed text

    Replacing walks through a text from left to right: where the text to be replaced
    stands, the other one is put in its place, and any other character is copied.  Two
    texts that are put together can be worked on one after the other as long as the text
    to be replaced stands nowhere across the seam. -/

namespace MessageBody.Text

variable {pat : List Char}

/-! ## Cutting a text up -/

theorem stretchesFrom_ne_nil (pat : List Char) (skip : Nat) (cur s : List Char) :
    stretchesFrom pat skip cur s ≠ [] := by
  induction s generalizing skip cur with
  | nil => cases skip <;> exact List.cons_ne_nil _ _
  | cons c cs ih =>
      cases skip with
      | succ skip => exact ih skip cur
      | zero =>
          rw [stretchesFrom]
          split
          · exact List.cons_ne_nil _ _
          · exact ih 0 (c :: cur)

/-- What has been read of the current stretch stands in front of the first one. -/
theorem stretchesFrom_eq_modifyHead (skip : Nat) (cur s : List Char) :
    stretchesFrom pat skip cur s
      = (stretchesFrom pat skip [] s).modifyHead (cur.reverse ++ ·) := by
  induction s generalizing skip cur with
  | nil =>
      cases skip <;>
        exact congrArg (fun t => [t]) (List.append_nil _).symm
  | cons c cs ih =>
      cases skip with
      | succ skip => exact ih skip cur
      | zero =>
          rw [stretchesFrom, stretchesFrom]
          split
          · exact congrArg (· :: stretchesFrom pat (pat.length - 1) [] cs)
              (List.append_nil _).symm
          · rw [ih 0 (c :: cur), ih 0 [c], List.modifyHead_modifyHead]
            refine congrArg (fun f => List.modifyHead f (stretchesFrom pat 0 [] cs))
              (funext fun t => ?_)
            simp

/-- Characters that are passed over might as well not be there. -/
theorem stretchesFrom_skip (skip : Nat) (s : List Char) :
    stretchesFrom pat skip [] s = stretchesFrom pat 0 [] (s.drop skip) := by
  induction s generalizing skip with
  | nil => cases skip <;> rfl
  | cons c cs ih =>
      cases skip with
      | zero => rfl
      | succ skip => exact ih skip

/-- There is always a stretch, if only an empty one. -/
theorem stretches_ne_nil (pat s : List Char) : stretches pat s ≠ [] :=
  stretchesFrom_ne_nil pat 0 [] s

/-- In front of an occurrence at the start there is nothing. -/
theorem stretches_occurrence (hpat : pat ≠ []) (s : List Char) :
    stretches pat (pat ++ s) = [] :: stretches pat s := by
  obtain ⟨c, cs, rfl⟩ := List.exists_cons_of_ne_nil hpat
  have hprefix : (c :: cs).isPrefixOf (c :: (cs ++ s)) = true :=
    List.isPrefixOf_iff_prefix.mpr (List.prefix_append (c :: cs) s)
  rw [stretches, List.cons_append, stretchesFrom, if_pos hprefix, stretchesFrom_skip,
    List.length_cons, Nat.add_sub_cancel, List.drop_left]
  rfl

/-- Any other character belongs to the first stretch. -/
theorem stretches_cons {c : Char} {cs : List Char} (h : ¬ pat <+: c :: cs) :
    stretches pat (c :: cs) = (stretches pat cs).modifyHead (c :: ·) := by
  rw [stretches, stretchesFrom, if_neg (fun hp => h (List.isPrefixOf_iff_prefix.mp hp)),
    stretchesFrom_eq_modifyHead]
  rfl

/-! ## Replacing -/

/-- An occurrence at the start is replaced. -/
theorem replace_occurrence (hpat : pat ≠ []) (new s : List Char) :
    replace pat new (pat ++ s) = new ++ replace pat new s := by
  rw [replace, stretches_occurrence hpat, List.intercalate_cons_of_ne_nil (stretches_ne_nil _ _)]
  rfl

/-- Any other character is copied. -/
theorem replace_cons (new : List Char) {c : Char} {cs : List Char} (h : ¬ pat <+: c :: cs) :
    replace pat new (c :: cs) = c :: replace pat new cs := by
  rw [replace, stretches_cons h, replace]
  obtain ⟨first, rest, hcut⟩ := List.exists_cons_of_ne_nil (stretches_ne_nil pat cs)
  rw [hcut, List.modifyHead_cons]
  cases rest with
  | nil => simp [List.intercalate]
  | cons second rest => rw [List.intercalate_cons_cons, List.intercalate_cons_cons]; rfl

/-- A text is worked through occurrence by occurrence and character by character. -/
theorem replace_induction (hpat : pat ≠ []) {motive : List Char → Prop} (nil : motive [])
    (occurrence : ∀ s, motive s → motive (pat ++ s))
    (other : ∀ c cs, ¬ pat <+: c :: cs → motive cs → motive (c :: cs)) (s : List Char) :
    motive s := by
  -- an occurrence takes away several characters at once, so the induction is on the length
  induction hlength : s.length using Nat.strongRecOn generalizing s with
  | _ n ih =>
      subst hlength
      cases s with
      | nil => exact nil
      | cons c cs =>
          by_cases h : pat <+: c :: cs
          · obtain ⟨rest, hrest⟩ := h
            rw [← hrest] at ih ⊢
            refine occurrence rest (ih _ ?_ rest rfl)
            have := List.length_pos_iff.mpr hpat
            rw [List.length_append]
            omega
          · exact other c cs h (ih _ (Nat.lt_succ_self _) cs rfl)

/-- Replaced by itself, a text leaves everything as it is. -/
theorem replace_self (hpat : pat ≠ []) (s : List Char) : replace pat pat s = s := by
  induction s using replace_induction hpat with
  | nil => rfl
  | occurrence s ih => rw [replace_occurrence hpat, ih]
  | other c cs hother ih => rw [replace_cons pat hother, ih]

/-- In no stretch is there an occurrence left. -/
theorem not_infix_of_mem_stretches (hpat : pat ≠ []) (s : List Char) :
    ∀ stretch ∈ stretches pat s, ¬ pat <:+: stretch := by
  induction s using replace_induction hpat with
  | nil =>
      intro stretch hmem hinfix
      rw [stretches_nil, List.mem_singleton] at hmem
      exact hpat (List.eq_nil_of_infix_nil (hmem ▸ hinfix))
  | occurrence s ih =>
      rw [stretches_occurrence hpat]
      exact List.forall_mem_cons.mpr ⟨fun h => hpat (List.eq_nil_of_infix_nil h), ih⟩
  | other c cs hother ih =>
      obtain ⟨first, rest, hcut⟩ := List.exists_cons_of_ne_nil (stretches_ne_nil pat cs)
      -- what is behind `c` begins with the rest of the first stretch
      have hfirst : first <+: cs := by
        have hself := replace_self hpat cs
        rw [replace, hcut] at hself
        cases rest with
        | nil => exact ⟨[], by simpa using hself⟩
        | cons second rest =>
            rw [List.intercalate_cons_cons, List.append_assoc] at hself
            exact ⟨_, hself⟩
      rw [stretches_cons hother, hcut, List.modifyHead_cons]
      rw [hcut] at ih
      obtain ⟨hhead, hrest⟩ := List.forall_mem_cons.mp ih
      refine List.forall_mem_cons.mpr ⟨fun hinfix => ?_, hrest⟩
      rcases List.infix_cons_iff.mp hinfix with hfront | hinside
      · exact hother (hfront.trans ((List.prefix_append_right_inj [c]).mpr hfirst))
      · exact hhead hinside

/-- The text to be replaced stands nowhere across the seam of `s` and `t`. -/
def KeepsApart (pat s t : List Char) : Prop :=
  ∀ u v, u ≠ [] → v ≠ [] → pat = u ++ v → u <:+ s → ¬ v <+: t

/-- What is kept apart from a text is kept apart from its end. -/
theorem KeepsApart.of_suffix {s s' t : List Char} (h : KeepsApart pat s t) (hs : s' <:+ s) :
    KeepsApart pat s' t := fun u v hu hv huv hsuffix =>
  h u v hu hv huv (hsuffix.trans hs)

/-- Texts can be worked on one after the other. -/
theorem replace_append (hpat : pat ≠ []) (new : List Char) {s t : List Char}
    (h : KeepsApart pat s t) :
    replace pat new (s ++ t) = replace pat new s ++ replace pat new t := by
  induction s using replace_induction hpat with
  | nil => rfl
  | occurrence s ih =>
      rw [List.append_assoc, replace_occurrence hpat, replace_occurrence hpat,
        ih (h.of_suffix (List.suffix_append pat s)), List.append_assoc]
  | other c cs hother ih =>
      have hseam : ¬ pat <+: c :: (cs ++ t) := by
        intro hp
        rcases List.prefix_or_prefix_of_prefix hp (List.prefix_append (c :: cs) t) with hle | hle
        · exact hother hle
        · -- the occurrence begins before the seam and ends behind it
          obtain ⟨v, hv⟩ := hle
          have hne : v ≠ [] := by
            rintro rfl
            rw [List.append_nil] at hv
            exact hother (hv ▸ List.prefix_refl _)
          rw [← hv] at hp
          exact h (c :: cs) v (List.cons_ne_nil c cs) hne hv.symm (List.suffix_refl _)
            ((List.prefix_append_right_inj (c :: cs)).mp hp)
      rw [List.cons_append, replace_cons new hseam, replace_cons new hother,
        ih (h.of_suffix (List.suffix_cons c cs)), List.cons_append]

/-- A text in which nothing is to be replaced stays as it is. -/
theorem replace_eq_self (hpat : pat ≠ []) (new : List Char) {s : List Char}
    (h : ¬ pat <:+: s) : replace pat new s = s := by
  induction s using replace_induction hpat with
  | nil => rfl
  | occurrence s _ => exact absurd (List.prefix_append pat s).isInfix h
  | other c cs hother ih =>
      rw [replace_cons new hother, ih fun hin => h (List.infix_cons_iff.mpr (.inr hin))]

/-- Putting in something shorter makes a text shorter that has an occurrence. -/
theorem length_replace_lt {new : List Char} (hnew : new.length < pat.length) {s : List Char}
    (h : pat <:+: s) : (replace pat new s).length < s.length := by
  have hpat : pat ≠ [] := by
    rintro rfl
    exact Nat.not_lt_zero _ hnew
  -- no other replacement makes the text longer, so the one that is there decides
  have hle : ∀ s, (replace pat new s).length ≤ s.length := by
    intro s
    induction s using replace_induction hpat with
    | nil => exact Nat.le_refl _
    | occurrence s ih =>
        rw [replace_occurrence hpat, List.length_append, List.length_append]
        omega
    | other c cs hother ih =>
        rw [replace_cons new hother]
        exact Nat.succ_le_succ ih
  induction s using replace_induction hpat with
  | nil => exact absurd (List.eq_nil_of_infix_nil h) hpat
  | occurrence s _ =>
      have := hle s
      rw [replace_occurrence hpat, List.length_append, List.length_append]
      omega
  | other c cs hother ih =>
      rw [replace_cons new hother]
      exact Nat.succ_lt_succ (ih ((List.infix_cons_iff.mp h).resolve_left hother))

end MessageBody.Text
