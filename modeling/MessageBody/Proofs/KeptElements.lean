import MessageBody.Markup.Compression

/-! # Kept elements

    Markup source is cut into loose stretches and the elements between them that are kept.
    What is kept begins with a tag and ends with an end tag (`keptLength?_eq_some`).  A loose
    stretch stands before, between and after the elements, and laid out one after the other
    the stretches are the source (`isLaidOut_stretchesOf`). -/

namespace MessageBody.Markup

open Text

/-! ## Source without comments -/

/-- Source without the characters that a document may not hold, and then without comments. -/
def cleaned (s : List Char) : List Char :=
  dropComments (s.filter fun c => !isForbidden c)

/-- A comment stands in the source. -/
def HoldsComment (s : List Char) : Prop :=
  ∃ inside, "<!--".toList ++ inside ++ "-->".toList <:+: s

/-- A text with a comment has the beginning of one. -/
theorem HoldsComment.opening {s : List Char} (h : HoldsComment s) : "<!--".toList <:+: s := by
  obtain ⟨inside, before, after, rfl⟩ := h
  exact ⟨before, inside ++ "-->".toList ++ after, by simp⟩

/-- A mark that is found stands in the text. -/
theorem infix_of_lengthThrough? {mark s : List Char} {n : Nat}
    (h : lengthThrough? mark s = some n) : mark <:+: s := by
  induction s generalizing n with
  | nil => exact nomatch h
  | cons c cs ih =>
      rw [lengthThrough?] at h
      split at h
      · rename_i hmark
        exact (List.isPrefixOf_iff_prefix.mp hmark).isInfix
      · obtain ⟨m, hm, -⟩ := Option.map_eq_some_iff.mp h
        exact List.infix_cons_iff.mpr (.inr (ih hm))

/-- Where a comment is measured there is one. -/
theorem holdsComment_of_commentLength? {s : List Char} {n : Nat} (h : commentLength? s = some n) :
    HoldsComment s := by
  rw [commentLength?] at h
  split at h
  · rename_i hopening
    obtain ⟨rest, rfl⟩ := List.isPrefixOf_iff_prefix.mp hopening
    obtain ⟨m, hm, -⟩ := Option.map_eq_some_iff.mp h
    rw [List.drop_left] at hm
    obtain ⟨inside, after, rfl⟩ := infix_of_lengthThrough? hm
    exact ⟨inside, [], after, by simp⟩
  · exact nomatch h

/-- Where no comment stands, nothing is dropped. -/
theorem dropComments_of_not {s : List Char} (h : ¬ HoldsComment s) : dropComments s = s := by
  induction s with
  | nil => rfl
  | cons c cs ih =>
      have hnone : commentLength? (c :: cs) = none :=
        Option.eq_none_iff_forall_ne_some.mpr fun n hn => h (holdsComment_of_commentLength? hn)
      rw [dropComments, dropCommentsFrom, hnone]
      refine congrArg (c :: ·) (ih ?_)
      rintro ⟨inside, hinside⟩
      exact h ⟨inside, List.infix_cons_iff.mpr (.inr hinside)⟩

/-- Cleaning leaves a text without comments and forbidden characters as it is. -/
theorem cleaned_of_not {s : List Char} (hforbidden : ∀ c ∈ s, isForbidden c = false)
    (hcomment : ¬ HoldsComment s) : cleaned s = s := by
  have hfilter : s.filter (fun c => !isForbidden c) = s :=
    List.filter_eq_self.mpr fun c hc => by rw [hforbidden c hc]; rfl
  rw [cleaned, hfilter, dropComments_of_not hcomment]

/-! ## Elements -/

/-- An end tag. -/
def IsEndTag (e : List Char) : Prop :=
  ∃ inside, e = '<' :: '/' :: (inside ++ ['>']) ∧ '<' ∉ inside

/-- Source that begins with a tag and ends with an end tag. -/
structure IsElement (s : List Char) : Prop where
  head : s.head? = some '<'
  endTag : ∃ before e, s = before ++ e ∧ IsEndTag e

/-- An end tag begins with an angle bracket. -/
theorem IsEndTag.head {e : List Char} (h : IsEndTag e) : e.head? = some '<' := by
  obtain ⟨inside, rfl, -⟩ := h
  rfl

theorem IsElement.ne_nil {s : List Char} (h : IsElement s) : s ≠ [] := by
  rintro rfl
  exact nomatch h.head

/-- An element begins with an angle bracket, whatever comes behind it. -/
theorem IsElement.head_append {s : List Char} (h : IsElement s) (t : List Char) :
    (s ++ t).head? = some '<' := by
  rw [List.head?_append, h.head]
  rfl

/-- An element ends with an angle bracket. -/
theorem IsElement.getLast {s : List Char} (h : IsElement s) : s.getLast? = some '>' := by
  obtain ⟨-, before, e, rfl, inside, rfl, -⟩ := h
  exact List.getLast?_eq_some_iff.mpr ⟨before ++ '<' :: '/' :: inside, by simp⟩

/-- No other character is the lower case of `<`. -/
theorem eq_of_lowered_eq {c : Char} (h : lowered c = '<') : c = '<' := by
  rw [lowered] at h
  split at h
  · exact absurd h (by decide)
  · split at h
    · exact absurd h (by decide)
    · rw [asciiLower] at h
      split at h
      · rename_i hupper
        have hletters : ∀ n < 26, Char.ofNat ('A'.toNat + n + 32) ≠ '<' := by decide
        have hlow : 'A'.toNat ≤ c.toNat := hupper.1
        have hhigh : c.toNat ≤ 'A'.toNat + 25 := hupper.2
        refine absurd h ?_
        rw [← Nat.add_sub_cancel' hlow]
        exact hletters _ (by omega)
      · exact h

/-- A name that is written in other case holds no `<` either. -/
theorem not_mem_of_map_lowered {name written : List Char}
    (h : written.map lowered = name.map lowered) (hname : '<' ∉ name) : '<' ∉ written := by
  intro hmem
  have hlowered : '<' ∈ name.map lowered := h ▸ List.mem_map.mpr ⟨'<', hmem, rfl⟩
  obtain ⟨c, hc, hceq⟩ := List.mem_map.mp hlowered
  exact hname (eq_of_lowered_eq hceq ▸ hc)

/-- The name of a kept element holds no `<`. -/
theorem keptName?_eq_some {s name rest : List Char} (h : keptName? s = some (name, rest)) :
    s = name ++ rest ∧ '<' ∉ name := by
  obtain ⟨word, hword, h⟩ := List.exists_of_findSome?_eq_some h
  -- none of the names that are looked for holds a bracket
  have hno : '<' ∉ word := (by decide : ∀ word ∈ keptNames, '<' ∉ word) word hword
  rw [afterWord?] at h
  split at h
  · rename_i after hafter
    split at hafter
    · rename_i hfolded
      split at h
      · exact nomatch h
      · obtain ⟨rfl, rfl⟩ := Prod.mk.inj (Option.some.inj h)
        rw [← Option.some.inj hafter]
        refine ⟨(List.take_append_drop _ s).symm, fun hmem => hno ?_⟩
        rw [← hfolded]
        exact List.mem_map.mpr ⟨'<', hmem, rfl⟩
    · exact nomatch hafter
  · exact nomatch h

/-- The end tag of a name without `<` has no other `<` than its first character. -/
theorem endTagLength?_eq_some {name s : List Char} {n : Nat} (hname : '<' ∉ name)
    (h : endTagLength? name s = some n) :
    ∃ e rest, s = e ++ rest ∧ e.length = n ∧ IsEndTag e := by
  unfold endTagLength? at h
  split at h
  · rename_i rest
    split at h
    · rename_i hwritten
      dsimp only at h
      have hsplit := List.takeWhile_append_dropWhile (p := isBlank) (l := rest.drop name.length)
      have hlength : (rest.take name.length).length = name.length := by
        simpa using congrArg List.length hwritten
      split at h
      · rename_i after hafter
        rw [hafter] at hsplit
        refine ⟨'<' :: '/' :: (rest.take name.length
            ++ (rest.drop name.length).takeWhile isBlank ++ ['>']), after, ?_, ?_, _, rfl, ?_⟩
        · have : rest = rest.take name.length
              ++ ((rest.drop name.length).takeWhile isBlank ++ '>' :: after) := by
            rw [hsplit, List.take_append_drop]
          simpa using this
        · rw [← Option.some.inj h]
          simp only [List.length_cons, List.length_append, List.length_nil, hlength]
        · -- a bracket is neither in the name nor among the blanks behind it
          rw [List.mem_append]
          rintro (hmem | hmem)
          · exact not_mem_of_map_lowered hwritten hname hmem
          · have hblank := List.all_eq_true.mp List.all_takeWhile '<' hmem
            exact absurd hblank (by decide)
      · exact nomatch h
    · exact nomatch h
  · exact nomatch h

/-- What is taken through an end tag ends with one. -/
theorem throughEndTag?_eq_some {name s : List Char} {n : Nat} (hname : '<' ∉ name)
    (h : throughEndTag? name s = some n) :
    ∃ before e rest, s = before ++ e ++ rest ∧ (before ++ e).length = n ∧ IsEndTag e := by
  induction s generalizing n with
  | nil => exact nomatch h
  | cons c cs ih =>
      rw [throughEndTag?] at h
      split at h
      · rename_i m hm
        obtain ⟨e, rest, hs, hlength, he⟩ := endTagLength?_eq_some hname hm
        exact ⟨[], e, rest, hs, hlength.trans (Option.some.inj h), he⟩
      · obtain ⟨m, hm, hn⟩ := Option.map_eq_some_iff.mp h
        obtain ⟨before, e, rest, hs, hlength, he⟩ := ih hm
        exact ⟨c :: before, e, rest, congrArg (c :: ·) hs,
          (congrArg (· + 1) hlength).trans hn, he⟩

/-- A text that was cut is its parts with the sign between them. -/
theorem cutAt?_eq_some {sep : Char} {s before after : List Char}
    (h : cutAt? sep s = some (before, after)) : s = before ++ sep :: after := by
  induction s generalizing before with
  | nil => exact nomatch h
  | cons c cs ih =>
      rw [cutAt?] at h
      split at h
      · rename_i hc
        obtain ⟨rfl, rfl⟩ := Prod.mk.inj (Option.some.inj h)
        rw [hc]
        rfl
      · obtain ⟨⟨before', after'⟩, hcut, heq⟩ := Option.map_eq_some_iff.mp h
        obtain ⟨rfl, rfl⟩ := Prod.mk.inj heq
        exact congrArg (c :: ·) (ih hcut)

/-- What is kept is an element. -/
theorem keptLength?_eq_some {s : List Char} {n : Nat} (h : keptLength? s = some n) :
    ∃ b rest, s = b ++ rest ∧ b.length = n ∧ IsElement b := by
  unfold keptLength? at h
  split at h
  · rename_i s
    split at h
    · exact nomatch h
    · rename_i name afterName hkept
      obtain ⟨rfl, hname⟩ := keptName?_eq_some hkept
      split at h
      · exact nomatch h
      · rename_i inTag content hcut
        obtain ⟨m, hm, hn⟩ := Option.map_eq_some_iff.mp h
        obtain ⟨before, e, rest, rfl, hlength, he⟩ := throughEndTag?_eq_some hname hm
        refine ⟨'<' :: (name ++ inTag ++ '>' :: before) ++ e, rest, ?_, ?_, rfl, _, e, rfl, he⟩
        · rw [cutAt?_eq_some hcut]
          simp
        · rw [← hn, ← hlength]
          simp only [List.length_cons, List.length_append]
          omega
  · exact nomatch h

/-! ## Stretches -/

/-- The stretches laid out one after the other: a loose one stands before, between and after
    the kept ones, which are elements.  `Loose` tells what may stand in the place of a loose
    stretch, and `kept` what stands in the place of an element. -/
inductive IsLaidOut (Loose : List Char → List Char → Prop) (kept : List Char → List Char) :
    List Stretch → List Char → Prop
  | last {s t : List Char} : Loose s t → IsLaidOut Loose kept [.loose s] t
  | cons {s t b u : List Char} {rest : List Stretch} : Loose s t → IsElement b →
      IsLaidOut Loose kept rest u →
      IsLaidOut Loose kept (.loose s :: .kept b :: rest) (t ++ (kept b ++ u))

/-- A layout stays one if the loose stretches may be changed more and the kept ones alike. -/
theorem IsLaidOut.mono {Loose Loose' : List Char → List Char → Prop}
    {kept kept' : List Char → List Char} {stretches : List Stretch} {u : List Char}
    (h : IsLaidOut Loose kept stretches u) (hloose : ∀ s t, Loose s t → Loose' s t)
    (hkept : ∀ b, .kept b ∈ stretches → kept' b = kept b) :
    IsLaidOut Loose' kept' stretches u := by
  induction h with
  | last ht => exact .last (hloose _ _ ht)
  | @cons s t b u rest ht hb _ ih =>
      have hrest := ih fun b hb => hkept b (List.mem_cons_of_mem _ (List.mem_cons_of_mem _ hb))
      rw [← hkept b (List.mem_cons_of_mem _ List.mem_cons_self)]
      exact .cons (hloose _ _ ht) hb hrest

/-- Laid out as they are, the stretches are what has been read of the current one and the
    source that is not passed over. -/
theorem isLaidOut_stretchesOf (skip : Nat) (cur s : List Char) :
    IsLaidOut Eq id (stretchesOf skip cur s) (cur.reverse ++ s.drop skip) := by
  -- `cur` is the loose text so far, backwards; `skip` counts what is left of an element
  induction s generalizing skip cur with
  | nil =>
      rw [List.drop_nil, List.append_nil]
      cases skip <;> exact .last rfl
  | cons c cs ih =>
      cases skip with
      | succ skip => exact ih skip cur
      | zero =>
          rw [stretchesOf]
          split
          · rename_i n hn
            obtain ⟨b, rest, hs, rfl, hb⟩ := keptLength?_eq_some hn
            have hdrop : cs.drop (b.length - 1) = rest := by
              have : cs.drop (b.length - 1) = (c :: cs).drop b.length := by
                obtain ⟨d, ds, rfl⟩ := List.exists_cons_of_ne_nil hb.ne_nil
                rfl
              rw [this, hs, List.drop_left]
            have hrest := ih (b.length - 1) []
            rw [hdrop] at hrest
            rw [List.drop_zero, hs, List.take_left]
            exact .cons rfl hb hrest
          · have hrest := ih 0 (c :: cur)
            rwa [List.reverse_cons, List.append_assoc] at hrest

end MessageBody.Markup
