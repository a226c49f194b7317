import MessageBody.Proofs.DroppedSpaces
import MessageBody.Proofs.KeptElements

/-! # Compressed markup

    Compressing works on the whole source in passes: the runs of blanks in loose source
    become single spaces, its tags are tidied, both ends of the source are trimmed, and last
    the space behind some tags goes.  Each pass only takes away spaces, and none of them
    sees across the border between a loose stretch and an element that is kept, so the
    stretches stay apart.  The last pass does not stop at the elements, though: one comes
    out as it was just when no such tag with a space behind it stands in it. -/

namespace MessageBody.Markup

open Text

/-! ## Tidied tags -/

/-- What is found inside a tag stands between its angle brackets. -/
theorem tagInside?_eq_some {s inside : List Char} (h : tagInside? s = some inside) :
    ∃ rest, s = '<' :: (inside ++ '>' :: rest) := by
  unfold tagInside? at h
  split at h
  · rename_i s
    dsimp only at h
    split at h
    · split at h
      · split at h
        · rename_i rest hrest
          refine ⟨rest, congrArg ('<' :: ·) ?_⟩
          rw [← Option.some.inj h, ← hrest, List.takeWhile_append_dropWhile]
        · exact nomatch h
      · exact nomatch h
    · exact nomatch h
  · exact nomatch h

/-- Tidying the inside of a tag takes spaces away and nothing else. -/
theorem dropsSpaces_tidyInside {inside : List Char}
    (h : ∀ c ∈ inside, isSourceBlank c = true → c = ' ') :
    DropsSpaces inside (tidyInside inside) := by
  have hbody := dropsSpaces_trimEnd h
  rw [tidyInside]
  split
  · rename_i hslash
    obtain ⟨init, hinit⟩ := List.getLast?_eq_some_iff.mp hslash
    rw [hinit] at hbody ⊢
    rw [List.dropLast_concat]
    have hspaces : ∀ c ∈ init, isSourceBlank c = true → c = ' ' := fun c hc =>
      h c (hbody.mem c (List.mem_append_left _ hc))
    exact hbody.trans ((dropsSpaces_trimEnd hspaces).append (.refl ['/']))
  · exact hbody

/-- Where spaces are the only blanks, tidying tags drops spaces. -/
theorem dropsSpaces_tidyTagsFrom (skip : Nat) {s : List Char}
    (h : ∀ c ∈ s, isSourceBlank c = true → c = ' ') :
    DropsSpaces (s.drop skip) (tidyTagsFrom skip s) := by
  induction s generalizing skip with
  | nil => cases skip <;> exact .nil
  | cons c cs ih =>
      obtain ⟨-, hcs⟩ := List.forall_mem_cons.mp h
      cases skip with
      | succ skip => exact ih skip hcs
      | zero =>
          rw [tidyTagsFrom]
          split
          · rename_i inside hinside
            obtain ⟨rest, hs⟩ := tagInside?_eq_some hinside
            obtain ⟨rfl, rfl⟩ := List.cons.inj hs
            have hrest := ih (inside.length + 1) hcs
            rw [List.drop_append, List.drop_eq_nil_of_le (Nat.le_succ _),
              Nat.add_sub_cancel_left] at hrest
            have hspaces : ∀ c ∈ inside, isSourceBlank c = true → c = ' ' := fun c hc =>
              hcs c (List.mem_append_left _ hc)
            exact .keep '<' ((dropsSpaces_tidyInside hspaces).append (.keep '>' hrest))
          · exact .keep c (ih 0 hcs)

/-! ## Spaces behind tags -/

/-- The source without the space behind each of the tags, one tag after the other. -/
def respaced (tags : List (List Char)) (s : List Char) : List Char :=
  tags.foldl (fun s tag => replace (tag ++ [' ']) tag s) s

/-- Taking spaces away behind the given tags takes nothing else away. -/
theorem dropsSpaces_respaced (tags : List (List Char)) (s : List Char) :
    DropsSpaces s (respaced tags s) := by
  induction tags generalizing s with
  | nil => exact .refl s
  | cons tag tags ih => exact (dropsSpaces_replace tag s).trans (ih _)

/-- Source stays as it is just when no space stands behind one of the tags. -/
theorem respaced_eq_self_iff (tags : List (List Char)) (s : List Char) :
    respaced tags s = s ↔ ∀ tag ∈ tags, ¬ tag ++ [' '] <:+: s := by
  induction tags with
  | nil => exact ⟨fun _ => nofun, fun _ => rfl⟩
  | cons tag tags ih =>
      rw [List.forall_mem_cons, ← ih, respaced, List.foldl_cons]
      by_cases h : tag ++ [' '] <:+: s
      · have hlt : (replace (tag ++ [' ']) tag s).length < s.length :=
          length_replace_lt (by simp) h
        have hle := (dropsSpaces_respaced tags (replace (tag ++ [' ']) tag s)).length_le
        constructor
        · intro heq
          rw [respaced, heq] at hle
          omega
        · intro hnot
          exact absurd h hnot.1
      · rw [replace_eq_self (by simp) tag h]
        exact ⟨fun heq => ⟨h, heq⟩, fun heq => heq.2⟩

/-- A text that begins with `<`, but not with that of an end tag, and has no other one. -/
def OpensTag (pat : List Char) : Prop :=
  ∃ c r, pat = '<' :: c :: r ∧ c ≠ '/' ∧ '<' ∉ c :: r

namespace OpensTag

variable {pat : List Char}

/-- A pattern that opens a tag has a character. -/
theorem ne_nil (h : OpensTag pat) : pat ≠ [] := by
  obtain ⟨c, r, rfl, -, -⟩ := h
  exact List.cons_ne_nil _ _

/-- It does not reach into another tag. -/
theorem keepsApart (h : OpensTag pat) (s : List Char) {t : List Char} (ht : t.head? = some '<') :
    KeepsApart pat s t := by
  obtain ⟨c, r, rfl, -, hno⟩ := h
  intro u v hu hv huv _ hprefix
  obtain ⟨d, u, rfl⟩ := List.exists_cons_of_ne_nil hu
  obtain ⟨rfl, hcr⟩ := List.cons.inj huv
  obtain ⟨e, v, rfl⟩ := List.exists_cons_of_ne_nil hv
  obtain ⟨after, rfl⟩ := hprefix
  obtain rfl : e = '<' := Option.some.inj ht
  rw [hcr] at hno
  exact hno (List.mem_append_right _ List.mem_cons_self)

/-- It does not begin in an end tag. -/
theorem eq_nil_of_suffix (h : OpensTag pat) {before e u v : List Char} (he : IsEndTag e)
    (huv : pat = u ++ v) (hsuffix : u <:+ before ++ e) : u = [] := by
  obtain ⟨c, r, rfl, hc, hno⟩ := h
  obtain ⟨inside, rfl, hinside⟩ := he
  cases u with
  | nil => rfl
  | cons d u =>
      obtain ⟨rfl, hcr⟩ := List.cons.inj huv
      have hu : '<' ∉ u := fun hmem => hno (hcr ▸ List.mem_append_left _ hmem)
      have he : '<' ∉ '/' :: (inside ++ ['>']) := by
        simpa using hinside
      -- the last `<` of both texts is their first character
      have hsame : '<' :: u = '<' :: '/' :: (inside ++ ['>']) := by
        rcases List.suffix_or_suffix_of_suffix hsuffix (List.suffix_append before _) with hs | hs
        · rcases List.suffix_cons_iff.mp hs with heq | hs
          · exact heq
          · exact absurd (hs.subset List.mem_cons_self) he
        · rcases List.suffix_cons_iff.mp hs with heq | hs
          · exact heq.symm
          · exact absurd (hs.subset List.mem_cons_self) hu
      rw [(List.cons.inj hsame).2] at hcr
      exact absurd (List.cons.inj hcr).1 hc

/-- A pattern that opens a tag does not occur in an end tag. -/
theorem not_infix_endTag (h : OpensTag pat) {e : List Char} (he : IsEndTag e) : ¬ pat <:+: e := by
  obtain ⟨c, r, rfl, hc, -⟩ := h
  obtain ⟨inside, rfl, hinside⟩ := he
  intro hinfix
  rcases List.infix_cons_iff.mp hinfix with hprefix | hinfix
  · exact hc (List.cons_prefix_cons.mp (List.cons_prefix_cons.mp hprefix).2).1
  · have hmem := hinfix.subset List.mem_cons_self
    exact hinside (by simpa using hmem)

end OpensTag

/-- Each tag that loses the space behind it opens a tag. -/
theorem opensTag_spacelessTags : ∀ tag ∈ spacelessTags, OpensTag (tag ++ [' ']) := by
  intro tag h
  simp only [spacelessTags, List.mem_cons, List.not_mem_nil, or_false] at h
  rcases h with rfl | rfl | rfl <;> exact ⟨_, _, rfl, by decide, by decide⟩

section Respaced

variable {tags : List (List Char)} (htags : ∀ tag ∈ tags, OpensTag (tag ++ [' ']))

include htags

/-- A text and a tag behind it can be worked on one after the other. -/
theorem respaced_append (s : List Char) {t : List Char} (ht : t.head? = some '<') :
    respaced tags (s ++ t) = respaced tags s ++ respaced tags t := by
  induction tags generalizing s t with
  | nil => rfl
  | cons tag tags ih =>
      obtain ⟨htag, htags⟩ := List.forall_mem_cons.mp htags
      have hhead : (replace (tag ++ [' ']) tag t).head? = some '<' := by
        rw [(dropsSpaces_replace tag t).head?_eq (by rw [ht]; decide), ht]
      rw [respaced, List.foldl_cons, replace_append htag.ne_nil tag (htag.keepsApart s ht)]
      exact ih htags _ hhead

/-- An element and what stands behind it can be worked on one after the other, and the
    element stays one. -/
theorem respaced_element {b : List Char} (hb : IsElement b) (t : List Char) :
    respaced tags (b ++ t) = respaced tags b ++ respaced tags t ∧ IsElement (respaced tags b) := by
  induction tags generalizing b t with
  | nil => exact ⟨rfl, hb⟩
  | cons tag tags ih =>
      obtain ⟨htag, htags⟩ := List.forall_mem_cons.mp htags
      obtain ⟨hhead, before, e, rfl, he⟩ := hb
      have hreplaced : IsElement (replace (tag ++ [' ']) tag (before ++ e)) := by
        refine ⟨?_, replace (tag ++ [' ']) tag before, e, ?_, he⟩
        · rw [(dropsSpaces_replace tag (before ++ e)).head?_eq (by rw [hhead]; decide), hhead]
        · rw [replace_append htag.ne_nil tag (htag.keepsApart before he.head),
            replace_eq_self htag.ne_nil tag (htag.not_infix_endTag he)]
      have hapart : KeepsApart (tag ++ [' ']) (before ++ e) t := by
        intro u v hu _ huv hsuffix _
        exact hu (htag.eq_nil_of_suffix he huv hsuffix)
      rw [respaced, List.foldl_cons, replace_append htag.ne_nil tag hapart]
      exact ih htags hreplaced _

end Respaced

/-! ## The passes -/

/-- Compressed loose source is the squeezed source less some spaces. -/
theorem dropsSpaces_compressLoose (s : List Char) :
    DropsSpaces (squeeze isSourceBlank false s) (compressLoose s) :=
  dropsSpaces_tidyTagsFrom 0 (isSpaced_squeeze false s).1.1

/-- Compressed loose source, less spaces at its ends. -/
def Trims (s t : List Char) : Prop :=
  Trimmed (compressLoose s) t

/-- What comes out for a loose stretch: its compressed form, less spaces at its ends, without
    the space behind some tags. -/
def Compresses (s t : List Char) : Prop :=
  ∃ u, Trims s u ∧ t = respaced spacelessTags u

/-- Compressing squeezes blanks and takes spaces away. -/
theorem Compresses.dropsSpaces {s t : List Char} (h : Compresses s t) :
    DropsSpaces (squeeze isSourceBlank false s) t := by
  obtain ⟨u, hu, rfl⟩ := h
  exact (dropsSpaces_compressLoose s).trans (hu.dropsSpaces.trans (dropsSpaces_respaced _ u))

/-- Compressing keeps the characters that are not blank. -/
theorem Compresses.nonblank_eq {s t : List Char} (h : Compresses s t) :
    nonblank t = nonblank s := by
  rw [h.dropsSpaces.nonblank_eq, nonblank_squeeze]

/-- Compressed text has single spaces and no other blanks. -/
theorem Compresses.isSpaced {s t : List Char} (h : Compresses s t) : IsSpaced t :=
  (isSpaced_squeeze false s).1.of_dropsSpaces h.dropsSpaces

namespace IsLaidOut

variable {Loose : List Char → List Char → Prop} {kept : List Char → List Char}
  {stretches : List Stretch} {s u : List Char}

/-- The loose stretches are squeezed and their tags are tidied. -/
theorem compressed (h : IsLaidOut Loose kept stretches u) :
    IsLaidOut Trims id stretches (stretches.flatMap Stretch.compressed) := by
  induction h with
  | @last s t _ =>
      rw [List.flatMap_singleton]
      exact .last (.refl (compressLoose s))
  | @cons s t b u rest _ hb _ ih =>
      rw [List.flatMap_cons, List.flatMap_cons]
      exact .cons (.refl (compressLoose s)) hb ih

/-- Spaces at the start of the source stand in the first loose stretch. -/
theorem trimmedStart (h : IsLaidOut Trims id stretches u) :
    IsLaidOut Trims id stretches (trimStart (· == ' ') u) := by
  cases h with
  | last ht => exact .last ht.trimStart
  | @cons s t b u rest ht hb hrest =>
      rw [id, trimStart_append (by decide) t (hb.head_append u)]
      exact .cons ht.trimStart hb hrest

/-- Spaces at the end of the source stand in the last loose stretch. -/
theorem trimmedEnd (h : IsLaidOut Trims id stretches u) :
    IsLaidOut Trims id stretches (trimEnd (· == ' ') u) := by
  induction h with
  | last ht => exact .last ht.trimEnd
  | @cons s t b u rest ht hb _ ih =>
      have hlast : (t ++ b).getLast? = some '>' := by
        rw [List.getLast?_append, hb.getLast]
        rfl
      rw [id, ← List.append_assoc, trimEnd_append (by decide) hlast, List.append_assoc]
      exact .cons ht hb ih

/-- The space behind some tags goes, in the elements as well. -/
theorem respaced (h : IsLaidOut Trims id stretches u) :
    IsLaidOut Compresses (respaced spacelessTags) stretches (respaced spacelessTags u) := by
  induction h with
  | @last s t ht => exact .last ⟨t, ht, rfl⟩
  | @cons s t b u rest ht hb _ ih =>
      rw [id, respaced_append opensTag_spacelessTags t (hb.head_append u),
        (respaced_element opensTag_spacelessTags hb u).1]
      exact .cons ⟨t, ht, rfl⟩ hb ih

/-- Where loose stretches and elements keep the characters that are not blank, the whole
    source does. -/
theorem nonblank_eq (h : IsLaidOut Eq id stretches s) (h' : IsLaidOut Loose kept stretches u)
    (hloose : ∀ s t, Loose s t → nonblank t = nonblank s)
    (hkept : ∀ b, nonblank (kept b) = nonblank b) : nonblank u = nonblank s := by
  induction h' generalizing s with
  | last ht =>
      cases h with
      | last hs => rw [hloose _ _ ht, hs]
  | @cons s t b u rest ht _ _ ih =>
      cases h with
      | cons hs _ hrest =>
          simp only [nonblank_append, hloose _ _ ht, hkept, ih hrest, ← hs, id]

/-- Where the elements begin and end as before and keep the characters that are not blank,
    they can be told from the whole source. -/
theorem kept_eq_self (h : IsLaidOut Loose kept stretches u) (h' : IsLaidOut Loose id stretches u)
    (hloose : ∀ s t, Loose s t → nonblank t = nonblank s)
    (hkept : ∀ b, IsElement b → IsElement (kept b) ∧ nonblank (kept b) = nonblank b) :
    ∀ b, .kept b ∈ stretches → kept b = b := by
  generalize hu : u = u' at h'
  induction h generalizing u' with
  | last _ =>
      intro b hb
      exact nomatch List.mem_singleton.mp hb
  | @cons s t b u rest ht hb _ ih =>
      cases h' with
      | @cons _ t' _ u' _ ht' _ hrest =>
          obtain ⟨helement, hnonblank⟩ := hkept b hb
          obtain ⟨x, hx⟩ := List.head?_eq_some_iff.mp helement.head
          obtain ⟨x', hx'⟩ := List.head?_eq_some_iff.mp hb.head
          obtain ⟨y, hy⟩ := List.getLast?_eq_some_iff.mp helement.getLast
          obtain ⟨y', hy'⟩ := List.getLast?_eq_some_iff.mp hb.getLast
          -- the `<` of the element ends the loose text, and its last `>` ends the element
          have hstart : t ++ '<' :: (x ++ u) = t' ++ '<' :: (x' ++ u') := by
            rw [hx, id, hx'] at hu
            exact hu
          have hloose : t = t' :=
            eq_of_nonblank_eq (by decide) hstart ((hloose s t ht).trans (hloose s t' ht').symm)
          rw [hloose, List.append_cancel_left_eq, id] at hu
          have hend : y ++ '>' :: u = y' ++ '>' :: u' := by
            rw [hy, hy', List.append_assoc, List.append_assoc] at hu
            exact hu
          have hinit : y = y' := by
            rw [hy, hy', nonblank_append, nonblank_append, List.append_cancel_right_eq]
              at hnonblank
            exact eq_of_nonblank_eq (by decide) hend hnonblank
          have hsame : kept b = b := by rw [hy, hy', hinit]
          rw [hsame, List.append_cancel_left_eq] at hu
          intro b' hb'
          rcases List.mem_cons.mp hb' with heq | hb'
          · exact nomatch heq
          · rcases List.mem_cons.mp hb' with heq | hb'
            · rw [Stretch.kept.inj heq, hsame]
            · exact ih u' hu hrest b' hb'

end IsLaidOut

/-- Compressed source is laid out as the source is: loose stretches are compressed, elements
    lose the space behind some tags. -/
theorem isLaidOut_compress (s : List Char) :
    IsLaidOut Compresses (respaced spacelessTags) (stretchesOf 0 [] (cleaned s)) (compress s) :=
  (isLaidOut_stretchesOf 0 [] (cleaned s)).compressed.trimmedStart.trimmedEnd.respaced

/-! ## Compressed source -/

/-- **Kept elements**: compressed source has each kept element in its place, less the space
    behind some tags, and nothing but compressed source between them.  The elements come out as
    they are just when no such tag with a space behind it stands in one of them. -/
theorem kept_compress {s : List Char} (hforbidden : ∀ c ∈ s, isForbidden c = false)
    (hcomment : ¬ HoldsComment s) :
    IsLaidOut Compresses (respaced spacelessTags) (stretchesOf 0 [] s) (compress s)
      ∧ (IsLaidOut Compresses id (stretchesOf 0 [] s) (compress s)
        ↔ ∀ b, .kept b ∈ stretchesOf 0 [] s → ∀ tag ∈ spacelessTags, ¬ tag ++ [' '] <:+: b) := by
  have hlaidOut := isLaidOut_compress s
  rw [cleaned_of_not hforbidden hcomment] at hlaidOut
  refine ⟨hlaidOut, ?_, ?_⟩
  · intro hsame b hb
    refine (respaced_eq_self_iff spacelessTags b).mp
      (hlaidOut.kept_eq_self hsame (fun _ _ h => h.nonblank_eq) ?_ b hb)
    intro b hb
    exact ⟨(respaced_element opensTag_spacelessTags hb []).2,
      (dropsSpaces_respaced spacelessTags b).nonblank_eq⟩
  · intro hnone
    refine hlaidOut.mono (fun _ _ h => h) fun b hb => ?_
    exact ((respaced_eq_self_iff spacelessTags b).mpr (hnone b hb)).symm

/-- Preformatted text with a line break behind a tag, between two numbers. -/
def numberedCode : List Char :=
  " 1\n<PRE >a\n  b<br>\nc</PRE>  2 ".toList

/-- The code between the numbers keeps its lines and its indentation. -/
theorem kept_compress_numberedCode :
    (∀ c ∈ numberedCode, isForbidden c = false) ∧ ¬ HoldsComment numberedCode
      ∧ IsLaidOut Compresses id (stretchesOf 0 [] numberedCode) (compress numberedCode)
      ∧ compress numberedCode = "1 <PRE >a\n  b<br>\nc</PRE> 2".toList := by
  have hnone : numberedCode.any isForbidden = false := by decide +kernel
  have hforbidden : ∀ c ∈ numberedCode, isForbidden c = false := fun c hc =>
    Bool.eq_false_iff.mpr (List.any_eq_false.mp hnone c hc)
  have hcomment : ¬ HoldsComment numberedCode :=
    fun h => absurd h.opening (by decide +kernel)
  have hstretches : stretchesOf 0 [] numberedCode
      = [.loose " 1\n".toList, .kept "<PRE >a\n  b<br>\nc</PRE>".toList,
        .loose "  2 ".toList] := by decide +kernel
  refine ⟨hforbidden, hcomment, (kept_compress hforbidden hcomment).2.mpr fun b hb => ?_,
    by decide +kernel⟩
  rw [hstretches] at hb
  obtain rfl : b = "<PRE >a\n  b<br>\nc</PRE>".toList := by simpa using hb
  decide +kernel

/-- A space behind a tag goes in preformatted text as well. -/
example : compress "<pre>a<br> b</pre>".toList = "<pre>a<br>b</pre>".toList := by
  decide +kernel

/-- **Compression keeps what is not blank**: cleaned source and compressed source have the same
    characters that are not blank, in the same order.  Each loose stretch keeps its own, and
    the only blanks in what comes out for it are single spaces. -/
theorem nonblank_compress (s : List Char) :
    nonblank (compress s) = nonblank (cleaned s)
      ∧ IsLaidOut (fun s t => nonblank t = nonblank s ∧ IsSpaced t) (respaced spacelessTags)
        (stretchesOf 0 [] (cleaned s)) (compress s) := by
  have hlaidOut := isLaidOut_compress s
  refine ⟨?_, hlaidOut.mono (fun _ _ h => ⟨h.nonblank_eq, h.isSpaced⟩) fun _ _ => rfl⟩
  exact (isLaidOut_stretchesOf 0 [] (cleaned s)).nonblank_eq hlaidOut
    (fun _ _ h => h.nonblank_eq) fun b => (dropsSpaces_respaced spacelessTags b).nonblank_eq

end MessageBody.Markup
