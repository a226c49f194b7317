import Mathlib.Data.List.DropRight
import Mathlib.Data.List.Pairwise
import Mathlib.Data.List.Sort
import MessageBody.Proofs.Brackets

/-! # Finding addresses

    The addresses in running text are found greedily from left to right.  What an address
    is can be said without the search: the name of a scheme, `://`, and allowed characters
    up to one that may end an address (`IsAddress`).  Addresses overlap, since a longer
    one may begin with a shorter one; the search takes the longest one where the leftmost
    one begins, and goes on behind it (`AreGreedy`), which leaves it no choice
    (`AreGreedy.unique`). -/

namespace MessageBody

/-! ## Letters regardless of case -/

namespace Text

/-- A character stands for itself, or it is a letter that stands for an ASCII letter. -/
theorem folded_cases (c : Char) :
    folded c = c ∨ ('a' ≤ folded c ∧ folded c ≤ 'z') ∧ isWordChar c = true := by
  rw [folded]
  split
  · rename_i hc
    exact .inr (hc ▸ by decide)
  · split
    · rename_i hc
      exact .inr (hc ▸ by decide)
    · rw [lowered]
      split
      · rename_i hc
        exact .inr (hc ▸ by decide)
      · split
        · rename_i hc
          exact .inr (hc ▸ by decide +kernel)
        · rw [asciiLower]
          split
          · rename_i hupper
            -- ASCII capitals, all of them looked at one by one
            have hletters : ∀ n < 26, ('a' ≤ Char.ofNat ('A'.toNat + n + 32)
                ∧ Char.ofNat ('A'.toNat + n + 32) ≤ 'z')
                ∧ isWordChar (Char.ofNat ('A'.toNat + n)) = true := by decide
            have hlow : 'A'.toNat ≤ c.toNat := hupper.1
            have hhigh : c.toNat ≤ 'A'.toNat + 25 := hupper.2
            have hletter := hletters (c.toNat - 'A'.toNat) (by omega)
            rw [Nat.add_sub_cancel' hlow, Char.ofNat_toNat] at hletter
            exact .inr hletter
          · exact .inl rfl

/-- A text that stands for one without letters is that text. -/
theorem eq_of_map_folded {s t : List Char} (h : s.map folded = t)
    (ht : t.all (fun d => !('a' ≤ d && d ≤ 'z')) = true) : s = t := by
  have hself : ∀ c ∈ s, folded c = c := by
    intro c hc
    have hmem : folded c ∈ t := h ▸ List.mem_map.mpr ⟨c, hc, rfl⟩
    rcases folded_cases c with hself | ⟨hletter, -⟩
    · exact hself
    · have hother := List.all_eq_true.mp ht _ hmem
      rw [decide_eq_true hletter.1, decide_eq_true hletter.2] at hother
      exact nomatch hother
  rw [← h, List.map_congr_left hself, List.map_id']

/-- What stands for an ASCII letter is a word character. -/
theorem isWordChar_of_folded {c : Char} (h : 'a' ≤ folded c ∧ folded c ≤ 'z') :
    isWordChar c = true := by
  rcases folded_cases c with hself | ⟨-, hword⟩
  · rw [hself] at h
    have hletters : ∀ n < 26, isWordChar (Char.ofNat ('a'.toNat + n)) = true := by decide
    have hlow : 'a'.toNat ≤ c.toNat := h.1
    have hhigh : c.toNat ≤ 'a'.toNat + 25 := h.2
    have hletter := hletters (c.toNat - 'a'.toNat) (by omega)
    rwa [Nat.add_sub_cancel' hlow, Char.ofNat_toNat] at hletter
  · exact hword

/-- A word is found where the text begins with it up to the case of its letters. -/
theorem afterWord?_eq_some {word s rest : List Char} :
    afterWord? word s = some rest ↔ ∃ w, s = w ++ rest ∧ w.map folded = word := by
  rw [afterWord?]
  constructor
  · intro h
    split at h
    · rename_i hword
      cases h
      exact ⟨s.take word.length, (List.take_append_drop _ s).symm, hword⟩
    · cases h
  · rintro ⟨w, rfl, rfl⟩
    rw [List.length_map, List.take_left, List.drop_left, if_pos rfl]

end Text

namespace Link

/-! ## What an address is -/

/-- The names of the schemes. -/
def schemeNames : List (List Char) :=
  ["https".toList, "http".toList, "ftp".toList, "file".toList]

/-- What may stand behind the scheme: allowed characters, at least one, and no sign that
    ends a sentence at their end. -/
def IsTail (s : List Char) : Prop :=
  (∀ c ∈ s, mayOccur c = true) ∧ ∃ last ∈ s.getLast?, isInnerSign last = false

/-- The text is an address from its first character to its last one. -/
def IsAddress (s : List Char) : Prop :=
  ∃ name tail, s = name ++ ("://".toList ++ tail) ∧ name.map Text.folded ∈ schemeNames
    ∧ IsTail tail

/-! ## The end of an address -/

/-- An address may end with a character that may occur in it and is no punctuation. -/
theorem mayEnd_iff {c : Char} : mayEnd c = true ↔ mayOccur c = true ∧ isInnerSign c = false := by
  rw [mayOccur]
  constructor
  · intro h
    refine ⟨by rw [h, Bool.true_or], ?_⟩
    by_contra hinner
    rw [Bool.not_eq_false, isInnerSign, List.contains_iff_mem] at hinner
    have hsigns : "?!:,.;".toList.all (fun d => !mayEnd d) = true := by decide
    have hnot := List.all_eq_true.mp hsigns c hinner
    rw [h] at hnot
    exact nomatch hnot
  · rintro ⟨hoccur, hinner⟩
    rwa [hinner, Bool.or_false] at hoccur

/-- The tail of an address is where the search stands. -/
theorem addressTail_begins (s : List Char) : addressTail s <+: s :=
  (List.rdropWhile_prefix _ _).trans (List.takeWhile_prefix _)

/-- A tail that is found has characters of addresses only, and ends with one that may end it. -/
theorem isTail_addressTail {s : List Char} (h : addressTail s ≠ []) : IsTail (addressTail s) := by
  refine ⟨?_, (addressTail s).getLast h, List.getLast?_eq_some_getLast h, ?_⟩
  · intro c hc
    exact List.mem_takeWhile_imp ((List.rdropWhile_prefix _ _).subset hc)
  · have hlast := List.rdropWhile_last_not (fun c => !mayEnd c) (s.takeWhile mayOccur) h
    rw [Bool.not_eq_true, Bool.not_eq_false'] at hlast
    exact (mayEnd_iff.mp hlast).2

/-- The tail that is found is the longest one. -/
theorem IsTail.prefix_addressTail {s t : List Char} (ht : IsTail t) (hbegins : t <+: s) :
    t <+: addressTail s := by
  obtain ⟨hoccur, last, hlast, hinner⟩ := ht
  obtain ⟨rest, rfl⟩ := hbegins
  have hend : mayEnd last = true :=
    mayEnd_iff.mpr ⟨hoccur last (List.mem_of_mem_getLast? hlast), hinner⟩
  obtain ⟨init, rfl⟩ := List.getLast?_eq_some_iff.mp hlast
  rw [addressTail, List.takeWhile_append_of_pos hoccur, List.reverse_append, List.dropWhile_append]
  split
  · -- nothing behind `t` may end an address
    have hdrop : ([last].reverse ++ init.reverse).dropWhile (fun c => !mayEnd c)
        = [last].reverse ++ init.reverse :=
      List.dropWhile_cons_of_neg (by simp [hend])
    refine ⟨[], ?_⟩
    rw [List.append_nil, List.reverse_append, hdrop, ← List.reverse_append, List.reverse_reverse]
  · rw [List.reverse_append, List.reverse_reverse]
    exact List.prefix_append _ _

/-- A tail has a last character. -/
theorem IsTail.ne_nil {t : List Char} (ht : IsTail t) : t ≠ [] := by
  rintro rfl
  obtain ⟨-, last, hlast, -⟩ := ht
  exact nomatch hlast

/-! ## Schemes -/

/-- A scheme is its name with `://` behind it. -/
theorem schemes_eq : schemes = schemeNames.map (· ++ "://".toList) := by
  decide

/-- No scheme is the beginning of another one. -/
theorem eq_of_schemes {scheme scheme' s : List Char} (hscheme : scheme ∈ schemes)
    (hscheme' : scheme' ∈ schemes) (h : scheme <+: s) (h' : scheme' <+: s) : scheme = scheme' := by
  have happart : ∀ w ∈ schemes, ∀ w' ∈ schemes, w <+: w' → w = w' := by decide
  rcases List.prefix_or_prefix_of_prefix h h' with hbegins | hbegins
  · exact happart _ hscheme _ hscheme' hbegins
  · exact (happart _ hscheme' _ hscheme hbegins).symm

/-- What is recognized as a scheme is its name, regardless of case, and `://`. -/
theorem map_folded_mem_schemes {w : List Char} :
    w.map Text.folded ∈ schemes
      ↔ ∃ name, w = name ++ "://".toList ∧ name.map Text.folded ∈ schemeNames := by
  rw [schemes_eq, List.mem_map]
  constructor
  · rintro ⟨schemeName, hname, hw⟩
    obtain ⟨name, separator, rfl, hfolded, hseparator⟩ := List.map_eq_append_iff.mp hw.symm
    refine ⟨name, ?_, hfolded ▸ hname⟩
    rw [Text.eq_of_map_folded hseparator (by decide)]
  · rintro ⟨name, rfl, hname⟩
    exact ⟨_, hname, by rw [List.map_append]; rfl⟩

/-- The address that a text is found to begin with is one. -/
theorem isAddress_of_addressLength? {s : List Char} {n : Nat} (h : addressLength? s = some n) :
    IsAddress (s.take n) := by
  obtain ⟨scheme, hmem, hscheme⟩ := List.exists_of_findSome?_eq_some h
  split at hscheme
  · rename_i rest hrest
    dsimp only at hscheme
    split at hscheme
    · exact nomatch hscheme
    · rename_i htail
      cases hscheme
      obtain ⟨w, rfl, rfl⟩ := Text.afterWord?_eq_some.mp hrest
      obtain ⟨name, rfl, hname⟩ := map_folded_mem_schemes.mp hmem
      refine ⟨name, addressTail rest, ?_, hname, isTail_addressTail fun hnil => htail ?_⟩
      · rw [List.length_map, List.take_length_add_append,
          ← List.prefix_iff_eq_take.mp (addressTail_begins rest), List.append_assoc]
      · rw [hnil]
        rfl
  · exact nomatch hscheme

/-- No other scheme than the one that a text begins with is recognized in it. -/
theorem afterWord?_eq_none {w rest scheme : List Char} (hw : w.map Text.folded ∈ schemes)
    (hscheme : scheme ∈ schemes) (hne : scheme ≠ w.map Text.folded) :
    Text.afterWord? scheme (w ++ rest) = none := by
  rw [Option.eq_none_iff_forall_ne_some]
  intro rest' hrest'
  obtain ⟨w', hw', rfl⟩ := Text.afterWord?_eq_some.mp hrest'
  have hbegins : ∀ v v' : List Char, w ++ rest = v ++ v' →
      v.map Text.folded <+: (w ++ rest).map Text.folded := by
    intro v v' h
    rw [h, List.map_append]
    exact List.prefix_append _ _
  exact hne (eq_of_schemes hscheme hw (hbegins w' rest' hw') (hbegins w rest rfl))

/-- A text that begins with an address is found to begin with one that is as long or
    longer. -/
theorem IsAddress.exists_addressLength? {s t : List Char} (ht : IsAddress t) (hbegins : t <+: s) :
    ∃ n, addressLength? s = some n ∧ t.length ≤ n := by
  obtain ⟨name, tail, rfl, hname, htail⟩ := ht
  have hscheme := map_folded_mem_schemes.mpr ⟨name, rfl, hname⟩
  rw [← List.append_assoc] at hbegins ⊢
  obtain ⟨rest, rfl⟩ := hbegins
  -- from here on it only matters that the word is one of the schemes
  generalize name ++ "://".toList = w at hscheme ⊢
  have hlonger := htail.prefix_addressTail (List.prefix_append tail rest)
  refine ⟨w.length + (addressTail (tail ++ rest)).length, ?_, ?_⟩
  · obtain ⟨before, after, hsplit, hbefore⟩ := List.eq_append_cons_of_mem hscheme
    rw [addressLength?, List.findSome?_eq_some_iff]
    refine ⟨before, _, after, hsplit, ?_, fun other hother => ?_⟩
    · have hfound : Text.afterWord? (w.map Text.folded) (w ++ tail ++ rest) = some (tail ++ rest) :=
        Text.afterWord?_eq_some.mpr ⟨w, List.append_assoc .., rfl⟩
      have hnonempty : (addressTail (tail ++ rest)).isEmpty = false := by
        rw [List.isEmpty_eq_false_iff]
        rintro hnil
        rw [hnil, List.prefix_nil] at hlonger
        exact htail.ne_nil hlonger
      simp only [hfound, hnonempty, Bool.false_eq_true, if_false, List.length_map]
    · -- a scheme earlier in the list does not fit, as no two of them begin one text
      have hmem : other ∈ schemes := hsplit ▸ List.mem_append_left _ hother
      have hne : other ≠ w.map Text.folded := ne_of_mem_of_not_mem hother hbefore
      rw [List.append_assoc, afterWord?_eq_none hscheme hmem hne]
  · rw [List.length_append]
    exact Nat.add_le_add_left hlonger.length_le _

/-! ## Where addresses begin -/

/-- Whether the text ends with a word character. -/
def endsWord (s : List Char) : Bool :=
  s.getLast?.any Text.isWordChar

/-- Whether the text begins with a word character. -/
def beginsWord (s : List Char) : Bool :=
  s.head?.any Text.isWordChar

/-- On one side of position `i` there is a word character and on the other one there is
    none. -/
def IsWordBoundary (s : List Char) (i : Nat) : Prop :=
  endsWord (s.take i) ≠ beginsWord (s.drop i)

/-- An address begins with a letter. -/
theorem IsAddress.beginsWord {s : List Char} (h : IsAddress s) : beginsWord s = true := by
  obtain ⟨name, tail, rfl, hname, -⟩ := h
  cases name with
  | nil => exact absurd hname (by decide)
  | cons c cs =>
      have hfirst : ∀ n ∈ schemeNames, n.head?.all (fun d => 'a' ≤ d && d ≤ 'z') = true := by
        decide
      have hletter := hfirst _ hname
      rw [List.map_cons, List.head?_cons, Option.all_some, Bool.and_eq_true, decide_eq_true_eq,
        decide_eq_true_eq] at hletter
      exact Text.isWordChar_of_folded hletter

/-- An address lies in a text: it begins at a word boundary, and from there to its end
    stands an address. -/
structure Occurrence.IsIn (s : List Char) (o : Occurrence) : Prop where
  stop_le : o.stop ≤ s.length
  boundary : IsWordBoundary s o.start
  address : IsAddress (o.slice s)

/-- The addresses `os` are those in `s` that are found greedily from left to right. -/
structure AreGreedy (s : List Char) (os : List Occurrence) : Prop where
  /-- They are addresses. -/
  isIn : ∀ o ∈ os, o.IsIn s
  /-- No longer address begins where one of them does. -/
  longest : ∀ o ∈ os, ∀ o' : Occurrence, o'.IsIn s → o'.start = o.start → o'.stop ≤ o.stop
  /-- Each of them ends before the next one begins. -/
  apart : os.Pairwise fun o o' => o.stop ≤ o'.start
  /-- No address begins outside of them. -/
  complete : ∀ o' : Occurrence, o'.IsIn s → ∃ o ∈ os, o.start ≤ o'.start ∧ o'.start < o.stop

/-- Where a text is cut, an address begins if no word ends there and one begins what is
    behind the cut. -/
theorem Occurrence.isIn_iff {before rest : List Char} {o : Occurrence}
    (ho : o.start = before.length) :
    o.IsIn (before ++ rest) ↔ endsWord before = false ∧ o.stop ≤ before.length + rest.length
      ∧ IsAddress (rest.take (o.stop - before.length)) := by
  have hslice : o.slice (before ++ rest) = rest.take (o.stop - before.length) := by
    rw [Occurrence.slice, ho, List.drop_left]
  -- an address begins with a word character, so the boundary is about what precedes it
  have hboundary (h : IsAddress (rest.take (o.stop - before.length))) :
      IsWordBoundary (before ++ rest) o.start ↔ endsWord before = false := by
    have hbegins : Link.beginsWord rest = true := by
      have hfirst := h.beginsWord
      rw [Link.beginsWord, List.head?_take] at hfirst
      split at hfirst
      · exact nomatch hfirst
      · exact hfirst
    rw [IsWordBoundary, ho, List.take_left, List.drop_left, hbegins, Ne, Bool.not_eq_true]
  constructor
  · rintro ⟨hstop, hstart, haddress⟩
    rw [hslice] at haddress
    exact ⟨(hboundary haddress).mp hstart, List.length_append ▸ hstop, haddress⟩
  · rintro ⟨hbefore, hstop, haddress⟩
    exact ⟨List.length_append ▸ hstop, (hboundary haddress).mpr hbefore, hslice ▸ haddress⟩

/-- No address begins at the end of a text or behind it. -/
theorem Occurrence.IsIn.start_lt {s : List Char} {o : Occurrence} (h : o.IsIn s) :
    o.start < s.length := by
  by_contra hle
  have hnil : o.slice s = [] := by
    rw [Occurrence.slice, List.drop_eq_nil_of_le (Nat.le_of_not_lt hle), List.take_nil]
  have hbegins := h.address.beginsWord
  rw [hnil] at hbegins
  exact nomatch hbegins

/-- An occurrence has a character. -/
theorem Occurrence.IsIn.start_lt_stop {s : List Char} {o : Occurrence} (h : o.IsIn s) :
    o.start < o.stop := by
  by_contra hle
  have hnil : o.slice s = [] := by
    rw [Occurrence.slice, Nat.sub_eq_zero_of_le (Nat.le_of_not_lt hle), List.take_zero]
  have hbegins := h.address.beginsWord
  rw [hnil] at hbegins
  exact nomatch hbegins

namespace AreGreedy

variable {s : List Char} {os os' : List Occurrence} {o o' : Occurrence}

/-- Two of the addresses that share a position are the same. -/
theorem eq_of_shared (h : AreGreedy s os) (ho : o ∈ os) (ho' : o' ∈ os) {p : Nat}
    (hp : o.start ≤ p ∧ p < o.stop) (hp' : o'.start ≤ p ∧ p < o'.stop) : o = o' := by
  have hapart : os.Pairwise fun o o' => o.stop ≤ o'.start ∨ o'.stop ≤ o.start :=
    h.apart.imp Or.inl
  have : Std.Symm fun o o' : Occurrence => o.stop ≤ o'.start ∨ o'.stop ≤ o.start :=
    ⟨fun _ _ => Or.symm⟩
  by_contra hne
  have := hapart.forall ho ho' hne
  omega

/-- An address that is found greedily is found that way any time. -/
theorem subset (h : AreGreedy s os) (h' : AreGreedy s os') (ho : o ∈ os) : o ∈ os' := by
  induction hstart : o.start using Nat.strongRecOn generalizing o with
  | _ n ih =>
      subst hstart
      have hlt := (h.isIn o ho).start_lt_stop
      obtain ⟨o', ho', hle', hlt'⟩ := h'.complete o (h.isIn o ho)
      rcases Nat.eq_or_lt_of_le hle' with heq | hbefore
      · -- both are the longest address that begins there
        have hstop := Nat.le_antisymm (h'.longest o' ho' o (h.isIn o ho) heq.symm)
          (h.longest o ho o' (h'.isIn o' ho') heq)
        have hsame : o' = o := congrArg₂ Occurrence.mk heq hstop.symm
        exact hsame ▸ ho'
      · -- where the other one begins there is an earlier one, which is found both ways
        obtain ⟨first, hfirst, hle, hin⟩ := h.complete o' (h'.isIn o' ho')
        have hboth := ih first.start (by omega) hfirst rfl
        have heq : first = o' := h'.eq_of_shared hboth ho' ⟨hle, hin⟩
          ⟨le_rfl, (h'.isIn o' ho').start_lt_stop⟩
        subst heq
        have hsame : first = o := h.eq_of_shared hfirst ho ⟨hle', hlt'⟩ ⟨le_rfl, hlt⟩
        exact hsame ▸ hboth

/-- Greedy occurrences come in the order of their starts. -/
theorem pairwise_start_lt (h : AreGreedy s os) : os.Pairwise fun o o' => o.start < o'.start :=
  h.apart.imp_of_mem fun ho _ hle => (h.isIn _ ho).start_lt_stop.trans_le hle

/-- What is found greedily is determined by the text. -/
theorem unique (h : AreGreedy s os) (h' : AreGreedy s os') : os = os' := by
  have : Std.Antisymm fun o o' : Occurrence => o.start < o'.start :=
    ⟨fun _ _ hlt hlt' => absurd hlt (Nat.lt_asymm hlt')⟩
  have : Std.Irrefl fun o o' : Occurrence => o.start < o'.start :=
    ⟨fun _ => Nat.lt_irrefl _⟩
  exact List.Subset.antisymm_of_pairwise h.pairwise_start_lt h'.pairwise_start_lt
    (fun _ ho => h.subset h' ho) (fun _ ho => h'.subset h ho)

end AreGreedy

/-- The address that the search looks for where a text is cut. -/
def addressAt? (before rest : List Char) : Option Nat :=
  if endsWord before then none else addressLength? rest

/-- An address that is found at a place is an occurrence there. -/
theorem isIn_of_addressAt? {before rest : List Char} {n : Nat}
    (h : addressAt? before rest = some n) :
    0 < n ∧ Occurrence.IsIn (before ++ rest) ⟨before.length, before.length + n⟩ := by
  rw [addressAt?] at h
  split at h
  · exact nomatch h
  · rename_i hbefore
    obtain ⟨hpos, hle⟩ := addressLength?_bounds h
    refine ⟨hpos, (Occurrence.isIn_iff rfl).mpr ⟨Bool.not_eq_true _ ▸ hbefore, ?_, ?_⟩⟩
    · exact Nat.add_le_add_left hle _
    · simp only [Nat.add_sub_cancel_left]
      exact isAddress_of_addressLength? h

/-- The search finds the longest address that begins at the cut. -/
theorem Occurrence.IsIn.exists_addressAt? {before rest : List Char} {o : Occurrence}
    (h : o.IsIn (before ++ rest)) (ho : o.start = before.length) :
    ∃ n, addressAt? before rest = some n ∧ o.stop ≤ before.length + n := by
  obtain ⟨hbefore, hstop, haddress⟩ := (isIn_iff ho).mp h
  obtain ⟨n, hn, hle⟩ := haddress.exists_addressLength? (List.take_prefix _ rest)
  refine ⟨n, by rw [addressAt?, hbefore, hn]; rfl, ?_⟩
  rw [List.length_take] at hle
  omega

section Step

variable (before : List Char) (c : Char) (cs : List Char)

theorem length_append_singleton : (before ++ [c]).length = before.length + 1 := by
  rw [List.length_append, List.length_singleton]

/-- Whether a word ends is decided by the last character. -/
theorem endsWord_append_singleton : endsWord (before ++ [c]) = Text.isWordChar c := by
  rw [endsWord, List.getLast?_append, List.getLast?_singleton]
  rfl

/-- A character that belongs to the address before is passed over. -/
theorem occurrencesFrom_skipped (skip : Nat) :
    occurrencesFrom before.length (skip + 1) (endsWord before) (c :: cs)
      = occurrencesFrom (before ++ [c]).length skip (endsWord (before ++ [c])) cs := by
  rw [occurrencesFrom, length_append_singleton, endsWord_append_singleton]

/-- So is a character where no address is found. -/
theorem occurrencesFrom_none (h : addressAt? before (c :: cs) = none) :
    occurrencesFrom before.length 0 (endsWord before) (c :: cs)
      = occurrencesFrom (before ++ [c]).length 0 (endsWord (before ++ [c])) cs := by
  rw [addressAt?] at h
  simp only [occurrencesFrom, h, length_append_singleton, endsWord_append_singleton]

/-- An address that is found is kept, and the rest of it is passed over. -/
theorem occurrencesFrom_some {n : Nat} (h : addressAt? before (c :: cs) = some n) :
    occurrencesFrom before.length 0 (endsWord before) (c :: cs)
      = ⟨before.length, before.length + n⟩
        :: occurrencesFrom (before ++ [c]).length (n - 1) (endsWord (before ++ [c])) cs := by
  rw [addressAt?] at h
  simp only [occurrencesFrom, h, length_append_singleton, endsWord_append_singleton]

end Step

/-- What is found from a position on are the longest addresses where they begin, and
    every address that begins behind what is passed over begins in one of them. -/
theorem occurrencesFrom_greedy (before rest : List Char) (skip : Nat) :
    (∀ o ∈ occurrencesFrom before.length skip (endsWord before) rest,
        o.IsIn (before ++ rest) ∧ ∀ o' : Occurrence, o'.IsIn (before ++ rest) →
          o'.start = o.start → o'.stop ≤ o.stop)
      ∧ ∀ o' : Occurrence, o'.IsIn (before ++ rest) → before.length + skip ≤ o'.start →
        ∃ o ∈ occurrencesFrom before.length skip (endsWord before) rest,
          o.start ≤ o'.start ∧ o'.start < o.stop := by
  -- the text is split where the search stands; `skip` characters are still to be passed over
  induction rest generalizing before skip with
  | nil =>
      rw [show occurrencesFrom before.length skip (endsWord before) [] = [] by cases skip <;> rfl]
      refine ⟨fun _ ho => absurd ho List.not_mem_nil, fun o' ho' hstart => ?_⟩
      have hlt := ho'.start_lt
      rw [List.append_nil] at hlt
      omega
  | cons c cs ih =>
      have hbefore : before ++ c :: cs = before ++ [c] ++ cs := by
        rw [List.append_assoc, List.singleton_append]
      have hlength := length_append_singleton before c
      cases skip with
      | succ skip =>
          rw [occurrencesFrom_skipped, hbefore]
          obtain ⟨hfound, hcomplete⟩ := ih (before ++ [c]) skip
          refine ⟨hfound, fun o' ho' hstart => hcomplete o' ho' ?_⟩
          omega
      | zero =>
          have hhere := fun o' (ho' : Occurrence.IsIn (before ++ c :: cs) o') =>
            ho'.exists_addressAt?
          cases haddress : addressAt? before (c :: cs) with
          | none =>
              rw [occurrencesFrom_none before c cs haddress]
              rw [hbefore] at hhere ⊢
              obtain ⟨hfound, hcomplete⟩ := ih (before ++ [c]) 0
              refine ⟨hfound, fun o' ho' hstart => hcomplete o' ho' ?_⟩
              -- an occurrence that is not further on begins here, where no address was found
              by_contra hlt
              obtain ⟨n, hn, -⟩ := hhere o' ho' (by omega)
              rw [haddress] at hn
              cases hn
          | some n =>
              obtain ⟨hpos, hin⟩ := isIn_of_addressAt? haddress
              rw [occurrencesFrom_some before c cs haddress]
              rw [hbefore] at hhere hin ⊢
              obtain ⟨hfound, hcomplete⟩ := ih (before ++ [c]) (n - 1)
              refine ⟨List.forall_mem_cons.mpr ⟨⟨hin, fun o' ho' hstart => ?_⟩, hfound⟩,
                fun o' ho' hstart => ?_⟩
              · -- the search takes the longest address that begins here
                obtain ⟨m, hm, hle⟩ := hhere o' ho' hstart
                rw [haddress] at hm
                cases hm
                exact hle
              · by_cases hinside : o'.start < before.length + n
                · exact ⟨_, List.mem_cons_self .., by simpa using hstart, hinside⟩
                · obtain ⟨o, ho, hcovers⟩ := hcomplete o' ho' (by omega)
                  exact ⟨o, List.mem_cons_of_mem _ ho, hcovers⟩

/-- **The addresses in a text are found greedily from left to right.** -/
theorem areGreedy_occurrences (s : List Char) : AreGreedy s (occurrences s) := by
  obtain ⟨hfound, hcomplete⟩ := occurrencesFrom_greedy [] s 0
  exact {
    isIn := fun o ho => (hfound o ho).1
    longest := fun o ho => (hfound o ho).2
    apart := (occurrencesFrom_spec 0 0 false s).2
    complete := fun o' ho' => hcomplete o' ho' (Nat.zero_le _) }

end Link

end MessageBody
