import MessageBody.Proofs.Mentions
import MessageBody.Proofs.SpacedText
import MessageBody.Render.Walk

/-! # Labels of line breaks

    A line break is made visible by a label in brackets in front of it.  `SameText` says
    of two texts that they are the same but for such labels; a text that has no brackets of
    its own is what is left when the labels are deleted.  Labels that are put into a run of
    text change nothing of where its mentions are. -/

namespace MessageBody

/-! ## Characters of running text -/

namespace Text

/-- What is shown of blanks is spaces. -/
theorem mem_shown {c : Char} {s : List Char} (h : c ∈ shown s) :
    c = ' ' ∨ (c ∈ s ∧ isTextBlank c = false) := by
  rcases (spaced_shown s).mem c h with hspace | hsolid
  · exact .inl hspace
  · have hkept : c ∈ s.filter isSolid := filter_shown s ▸ List.mem_filter.mpr ⟨h, hsolid⟩
    have hother : isTextBlank c = false :=
      Bool.eq_false_iff.mpr (mt isTextBlank_iff.mp (isSolid_iff.mp hsolid).1)
    exact .inr ⟨(List.mem_filter.mp hkept).1, hother⟩

/-- Replacing brings in no characters but those of the new text. -/
theorem mem_replace {pat new s : List Char} (hpat : pat ≠ []) {c : Char}
    (h : c ∈ replace pat new s) : c ∈ s ∨ c ∈ new := by
  induction s using replace_induction hpat with
  | nil => exact nomatch h
  | occurrence s ih =>
      rw [replace_occurrence hpat] at h
      rcases List.mem_append.mp h with h | h
      · exact .inr h
      · exact (ih h).imp_left (List.mem_append_right pat)
  | other d ds hother ih =>
      rw [replace_cons new hother] at h
      rcases List.mem_cons.mp h with rfl | h
      · exact .inl (List.mem_cons_self ..)
      · exact (ih h).imp_left (List.mem_cons_of_mem d)

end Text

/-- Running text shows the characters of the text and of the mention that is put in. -/
theorem mem_text_richText {style : RenderStyle} {allowMention autoLink : Bool} {s : List Char}
    {c : Char} (h : c ∈ (richText style allowMention autoLink s).text) :
    c ∈ s ∨ c ∈ style.roomMention.toList := by
  rw [text_richText_eq_intercalate, segments] at h
  split at h
  · exact Text.mem_replace (by decide) h
  · rw [List.intercalate_singleton] at h
    exact .inl h

/-- A run of text shows its own characters and spaces. -/
theorem mem_visibleText? {ctx : Context} {previous : Option Trace} {ahead : List Content}
    {data s : List Char} (hs : visibleText? ctx previous ahead data = some s) {c : Char}
    (h : c ∈ s) : c = ' ' ∨ (c ∈ data ∧ (ctx.isPreformatted = false → Text.isTextBlank c = false)) := by
  rw [visibleText?] at hs
  split at hs
  · exact nomatch hs
  split at hs
  · exact nomatch hs
  split at hs
  · rename_i hpreformatted
    cases hs
    refine .inr ⟨?_, fun hnot => absurd hpreformatted (hnot ▸ Bool.false_ne_true)⟩
    split at h
    · exact (List.dropLast_sublist _).subset h
    · exact h
  split at hs
  · cases hs
    exact (Text.mem_shown ((List.dropWhile_suffix _).subset h)).imp_right
      (And.imp_right fun h _ => h)
  · cases hs
    exact (Text.mem_shown h).imp_right (And.imp_right fun h _ => h)

/-! ## Labels -/

/-- The labels of line breaks. -/
def breakLabels : List String :=
  ["br", "p1", "p2", "p3", "pre1", "pre2", "hr1", "hr2", "T"]

/-- A label as it is shown. -/
def breakMark (label : String) : List Char :=
  '[' :: label.toList ++ [']']

/-- A text without the labels in it; `skip` characters of a label are still to be passed
    over. -/
def unlabelledFrom : (skip : Nat) → List Char → List Char
  | _, [] => []
  | skip + 1, _ :: cs => unlabelledFrom skip cs
  | 0, c :: cs =>
      match breakLabels.find? fun label => (breakMark label).isPrefixOf (c :: cs) with
      | some label => unlabelledFrom (label.toList.length + 1) cs
      | none => c :: unlabelledFrom 0 cs

/-- A text without the labels in it. -/
def unlabelled (s : List Char) : List Char :=
  unlabelledFrom 0 s

/-- Characters other than brackets stay. -/
theorem unlabelled_cons {c : Char} (h : c ≠ '[') (cs : List Char) :
    unlabelled (c :: cs) = c :: unlabelled cs := by
  have hnone : breakLabels.find? (fun label => (breakMark label).isPrefixOf (c :: cs)) = none := by
    refine List.find?_eq_none.mpr fun label _ hprefix => ?_
    rw [breakMark, List.cons_append, List.isPrefixOf_cons_cons, Bool.and_eq_true, beq_iff_eq] at hprefix
    exact h hprefix.1.symm
  rw [unlabelled, unlabelledFrom, hnone]
  rfl

/-- Labels are deleted. -/
theorem unlabelled_breakMark {label : String} (h : label ∈ breakLabels) (s : List Char) :
    unlabelled (breakMark label ++ s) = unlabelled s := by
  simp only [breakLabels, List.mem_cons, List.not_mem_nil, or_false] at h
  -- no label begins like another one
  rcases h with rfl | rfl | rfl | rfl | rfl | rfl | rfl | rfl | rfl <;> rfl

/-- The text `s` is the text `t`, with labels in front of some of its line breaks where
    line breaks are labelled; then `t` has no brackets of its own. -/
inductive SameText (labelled : Bool) : List Char → List Char → Prop
  | nil : SameText labelled [] []
  | char {s t : List Char} {c : Char} (hc : labelled = true → c ≠ '[')
      (h : SameText labelled s t) : SameText labelled (c :: s) (c :: t)
  | label {s t : List Char} {label : String} (hlabelled : labelled = true)
      (hlabel : label ∈ breakLabels) (h : SameText labelled s t) :
      SameText labelled (breakMark label ++ '\n' :: s) ('\n' :: t)

namespace SameText

variable {labelled : Bool} {s s' t t' : List Char}

/-- A text without square brackets has no labels to lose. -/
theorem refl (h : labelled = true → '[' ∉ s) : SameText labelled s s := by
  induction s with
  | nil => exact .nil
  | cons c cs ih =>
      refine .char (fun hlabelled hc => ?_) (ih fun hlabelled => ?_)
      · exact h hlabelled (hc ▸ List.mem_cons_self ..)
      · exact fun hmem => h hlabelled (List.mem_cons_of_mem c hmem)

/-- Two parts that are the same without labels make texts that are. -/
theorem append (h : SameText labelled s t) (h' : SameText labelled s' t') :
    SameText labelled (s ++ s') (t ++ t') := by
  induction h with
  | nil => exact h'
  | char hc _ ih => exact .char hc ih
  | label hlabelled hlabel _ ih =>
      rw [List.append_assoc]
      exact .label hlabelled hlabel ih

/-- Without labels the texts are the same. -/
theorem eq (h : SameText false s t) : s = t := by
  induction h with
  | nil => rfl
  | char _ _ ih => rw [ih]
  | label hlabelled => exact nomatch hlabelled

/-- With the labels deleted the texts are the same. -/
theorem unlabelled_eq (h : SameText true s t) : unlabelled s = t := by
  induction h with
  | nil => rfl
  | char hc _ ih => rw [unlabelled_cons (hc rfl), ih]
  | label _ hlabel _ ih =>
      rw [unlabelled_breakMark hlabel, unlabelled_cons (by decide), ih]

/-- Labels stand in front of other characters. -/
theorem getLast?_eq (h : SameText labelled s t) : s.getLast? = t.getLast? := by
  induction h with
  | nil => rfl
  | char _ _ ih => rw [List.getLast?_cons, List.getLast?_cons, ih]
  | label _ _ _ ih =>
      rw [List.getLast?_append, List.getLast?_cons, List.getLast?_cons, ih, Option.some_or]

/-- A label stands in front of a line break, so no text is empty but for labels. -/
theorem length_eq_zero_iff (h : SameText labelled s t) : s.length = 0 ↔ t.length = 0 := by
  rw [List.length_eq_zero_iff, List.length_eq_zero_iff, ← List.getLast?_eq_none_iff, h.getLast?_eq,
    List.getLast?_eq_none_iff]

end SameText

/-- Line breaks differ in their labels. -/
theorem sameText_lineBreak (labelled : Bool) {label : String} (h : label ∈ breakLabels) :
    SameText labelled (lineBreak labelled label) (lineBreak false label) := by
  cases labelled with
  | false => exact .refl nofun
  | true =>
      have hlabelled : lineBreak true label = breakMark label ++ ['\n'] :=
        (List.append_assoc ('[' :: label.toList) [']'] ['\n']).symm
      rw [hlabelled]
      exact .label rfl h .nil

/-! ## Labels in running text -/

/-- A character that is no line break gets no label. -/
theorem withLabels_cons {c : Char} (hc : c ≠ '\n') (cs : List Char) :
    withLabels true (c :: cs) = c :: withLabels true cs := by
  simp [withLabels, hc]

/-- Labels are put in in front of line breaks. -/
theorem sameText_withLabels {s : List Char} (h : '[' ∉ s) : SameText true (withLabels true s) s := by
  induction s with
  | nil => exact .nil
  | cons c cs ih =>
      have hrest := ih fun hmem => h (List.mem_cons_of_mem c hmem)
      by_cases hc : c = '\n'
      · subst hc
        exact .label rfl (show "T" ∈ breakLabels by decide) hrest
      · rw [withLabels_cons hc]
        exact .char (fun _ heq => h (heq ▸ List.mem_cons_self ..)) hrest

section Replace

variable {pat : List Char} (hapart : ∀ c ∈ lineBreak true "T", c ∉ pat)

include hapart

/-- A text that has nothing in common with labels is left without them. -/
theorem withLabels_append (s : List Char) :
    withLabels true (pat ++ s) = pat ++ withLabels true s := by
  induction pat with
  | nil => rfl
  | cons d ds ih =>
      have hd : d ≠ '\n' := fun h => hapart '\n' (by decide) (h ▸ List.mem_cons_self ..)
      rw [List.cons_append, withLabels_cons hd,
        ih fun c hc hmem => hapart c hc (List.mem_cons_of_mem d hmem), List.cons_append]

/-- Such a text stands in front where it stands in front without the labels. -/
theorem isPrefix_of_withLabels {s : List Char} (h : pat <+: withLabels true s) : pat <+: s := by
  induction s generalizing pat with
  | nil => exact h
  | cons c cs ih =>
      cases pat with
      | nil => exact List.nil_prefix
      | cons d ds =>
          by_cases hc : c = '\n'
          · subst hc
            have hd : d = '[' := (List.cons_prefix_cons.mp h).1
            exact absurd (List.mem_cons_self ..) (hd ▸ hapart '[' (by decide))
          · rw [withLabels_cons hc, List.cons_prefix_cons] at h
            rw [List.cons_prefix_cons]
            exact ⟨h.1, ih (fun c hc hmem => hapart c hc (List.mem_cons_of_mem d hmem)) h.2⟩

/-- Labels are put in wherever such a text is replaced. -/
theorem sameText_replace (hpat : pat ≠ []) {new s : List Char} (hnew : '[' ∉ new)
    (hs : '[' ∉ s) :
    SameText true (Text.replace pat new (withLabels true s)) (Text.replace pat new s) := by
  induction s using Text.replace_induction hpat with
  | nil => exact .nil
  | occurrence s ih =>
      rw [withLabels_append hapart, Text.replace_occurrence hpat, Text.replace_occurrence hpat]
      exact (SameText.refl fun _ => hnew).append (ih fun h => hs (List.mem_append_right pat h))
  | other c cs hother ih =>
      have hrest := ih fun h => hs (List.mem_cons_of_mem c h)
      rw [Text.replace_cons new hother]
      by_cases hc : c = '\n'
      · -- what is replaced begins neither in the label nor at the line break
        subst hc
        have hnone : ∀ d ∈ lineBreak true "T", ∀ rest, ¬ pat <+: d :: rest := by
          intro d hd rest hprefix
          obtain ⟨e, es, rfl⟩ := List.exists_cons_of_ne_nil hpat
          exact hapart d hd ((List.cons_prefix_cons.mp hprefix).1 ▸ List.mem_cons_self ..)
        show SameText true (Text.replace pat new ('[' :: 'T' :: ']' :: '\n' :: withLabels true cs)) _
        rw [Text.replace_cons new (hnone '[' (by decide) _),
          Text.replace_cons new (hnone 'T' (by decide) _),
          Text.replace_cons new (hnone ']' (by decide) _),
          Text.replace_cons new (hnone '\n' (by decide) _)]
        exact .label rfl (show "T" ∈ breakLabels by decide) hrest
      · have hother' : ¬ pat <+: c :: withLabels true cs := by
          intro hprefix
          rw [← withLabels_cons hc] at hprefix
          exact hother (isPrefix_of_withLabels hapart hprefix)
        rw [withLabels_cons hc, Text.replace_cons new hother']
        exact .char (fun _ heq => hs (heq ▸ List.mem_cons_self ..)) hrest

end Replace

/-- Running text differs in the labels alone. -/
theorem sameText_richText {labelled : Bool} {style : RenderStyle}
    (hmention : labelled = true → '[' ∉ style.roomMention.toList) (allowMention autoLink : Bool)
    {s : List Char} (hs : labelled = true → '[' ∉ s) :
    SameText labelled (richText style allowMention autoLink (withLabels labelled s)).text
      (richText style allowMention autoLink s).text := by
  cases labelled with
  | false => exact .refl nofun
  | true =>
      rw [text_richText_eq_intercalate, text_richText_eq_intercalate, segments, segments]
      split
      · have hapart : ∀ c ∈ lineBreak true "T", c ∉ RenderStyle.mention.toList := by
          simp [lineBreak, RenderStyle.mention]
        exact sameText_replace hapart (by decide) (hmention rfl) (hs rfl)
      · rw [List.intercalate_singleton, List.intercalate_singleton]
        exact sameText_withLabels (hs rfl)

end MessageBody
