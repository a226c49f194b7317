import Mathlib.Data.List.Basic
import MessageBody.Proofs.Composition

/-! # Bracket structure

    The ranges of a text form a bracket structure when they lie in the text, none
    starts before one that comes earlier in the list, and of any two the later
    one is either inside the earlier one or behind its end.  Putting texts one
    after the other and putting a range around a text keep this, and the links
    found in running text have it, since addresses are taken from left to right
    and do not overlap. -/

namespace MessageBody

/-- A range may come before another in a bracket structure: it does not start
    after it, and the other is either behind it or inside it. -/
def Range.OpensBefore (r s : Range) : Prop :=
  r.start ≤ s.start ∧ (r.stop ≤ s.start ∨ s.stop ≤ r.stop)

namespace AnnotatedText

/-- The ranges lie in the text and form a bracket structure in the order in which
    they open. -/
structure Bracketed (t : AnnotatedText) : Prop where
  wellFormed : t.WellFormed
  nested : t.ranges.Pairwise Range.OpensBefore

/-- Ranges stay in their texts when these are put together. -/
theorem wellFormed_append {t u : AnnotatedText} (ht : t.WellFormed) (hu : u.WellFormed) :
    (t ++ u).WellFormed := by
  intro r hr
  rw [ranges_append] at hr
  rw [length_append]
  rcases List.mem_append.mp hr with hr | hr
  · have := ht r hr
    omega
  · obtain ⟨s, hs, rfl⟩ := List.mem_map.mp hr
    have := hu s hs
    simp only [Range.shift]
    omega

/-- A range around all of a text lies in it. -/
theorem wellFormed_marked {t : AnnotatedText} (item : Item) (ht : t.WellFormed) :
    (t.marked item).WellFormed := by
  intro r hr
  rcases List.mem_cons.mp hr with rfl | hr
  · exact ⟨Nat.zero_le _, Nat.le_refl _⟩
  · exact ht r hr

namespace Bracketed

/-- Text without ranges is bracketed. -/
theorem plain (s : List Char) : (plain s).Bracketed where
  wellFormed := fun _ hr => nomatch hr
  nested := .nil

/-- One bracket structure after another is one. -/
theorem append {t u : AnnotatedText} (ht : t.Bracketed) (hu : u.Bracketed) :
    (t ++ u).Bracketed where
  wellFormed := wellFormed_append ht.wellFormed hu.wellFormed
  nested := by
    rw [ranges_append]
    refine List.pairwise_append.mpr ⟨ht.nested, ?_, ?_⟩
    · refine hu.nested.map _ ?_
      intro r s h
      simp only [Range.OpensBefore, Range.shift] at h ⊢
      omega
    · intro r hr s hs
      obtain ⟨s', -, rfl⟩ := List.mem_map.mp hs
      -- what comes from the second text is behind the end of the first
      have hle := ht.wellFormed r hr
      simp only [Range.OpensBefore, Range.shift]
      omega

/-- A range around a bracket structure opens it. -/
theorem marked {t : AnnotatedText} (item : Item) (ht : t.Bracketed) :
    (t.marked item).Bracketed where
  wellFormed := wellFormed_marked item ht.wellFormed
  nested := by
    refine List.pairwise_cons.mpr ⟨?_, ht.nested⟩
    intro s hs
    exact ⟨Nat.zero_le _, Or.inr (ht.wellFormed s hs).2⟩

end Bracketed

end AnnotatedText

/-! ## The checks on bounds -/

/-- A range that does not end before it starts passes the check on its bounds,
    wherever it is moved to the right. -/
theorem Range.shifted_of_le {r : Range} (h : r.start ≤ r.stop) (n : Nat) :
    r.shifted n = .ok (r.shift n) := by
  have hn : ¬ ((r.start : Int) + n < 0 ∨ (r.stop : Int) + n < r.start + n) := by omega
  have hstart : ((r.start : Int) + n).toNat = n + r.start := by omega
  have hstop : ((r.stop : Int) + n).toNat = n + r.stop := by omega
  rw [Range.shifted, Range.make, if_neg hn, hstart, hstop]
  rfl

/-- A range whose bounds are in order is made as it is. -/
theorem Range.make_of_le {r : Range} (h : r.start ≤ r.stop) :
    Range.make r.item r.start r.stop = .ok r := by
  have hshifted := Range.shifted_of_le h 0
  rw [Range.shift_zero] at hshifted
  exact hshifted

namespace AnnotatedText

/-- No check on bounds refuses the text or one of its ranges, where the range
    stands or moved to the right. -/
structure PassesChecks (t : AnnotatedText) : Prop where
  range : ∀ r ∈ t.ranges, Range.make r.item r.start r.stop = .ok r
  moved : ∀ r ∈ t.ranges, ∀ n : Nat, r.shifted n = .ok (r.shift n)
  text : make t.text t.ranges = .ok t

/-- A text whose ranges lie in it passes the checks. -/
theorem passesChecks_of_wellFormed {t : AnnotatedText} (h : t.WellFormed) : t.PassesChecks where
  range := fun r hr => Range.make_of_le (h r hr).1
  moved := fun r hr => Range.shifted_of_le (h r hr).1
  text := by
    have hnone : t.ranges.find? (fun r => t.text.length < r.stop) = none := by
      rw [List.find?_eq_none]
      intro r hr
      have : r.stop ≤ t.text.length := (h r hr).2
      simpa using this
    rw [make, hnone]

end AnnotatedText

/-! ## Addresses in running text -/

namespace Link

/-- A word that is found is taken off with as many characters as it has. -/
theorem length_of_afterWord? {word s rest : List Char} (h : Text.afterWord? word s = some rest) :
    s.length = word.length + rest.length := by
  rw [Text.afterWord?] at h
  split at h
  · rename_i hword
    cases h
    have hlength : (s.take word.length).length = word.length := by
      rw [← List.length_map (f := Text.folded), hword]
    rw [List.length_take] at hlength
    rw [List.length_drop]
    omega
  · exact nomatch h

/-- The tail of an address is a part of the text. -/
theorem length_addressTail_le (s : List Char) : (addressTail s).length ≤ s.length := by
  rw [addressTail]
  rw [List.length_reverse]
  calc ((s.takeWhile mayOccur).reverse.dropWhile fun c => !mayEnd c).length
      ≤ (s.takeWhile mayOccur).reverse.length := (List.dropWhile_suffix _).length_le
    _ = (s.takeWhile mayOccur).length := List.length_reverse
    _ ≤ s.length := (List.takeWhile_prefix _).length_le

/-- An address has a character and lies in the text. -/
theorem addressLength?_bounds {s : List Char} {n : Nat} (h : addressLength? s = some n) :
    0 < n ∧ n ≤ s.length := by
  obtain ⟨scheme, -, hscheme⟩ := List.exists_of_findSome?_eq_some h
  split at hscheme
  · rename_i rest hrest
    dsimp only at hscheme
    split at hscheme
    · exact nomatch hscheme
    · rename_i htail
      cases hscheme
      have hlength := length_of_afterWord? hrest
      have hle := length_addressTail_le rest
      have hpos : 0 < (addressTail rest).length :=
        List.length_pos_iff.mpr fun hnil => htail (by rw [hnil]; rfl)
      omega
  · exact nomatch hscheme

/-- The addresses found from a position on lie behind what is passed over, and
    each of them ends before the next one starts. -/
theorem occurrencesFrom_spec (position skip : Nat) (inWord : Bool) (s : List Char) :
    (∀ o ∈ occurrencesFrom position skip inWord s,
        position + skip ≤ o.start ∧ o.start < o.stop ∧ o.stop ≤ position + s.length) ∧
      (occurrencesFrom position skip inWord s).Pairwise fun o o' => o.stop ≤ o'.start := by
  induction s generalizing position skip inWord with
  | nil =>
      rw [show occurrencesFrom position skip inWord [] = [] by cases skip <;> rfl]
      exact ⟨fun _ ho => (nomatch ho), List.Pairwise.nil⟩
  | cons c cs ih =>
      cases skip with
      | succ skip =>
          -- inside an address that was found before
          obtain ⟨hmem, hpair⟩ := ih (position + 1) skip (Text.isWordChar c)
          rw [occurrencesFrom]
          refine ⟨?_, hpair⟩
          intro o ho
          have := hmem o ho
          rw [List.length_cons]
          omega
      | zero =>
          rw [occurrencesFrom]
          split
          · rename_i n hn
            obtain ⟨hpos, hle⟩ : 0 < n ∧ n ≤ (c :: cs).length := by
              split at hn
              · exact nomatch hn
              · exact addressLength?_bounds hn
            -- the rest of the address is passed over, so what is found next is behind it
            obtain ⟨hmem, hpair⟩ := ih (position + 1) (n - 1) (Text.isWordChar c)
            rw [List.length_cons] at hle ⊢
            refine ⟨?_, List.pairwise_cons.mpr ⟨?_, hpair⟩⟩
            · intro o ho
              rcases List.mem_cons.mp ho with rfl | ho
              · simp only
                omega
              · have := hmem o ho
                omega
            · intro o ho
              have := hmem o ho
              simp only
              omega
          · obtain ⟨hmem, hpair⟩ := ih (position + 1) 0 (Text.isWordChar c)
            refine ⟨?_, hpair⟩
            intro o ho
            have := hmem o ho
            rw [List.length_cons]
            omega

end Link

/-- Links on addresses come one behind the other. -/
theorem linkedText_bracketed (autoLink : Bool) (s : List Char) :
    (linkedText autoLink s).Bracketed := by
  cases autoLink with
  | false => exact .plain s
  | true =>
      obtain ⟨hmem, hpair⟩ := Link.occurrencesFrom_spec 0 0 false s
      constructor
      · intro r hr
        obtain ⟨o, ho, rfl⟩ := List.mem_map.mp hr
        have := hmem o ho
        show o.start ≤ o.stop ∧ o.stop ≤ s.length
        omega
      · -- an occurrence ends before the next one begins, which is more than brackets need
        refine List.Pairwise.map _ ?_ (hpair.imp_of_mem (S := fun o o' : Link.Occurrence =>
          o.start ≤ o'.start ∧ o.stop ≤ o'.start) ?_)
        · intro o o' h
          exact ⟨h.1, Or.inl h.2⟩
        · intro o o' ho _ h
          have := hmem o ho
          omega

/-! ## Message bodies -/

/-- Whatever the walk puts together is a bracket structure. -/
theorem Fragment.Composed.bracketed {style : RenderStyle} {limit o : Nat} {f : Fragment}
    (h : Composed style limit o f) : f.text.Bracketed := by
  have hhidden : ∀ (o : Nat) (f? : Option Fragment), (∀ f, f? = some f → f.text.Bracketed) →
      (hidden o f?).text.Bracketed := by
    intro o f? hf
    cases f? with
    | none => exact .plain []
    | some f => exact (hf f rfl).marked _
  induction h with
  | chars s => exact .plain s
  | linked s => exact linkedText_bracketed true s
  | image info => exact (AnnotatedText.Bracketed.plain _).marked _
  | append _ _ hf hg => exact hf.append hg
  | marked _ _ hf => exact hf.marked _
  | span look _ hf => exact hf.marked _
  | @details o before after label summary hlabel _ _ _ hbefore hsummary hafter =>
      have hshown : label.text.Bracketed := by
        rw [hlabel]
        exact (AnnotatedText.Bracketed.plain style.summaryPlaceholder.toList).append hsummary
      exact ((hhidden o before hbefore).append (hshown.marked _)).append (hhidden o after hafter)

/-- **Bracket structure of message bodies**: for every tree, and whatever texts
    are chosen for bullets, mentions, placeholders and images, the ranges of the
    body form a bracket structure.  No check on bounds refuses the body, or a part
    of it that is rendered on its own and then moved to its place. -/
theorem bracketed_of_nodes (settings : Settings) (hstyle : settings.style.KeepsLinkContent)
    (nodes : List Markup.Node) :
    (Body.ofContent settings (Content.ofNodes nodes)).text.Bracketed
      ∧ (∀ body log, Body.ofNodes settings nodes = .ok (body, log) → body.text.Bracketed)
      ∧ ∀ (cs : List Content) (ctx : Context) (previous : Option Trace) (position : Cursor)
        (next : Int), ctx.style = settings.style →
        (renderAll cs ctx previous position next).fragment.text.PassesChecks := by
  refine ⟨(Body.render_composed hstyle _).bracketed, ?_, ?_⟩
  · intro body log hbody
    obtain ⟨f, hf, rfl⟩ := Body.ofNodes_composed hstyle hbody
    exact hf.bracketed
  · intro cs ctx previous position next hctx
    have hpart := renderAll_composed cs ctx previous position next (hctx ▸ hstyle) (Nat.le_refl _)
    exact AnnotatedText.passesChecks_of_wellFormed hpart.bracketed.wellFormed

/-- A spoiler and an address inside a deep link, and an address behind it. -/
def linkedSpoiler : List Markup.Node :=
  [.element "a" [("href", "https://matrix.to/#/@u:s")]
    [.element "span" [("data-mx-spoiler", "")] [.text "b".toList], .text " ftp://c".toList],
   .text " ftp://d".toList]

/-- The mention and the spoiler begin together, the mention ends last, and an address inside a
    link is no link. -/
theorem bracketed_linkedSpoiler :
    (Body.ofContent {} (Content.ofNodes linkedSpoiler)).text.Bracketed
      ∧ (Body.ofContent {} (Content.ofNodes linkedSpoiler)).text.ranges.map
          (fun r => (r.item.tag?, r.start, r.stop))
        = [(some .userMention, 0, 9), (some .span, 0, 1), (some .webLink, 10, 17)] :=
  ⟨(bracketed_of_nodes {} RenderStyle.standard_keepsLinkContent linkedSpoiler).1, by decide +kernel⟩

end MessageBody
