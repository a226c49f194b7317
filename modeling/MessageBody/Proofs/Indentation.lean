import MessageBody.Proofs.Blocks
import MessageBody.Proofs.NestingDepth

/-! # How far blocks are indented

    A formatter indents a quote or a list item by the greatest depth that covers the
    character at which it begins, and so it does with the content of a details element.
    Blocks around never matter where a quote or a list item has a depth of its own, since
    none of them is deeper.  What does matter is a block inside that begins at the same
    character. -/

namespace MessageBody

open Nesting

/-! ## The depths that cover a position -/

namespace Nesting

/-- The depths of the quotes and list items among ranges that cover position `p`. -/
def depthsCovering (rs : List Range) (p : Nat) : List Int :=
  (rs.filter fun r => r.covers p).filterMap depthOf?

/-- The greatest of these depths, zero when there is none. -/
def deepestCovering (rs : List Range) (p : Nat) : Int :=
  (depthsCovering rs p).max?.getD 0

/-- The depths at a position are those of the ranges that cover it. -/
theorem depthsAt_eq (t : AnnotatedText) (p : Nat) : depthsAt t p = depthsCovering t.ranges p := by
  rw [depthsAt, depthsCovering]
  refine congrArg (List.filterMap depthOf?) (List.filter_congr fun r _ => ?_)
  rw [Bool.eq_iff_iff, Range.covers_iff, Bool.and_eq_true, decide_eq_true_eq, decide_eq_true_eq]
  omega

/-- The nesting depth of a text whose depths can be read is the greatest that covers a
    position. -/
theorem exists_ofText_eq_ok {t : AnnotatedText} (h : ∀ r ∈ t.ranges, HasReadableDepth r) :
    ∃ nesting, ofText t = .ok nesting ∧ ∀ p : Nat,
      nesting.depthAt p = deepestCovering t.ranges p := by
  refine ⟨⟨stepsOf _⟩, by rw [ofText, depthRanges_eq h]; rfl, fun p => ?_⟩
  rw [depthAt, depthIn_stepsOf, deepest_depthRanges, depthsAt_eq, deepestCovering]

/-- What does not indent has no depth. -/
theorem depthOf?_eq_none {r : Range} {tag : Tag} (h : r.item.tag? = some tag)
    (htag : tag.indents = false) : depthOf? r = none := by
  rw [depthOf?]
  split
  · rename_i tag' payload hitem
    rw [hitem] at h
    cases h
    exact if_neg (Bool.eq_false_iff.mp htag)
  · rfl

/-- A depth at a position is that of some range that covers it. -/
theorem mem_depthsCovering {rs : List Range} {p : Nat} {d : Int} :
    d ∈ depthsCovering rs p ↔ ∃ r ∈ rs, r.covers p = true ∧ depthOf? r = some d := by
  rw [depthsCovering, List.mem_filterMap]
  simp only [List.mem_filter, and_assoc]

section Deepest

variable {rs : List Range} {p : Nat}

/-- The deepest depth is bounded if every depth at the position is. -/
theorem deepestCovering_le_iff {y : Int} (hy : 0 ≤ y) :
    deepestCovering rs p ≤ y ↔ ∀ r ∈ rs, r.covers p = true → ∀ d, depthOf? r = some d → d ≤ y := by
  -- what bounds the deepest range bounds them all
  have hall : deepestCovering rs p ≤ y ↔ ∀ d ∈ depthsCovering rs p, d ≤ y := by
    rw [deepestCovering]
    cases hmax : (depthsCovering rs p).max? with
    | none =>
        rw [List.max?_eq_none_iff.mp hmax]
        exact ⟨fun _ => List.forall_mem_nil _, fun _ => hy⟩
    | some d =>
        obtain ⟨hmem, hle⟩ := List.max?_eq_some_iff.mp hmax
        exact ⟨fun h d' hd' => Int.le_trans (hle d' hd') h, fun h => h d hmem⟩
  rw [hall]
  constructor
  · intro h r hr hcovers d hd
    exact h d (mem_depthsCovering.mpr ⟨r, hr, hcovers, hd⟩)
  · intro h d hd
    obtain ⟨r, hr, hcovers, hdepth⟩ := mem_depthsCovering.mp hd
    exact h r hr hcovers d hdepth

/-- The depth of a range that covers the position is at most the greatest. -/
theorem le_deepestCovering {r : Range} (hr : r ∈ rs) (hcovers : r.covers p = true) {d : Int}
    (hd : depthOf? r = some d) : d ≤ deepestCovering rs p := by
  have hmem : d ∈ depthsCovering rs p := mem_depthsCovering.mpr ⟨r, hr, hcovers, hd⟩
  rw [deepestCovering]
  cases hmax : (depthsCovering rs p).max? with
  | none =>
      rw [List.max?_eq_none_iff.mp hmax] at hmem
      exact nomatch hmem
  | some d' => exact (List.max?_eq_some_iff.mp hmax).2 d hmem

/-- With no negative depths the deepest is none either. -/
theorem deepestCovering_nonneg (h : ∀ r ∈ rs, ∀ d, depthOf? r = some d → 0 ≤ d) :
    0 ≤ deepestCovering rs p := by
  rw [deepestCovering]
  cases hmax : (depthsCovering rs p).max? with
  | none => exact Int.le_refl _
  | some d =>
      obtain ⟨r, hr, -, hdepth⟩ := mem_depthsCovering.mp (List.max?_eq_some_iff.mp hmax).1
      exact h r hr d hdepth

/-- A range without a depth makes no difference. -/
theorem deepestCovering_of_none {outer later : List Range} {r : Range} (h : depthOf? r = none) :
    deepestCovering (outer ++ r :: later) p = deepestCovering (outer ++ later) p := by
  have hnone : depthsCovering (outer ++ r :: later) p = depthsCovering (outer ++ later) p := by
    rw [depthsCovering, depthsCovering, List.filter_append, List.filter_append,
      List.filterMap_append, List.filterMap_append, List.filter_cons]
    split
    · rw [List.filterMap_cons, h]
    · rfl
  rw [deepestCovering, hnone, deepestCovering]

/-- Where none of the ranges before is deeper, only those behind can be. -/
theorem max_deepestCovering {outer later : List Range} {r : Range} {n : Int}
    (hr : depthOf? r = some n)
    (hnonneg : ∀ q ∈ outer ++ r :: later, ∀ d, depthOf? q = some d → 0 ≤ d)
    (houter : ∀ q ∈ outer, q.covers p = true → ∀ d, depthOf? q = some d → d ≤ n) :
    max n (deepestCovering (outer ++ r :: later) p) = max n (deepestCovering later p) := by
  have hsub : later ⊆ outer ++ r :: later := fun q hq =>
    List.mem_append_right _ (List.mem_cons_of_mem _ hq)
  have hall := deepestCovering_nonneg (p := p) hnonneg
  have hlater := deepestCovering_nonneg (p := p) fun q hq => hnonneg q (hsub hq)
  apply Int.le_antisymm
  · -- what surrounds the range is no deeper, so only what comes later can matter
    refine Int.max_le.mpr ⟨Int.le_max_left .., ?_⟩
    rw [deepestCovering_le_iff (Int.le_trans hlater (Int.le_max_right ..))]
    intro q hq hcovers d hd
    rcases List.mem_append.mp hq with hq | hq
    · exact Int.le_trans (houter q hq hcovers d hd) (Int.le_max_left ..)
    · rcases List.mem_cons.mp hq with rfl | hq
      · cases hr.symm.trans hd
        exact Int.le_max_left ..
      · exact Int.le_trans (le_deepestCovering hq hcovers hd) (Int.le_max_right ..)
  · refine Int.max_le.mpr ⟨Int.le_max_left .., Int.le_trans ?_ (Int.le_max_right ..)⟩
    rw [deepestCovering_le_iff hall]
    exact fun q hq hcovers d hd => le_deepestCovering (hsub hq) hcovers hd

end Deepest

end Nesting

/-! ## The annotations of message bodies -/

/-- If an item is a quote or a list item, its payload is a depth that can be read. -/
def Item.HasDepth (item : Item) : Prop :=
  ∀ tag payload, item = .note tag payload → tag.indents = true →
    ∃ n : Nat, n < 2147483648 ∧ payload = payloadOf n

/-- An annotation that does not indent need not have a depth. -/
theorem hasDepth_of_not_indents {tag : Tag} {payload : String} (h : tag.indents = false) :
    (Item.note tag payload).HasDepth := by
  rintro tag' payload' ⟨⟩ htag
  exact Bool.noConfusion (h.symm.trans htag)

/-- A deep link does not indent. -/
theorem hasDepth_deepLink (link : DeepLink) : (Item.note link.tag link.payload).HasDepth := by
  cases link <;> exact hasDepth_of_not_indents rfl

/-- What the walk puts around content has a depth that can be read, if any. -/
theorem Item.Encloses.hasDepth {limit : Nat} {item : Item} (h : item.Encloses limit)
    (hlimit : limit < 2147483648) : item.HasDepth := by
  cases h with
  | emphasis => exact fun _ _ h => nomatch h
  | bare tag htag =>
      simp only [List.mem_cons, List.not_mem_nil, or_false] at htag
      rcases htag with rfl | rfl | rfl | rfl <;> exact hasDepth_of_not_indents rfl
  | webLink | heading => exact hasDepth_of_not_indents rfl
  | deepLink link => exact hasDepth_deepLink link
  | counted tag htag depth hdepth =>
      rintro tag' payload ⟨⟩ -
      exact ⟨depth, Nat.lt_of_le_of_lt hdepth hlimit, rfl⟩

/-- Everything that content encloses has a depth if it indents. -/
theorem Fragment.Composed.hasDepth {style : RenderStyle} {limit o : Nat} {f : Fragment}
    (h : Composed style limit o f) (hlimit : limit < 2147483648) :
    f.text.ItemsSatisfy Item.HasDepth := by
  refine h.itemsSatisfy ⟨fun _ hitem => hitem.hasDepth hlimit,
    linkItem_cases (fun _ => hasDepth_of_not_indents rfl) hasDepth_deepLink,
    fun _ => hasDepth_of_not_indents rfl, fun _ _ _ => hasDepth_of_not_indents rfl,
    fun _ _ => hasDepth_of_not_indents rfl, fun _ _ => hasDepth_of_not_indents rfl⟩ (Nat.le_refl _)

/-- The annotations of a text are brackets, and no quote or list item is less deep than one
    around it. -/
structure AnnotatedText.Nests (t : AnnotatedText) : Prop where
  bracketed : t.Bracketed
  hasDepth : t.ItemsSatisfy Item.HasDepth
  deepens : t.ranges.Pairwise fun r s =>
    r.stop ≤ s.start ∨ ∀ m n, r.IndentsTo m → s.IndentsTo n → m ≤ n

/-- The body of a tree has blocks, also where only the text of the tree shows. -/
theorem Body.laid_of_ofNodes {settings : Settings} (hstyle : settings.style.KeepsLinkContent)
    {nodes : List Markup.Node} {body : Body} {log : List LogRecord}
    (h : ofNodes settings nodes = .ok (body, log)) : ∃ marks, body.text.Laid 0 marks := by
  rw [ofNodes] at h
  split at h
  · cases h
    exact ⟨_, laid_ofContent hstyle nodes⟩
  · cases h
  · cases h
    exact ⟨[], laid_richText ..⟩

/-- The blocks of a tree nest. -/
theorem Body.nests_of_ofNodes {settings : Settings} (hstyle : settings.style.KeepsLinkContent)
    {nodes : List Markup.Node} {body : Body} {log : List LogRecord}
    (h : ofNodes settings nodes = .ok (body, log)) : body.text.Nests := by
  obtain ⟨marks, hlaid⟩ := laid_of_ofNodes hstyle h
  obtain ⟨f, hf, rfl⟩ := ofNodes_composed hstyle h
  exact ⟨hf.bracketed, hf.hasDepth (by decide), hlaid.nested⟩

/-- Every position in a text that is not enormous can be read. -/
theorem Body.reads_of_ofNodes {settings : Settings} (hstyle : settings.style.KeepsLinkContent)
    {nodes : List Markup.Node} {body : Body} {log : List LogRecord}
    (h : ofNodes settings nodes = .ok (body, log)) (hlength : body.text.length < 2147483648) :
    body.text.ItemsSatisfy Item.Reads := by
  obtain ⟨f, hf, rfl⟩ := ofNodes_composed hstyle h
  have hend : 0 + f.text.length < 2147483648 := by
    rw [Nat.zero_add]
    exact hlength
  exact hf.reads (by decide) hend

namespace AnnotatedText.Nests

variable {t : AnnotatedText} {outer later : List Range} {r : Range}

/-- The depth of a quote or a list item of the text is a natural number. -/
theorem exists_indentsTo (h : t.Nests) (hr : r ∈ t.ranges) {d : Int} (hd : depthOf? r = some d) :
    ∃ n : Nat, n < 2147483648 ∧ d = n ∧ r.IndentsTo n := by
  rw [depthOf?] at hd
  split at hd
  · rename_i tag payload hitem
    split at hd
    · rename_i htag
      obtain ⟨n, hn, rfl⟩ := h.hasDepth r hr tag payload hitem htag
      rw [payloadOf, Text.wholeNumber?_toString hn] at hd
      exact ⟨n, hn, (Option.some.inj hd).symm, tag, htag, hitem⟩
    · exact nomatch hd
  · exact nomatch hd

/-- Depths count blocks, so none is negative. -/
theorem depth_nonneg (h : t.Nests) (hr : r ∈ t.ranges) {d : Int} (hd : depthOf? r = some d) :
    0 ≤ d := by
  obtain ⟨n, -, rfl, -⟩ := h.exists_indentsTo hr hd
  exact Int.natCast_nonneg n

/-- The depth of a nested block can be read. -/
theorem hasReadableDepth (h : t.Nests) (hr : r ∈ t.ranges) : HasReadableDepth r := by
  rw [HasReadableDepth]
  split
  · rename_i tag payload hitem
    intro htag
    obtain ⟨n, hn, rfl⟩ := h.hasDepth r hr tag payload hitem htag
    exact Text.wholeNumber_ok_iff.mp ⟨_, wholeNumber_payloadOf hn⟩
  · trivial

/-- No quote or list item that covers the start of a later one is deeper than that. -/
theorem depth_le (h : t.Nests) (ht : t.ranges = outer ++ r :: later) {n : Int}
    (hn : depthOf? r = some n) :
    ∀ q ∈ outer, q.covers r.start = true → ∀ d, depthOf? q = some d → d ≤ n := by
  intro q hq hcovers d hd
  have hmem : ∀ s ∈ outer ++ r :: later, s ∈ t.ranges := fun s hs => ht ▸ hs
  obtain ⟨k, -, rfl, hk⟩ := h.exists_indentsTo (hmem q (List.mem_append_left _ hq)) hd
  obtain ⟨m, -, rfl, hm⟩ :=
    h.exists_indentsTo (hmem r (List.mem_append_right _ (List.mem_cons_self ..))) hn
  have hpair := h.deepens
  rw [ht] at hpair
  rcases (List.pairwise_append.mp hpair).2.2 q hq r (List.mem_cons_self ..) with hle | hle
  · have := (Range.covers_iff.mp hcovers).2
    omega
  · exact Int.ofNat_le.mpr (hle k m hk hm)

/-- What comes before a block and covers the character at which it begins is around it. -/
theorem encloses (h : t.Nests) (ht : t.ranges = outer ++ r :: later) :
    ∀ q ∈ outer, q.covers r.start = true → r.stop ≤ q.stop := by
  intro q hq hcovers
  have hpair := h.bracketed.nested
  rw [ht] at hpair
  obtain ⟨-, hbefore | hinside⟩ :=
    (List.pairwise_append.mp hpair).2.2 q hq r (List.mem_cons_self ..)
  · have := (Range.covers_iff.mp hcovers).2
    omega
  · exact hinside

/-- What comes after a block and covers the character at which it begins begins there too,
    and is inside the block. -/
theorem isInside (h : t.Nests) (ht : t.ranges = outer ++ r :: later) :
    ∀ q ∈ later, q.covers r.start = true →
      q.start = r.start ∧ (r.start < r.stop → q.stop ≤ r.stop) := by
  intro q hq hcovers
  have hpair := h.bracketed.nested
  rw [ht] at hpair
  obtain ⟨hstart, hinside⟩ := (List.pairwise_cons.mp (List.pairwise_append.mp hpair).2.1).1 q hq
  have hcovers := Range.covers_iff.mp hcovers
  omega

end AnnotatedText.Nests

/-! ## Directives -/

namespace Formatter

variable {f : Formatter} {nesting : Nesting} {r : Range}

/-- The first line of a quote or a list item is indented by the given depth. -/
theorem indenting_outcome (hf : f.MeasuresSp) (tag : Tag) {depth : Int}
    (h : Text.isInt32 depth = true) :
    ∃ base rest, f.indent depth = .ok base
      ∧ (f.indenting tag depth).outcome = .ok [.paragraph { indent := some ⟨base, rest⟩ }] := by
  obtain ⟨base, hbase, hunit⟩ := f.indent_eq_ok h
  have hitem : ∀ width : TextUnit, width.unit = "sp" → ∃ rest,
      f.listItem depth width = .ok [.paragraph { indent := some ⟨base, rest⟩ }] := by
    intro width hwidth
    have hadd : TextUnit.add base width = .ok ⟨base.value + width.value, base.unit⟩ :=
      if_pos (hwidth.trans hunit.symm)
    refine ⟨⟨base.value + width.value, base.unit⟩, ?_⟩
    simp only [listItem, hbase, hadd, bind, Except.bind, Except.mapError]
  unfold indenting
  split
  · obtain ⟨rest, hrest⟩ := hitem _ (hf (f.bullet depth))
    refine ⟨base, rest, hbase, ?_⟩
    rw [unorderedItem, hrest]
    rfl
  · obtain ⟨rest, hrest⟩ := hitem (.sp f.indentation) rfl
    refine ⟨base, rest, hbase, ?_⟩
    rw [orderedItem, hrest]
    rfl
  · refine ⟨base, base, hbase, ?_⟩
    simp only [quote, hbase, bind, Except.bind]
    rfl

/-- A quote or a list item gets its own depth, or the depth where it begins if that is
    greater. -/
theorem directivesOf_block (hf : f.MeasuresSp)
    (hnesting : ∀ p, Text.isInt32 (nesting.depthAt p) = true) {n : Nat} (hn : n < 2147483648)
    (h : r.IndentsTo n) :
    ∃ base rest, f.indent (max n (nesting.depthAt r.start)) = .ok base
      ∧ f.directivesOf (.ok nesting) r = [.paragraph { indent := some ⟨base, rest⟩ }] := by
  obtain ⟨tag, htag, hitem⟩ := h
  have hnumber := wholeNumber_payloadOf hn
  -- of the two depths the larger one is used, and both are small enough
  have hdepth : Text.isInt32 (max n (nesting.depthAt r.start)) = true := by
    rcases Int.le_total n (nesting.depthAt r.start) with hle | hle
    · rw [Int.max_eq_right hle]
      exact hnesting r.start
    · rw [Int.max_eq_left hle]
      exact Text.isInt32_of_wholeNumber hnumber
  obtain ⟨base, rest, hbase, houtcome⟩ := indenting_outcome hf tag hdepth
  have hpresent : (f.present (.ok nesting) r.start tag (payloadOf n)).outcome
      = .ok [.paragraph { indent := some ⟨base, rest⟩ }] := by
    -- only these three tags are indented by their depth
    cases tag with
    | blockQuote | unorderedListItem | orderedListItem =>
        simp only [present, numbered, hnumber, atDepth]
        exact houtcome
    | _ => exact absurd htag (by decide)
  refine ⟨base, rest, hbase, ?_⟩
  simp only [directivesOf, hitem, hpresent, Except.toOption, Option.getD_some]

/-- The content of a details element gets the depth where it begins. -/
theorem directivesOf_hidden (f : Formatter)
    (hnesting : ∀ p, Text.isInt32 (nesting.depthAt p) = true)
    (hitem : r.item.tag? = some .detailsContent) (hread : r.item.Reads) :
    f.hideable (nesting.depthAt r.start) = .ok (f.directivesOf (.ok nesting) r) := by
  obtain ⟨ds, hds⟩ := f.hideable_eq_ok (hnesting r.start)
  cases hr : r.item with
  | directive d =>
      rw [hr] at hitem
      exact nomatch hitem
  | note tag payload =>
      rw [hr] at hitem
      cases hitem
      obtain ⟨id, hid⟩ := hread .detailsContent payload hr
      simp only [directivesOf, hr, present, numbered, hid, atDepth, measured, hds]
      rfl

/-- How far a text is indented at a range `r` that has `outer` before it and `later` after
    it among the ranges of the text. -/
structure Indents (f : Formatter) (t : AnnotatedText) (outer : List Range) (r : Range)
    (later : List Range) : Prop where
  /-- The first line of a quote or a list item is indented by its own depth, or by that of a
      deeper one that begins at the same character. -/
  block : ∀ n, depthOf? r = some n → ∃ base rest,
    f.indent (max n (deepestCovering later r.start)) = .ok base
      ∧ f.directivesOf (Nesting.ofText t) r = [.paragraph { indent := some ⟨base, rest⟩ }]
  /-- The content of a details element is indented by the greatest depth that covers its
      first character, unless its position cannot be read. -/
  hidden : r.item.tag? = some .detailsContent → r.item.Reads →
    f.hideable (deepestCovering (outer ++ later) r.start)
      = .ok (f.directivesOf (Nesting.ofText t) r)
  /-- What covers that character and comes before the range is around it. -/
  around : ∀ q ∈ outer, q.covers r.start = true → q.start ≤ r.start ∧ r.stop ≤ q.stop
  /-- What covers that character and comes after the range begins there, and is inside the
      range if that has any text. -/
  inside : ∀ q ∈ later, q.covers r.start = true →
    q.start = r.start ∧ (r.start < r.stop → q.stop ≤ r.stop)

end Formatter

namespace AnnotatedText.Nests

variable {t : AnnotatedText} {f : Formatter}

/-- Nested blocks are indented by the blocks around them and by those that begin with them. -/
theorem indents (h : t.Nests) (hf : f.MeasuresSp) {outer later : List Range} {r : Range}
    (ht : t.ranges = outer ++ r :: later) : f.Indents t outer r later := by
  have hr : r ∈ t.ranges := ht ▸ List.mem_append_right _ (List.mem_cons_self ..)
  obtain ⟨nesting, hnesting, hdepth⟩ := exists_ofText_eq_ok fun r hr => h.hasReadableDepth hr
  have hint := isInt32_depthAt hnesting
  rw [ht] at hdepth
  constructor
  · intro n hn
    obtain ⟨k, hk, rfl, hindents⟩ := h.exists_indentsTo hr hn
    rw [hnesting, ← max_deepestCovering hn (fun q hq d => h.depth_nonneg (ht ▸ hq))
      (h.depth_le ht hn), ← hdepth]
    exact Formatter.directivesOf_block hf hint hk hindents
  · intro htag hread
    rw [hnesting, ← deepestCovering_of_none (depthOf?_eq_none htag rfl), ← hdepth]
    exact f.directivesOf_hidden hint htag hread
  · exact fun q hq hcovers => ⟨(Range.covers_iff.mp hcovers).1, h.encloses ht q hq hcovers⟩
  · exact h.isInside ht

end AnnotatedText.Nests

/-! ## Message bodies -/

open Formatter

/-- **Indentation**: how far the blocks in the body of a tree are indented depends only on
    the blocks around them and on those that begin at the same character.  A body that is
    not enormous can be styled, and all its positions can be read. -/
theorem indentation_of_nodes {settings : Settings} (hstyle : settings.style.KeepsLinkContent)
    {nodes : List Markup.Node} {body : Body} {log : List LogRecord}
    (hbody : Body.ofNodes settings nodes = .ok (body, log)) {f : Formatter}
    (hf : f.MeasuresSp) :
    (∀ styled, (f.apply body.text).outcome = .ok styled →
      styled = ⟨body.text.text, f.styledRanges (Nesting.ofText body.text) body.text.ranges⟩)
    ∧ (∀ outer r later, body.text.ranges = outer ++ r :: later →
      f.Indents body.text outer r later)
    ∧ (body.text.length < 2147483648 →
      (∃ styled, (f.apply body.text).outcome = .ok styled)
        ∧ body.text.ItemsSatisfy Item.Reads) := by
  have hnests := Body.nests_of_ofNodes hstyle hbody
  refine ⟨fun styled => apply_outcome, fun outer r later => hnests.indents hf, fun hlength => ?_⟩
  have hreads := Body.reads_of_ofNodes hstyle hbody hlength
  have hall : ReadsAll body.text.ranges := hreads
  exact ⟨apply_eq_ok hf hall.settledAll, hreads⟩

/-- Details whose content begins with a quote. -/
def quoteInDetails : List Markup.Node :=
  [.element "details" []
    [.element "summary" [] [.text "a".toList],
     .element "blockquote" [] [.text "b".toList]]]

/-- The content is indented as the quote in it is. -/
theorem indentation_quoteInDetails :
    Body.ofNodes {} quoteInDetails = .ok (Body.ofContent {} (Content.ofNodes quoteInDetails), [])
      ∧ (let text := (Body.ofContent {} (Content.ofNodes quoteInDetails)).text
        (standard.apply text).outcome
            = .ok ⟨text.text, standard.styledRanges (Nesting.ofText text) text.ranges⟩
          ∧ standard.hideable 1 = .ok (standard.directivesOf (Nesting.ofText text)
            ⟨.note .detailsContent "0", 3, 4⟩)) := by
  have hbody : Body.ofNodes {} quoteInDetails
      = .ok (Body.ofContent {} (Content.ofNodes quoteInDetails), []) := rfl
  have hlength : (Body.ofContent {} (Content.ofNodes quoteInDetails)).text.length < 2147483648 := by
    decide +kernel
  obtain ⟨hresult, hindents, hshort⟩ := indentation_of_nodes
    RenderStyle.standard_keepsLinkContent hbody standard_measuresSp
  obtain ⟨⟨styled, hstyled⟩, hreads⟩ := hshort hlength
  have hsplit : (Body.ofContent {} (Content.ofNodes quoteInDetails)).text.ranges
      = [⟨.note .detailsSummary "0", 0, 3⟩] ++ ⟨.note .detailsContent "0", 3, 4⟩
        :: [⟨.note .blockQuote "1", 3, 4⟩] := rfl
  refine ⟨hbody, hresult styled hstyled ▸ hstyled, ?_⟩
  refine (hindents _ _ _ hsplit).hidden rfl (hreads _ ?_)
  rw [hsplit]
  exact List.mem_append_right _ (List.mem_cons_self ..)

/-- How far a text would be indented at a range if nothing inside it mattered: a quote or a
    list item by its own depth, and the content of a details element by the greatest depth
    around it. -/
def Formatter.IndentsFromOutside (f : Formatter) (t : AnnotatedText) (outer : List Range)
    (r : Range) : Prop :=
  (∀ n, depthOf? r = some n → ∃ base rest, f.indent n = .ok base
    ∧ f.directivesOf (Nesting.ofText t) r = [.paragraph { indent := some ⟨base, rest⟩ }])
  ∧ (r.item.tag? = some .detailsContent →
    f.hideable (deepestCovering outer r.start) = .ok (f.directivesOf (Nesting.ofText t) r))

/-- No quote or list item is around the content, and still it is indented. -/
theorem not_indentsFromOutside_quoteInDetails :
    ¬ ∀ outer r later,
      (Body.ofContent {} (Content.ofNodes quoteInDetails)).text.ranges = outer ++ r :: later →
      standard.IndentsFromOutside (Body.ofContent {} (Content.ofNodes quoteInDetails)).text outer
        r := by
  intro h
  have hnests := Body.nests_of_ofNodes RenderStyle.standard_keepsLinkContent
    (show Body.ofNodes {} quoteInDetails = .ok (_, []) from rfl)
  have hsplit : (Body.ofContent {} (Content.ofNodes quoteInDetails)).text.ranges
      = [⟨.note .detailsSummary "0", 0, 3⟩] ++ ⟨.note .detailsContent "0", 3, 4⟩
        :: [⟨.note .blockQuote "1", 3, 4⟩] := rfl
  have houtside := (h _ _ _ hsplit).2 rfl
  have hactual := (hnests.indents standard_measuresSp hsplit).hidden rfl
    (reads_note ⟨0, rfl⟩)
  -- one of them is a paragraph without an indentation, the other a paragraph with one
  have hsame : standard.quote 1 = .ok [.paragraph {}] := hactual.trans houtside.symm
  obtain ⟨base, hbase, -⟩ := standard.indent_eq_ok (show Text.isInt32 1 = true from rfl)
  rw [quote, hbase] at hsame
  cases hsame

end MessageBody
