import MessageBody.Proofs.BodyPayloads

/-! # What a styled text gains

    Styling puts directives in front of annotations and keeps everything that was there.
    A directive that is put in front of an annotation can equal one that was there before,
    so the ranges of a styled text are told apart by where they come from and not by what
    they are.  In the body of a tree there is no such directive: its directives are plain
    emphases, and none of what is put in front of annotations is. -/

namespace MessageBody

namespace Formatter

/-! ## What presents annotations -/

/-- A directive that is not the look of a plain emphasis. -/
def IsNoEmphasis (d : Directive) : Prop :=
  ∀ e : Emphasis, d ≠ .run e.style

/-- The style of a paragraph is no emphasis. -/
theorem isNoEmphasis_paragraph (style : ParagraphStyle) : IsNoEmphasis (.paragraph style) :=
  fun _ h => nomatch h

/-- A clickable region is no emphasis. -/
theorem isNoEmphasis_clickToReveal (f : Formatter) (id : Int) :
    IsNoEmphasis (f.clickToReveal id) :=
  fun _ h => nomatch h

/-- A plain emphasis has no colour. -/
theorem isNoEmphasis_run_of_color {style : RunStyle} (h : style.color ≠ none) :
    IsNoEmphasis (.run style) := by
  intro e he
  cases he
  cases e <;> exact h rfl

/-- A plain emphasis has no size. -/
theorem isNoEmphasis_run_of_fontSize {style : RunStyle} (h : style.fontSize ≠ none) :
    IsNoEmphasis (.run style) := by
  intro e he
  cases he
  cases e <;> exact h rfl

/-- What holds of the directives for any decoded value holds of those for a payload. -/
theorem forall_of_decoded {α : Type} {P : Directive → Prop} {tag : Tag}
    {value : Except PayloadError α} {present : α → List Directive} {ds : List Directive}
    (h : (decoded tag value present).outcome = .ok ds) (hpresent : ∀ x, ∀ d ∈ present x, P d) :
    ∀ d ∈ ds, P d := by
  cases value with
  | ok x =>
      cases h
      exact hpresent x
  | error e =>
      cases e with
      | undecodable e =>
          cases h
          exact List.forall_mem_nil _
      | _ => exact nomatch h

/-- What holds of the directives for any number holds of those for a payload. -/
theorem forall_of_numbered {P : Directive → Prop} {tag : Tag} {what payload : String}
    {present : Int → Logged StylingError (List Directive)} {ds : List Directive}
    (h : (numbered tag what payload present).outcome = .ok ds)
    (hpresent : ∀ n ds, (present n).outcome = .ok ds → ∀ d ∈ ds, P d) : ∀ d ∈ ds, P d := by
  rw [numbered] at h
  cases hnumber : Text.wholeNumber payload.toList with
  | error refusal =>
      rw [hnumber] at h
      cases h
  | ok n? =>
      rw [hnumber] at h
      cases n? with
      | none =>
          cases h
          exact List.forall_mem_nil _
      | some n => exact hpresent n ds h

/-- What holds of the directives at any depth holds of those at a position. -/
theorem forall_of_atDepth {P : Directive → Prop} {nesting : Except Text.TooManyDigits Nesting}
    {position : Nat} {present : Int → Logged StylingError (List Directive)} {ds : List Directive}
    (h : (atDepth nesting position present).outcome = .ok ds)
    (hpresent : ∀ n ds, (present n).outcome = .ok ds → ∀ d ∈ ds, P d) : ∀ d ∈ ds, P d := by
  cases nesting with
  | ok nesting => exact hpresent _ ds h
  | error refusal => exact nomatch h

/-- What holds of measured directives holds of them if they can be measured. -/
theorem forall_of_measured {P : Directive → Prop} {value : Except LengthError (List Directive)}
    {ds : List Directive} (h : (measured value).outcome = .ok ds)
    (hvalue : ∀ ds, value = .ok ds → ∀ d ∈ ds, P d) : ∀ d ∈ ds, P d := by
  cases value with
  | ok found =>
      cases h
      exact hvalue ds rfl
  | error e => exact nomatch h

/-- Two computations succeed one after the other if they succeed together. -/
theorem eq_ok_of_bind {ε α β : Type} {x : Except ε α} {next : α → Except ε β} {y : β}
    (h : (x >>= next) = .ok y) : ∃ a, x = .ok a ∧ next a = .ok y := by
  cases x with
  | error e => exact nomatch h
  | ok a => exact ⟨a, rfl, h⟩

/-- Quotes are indented, not emphasized. -/
theorem isNoEmphasis_of_quote {f : Formatter} {depth : Int} {ds : List Directive}
    (h : f.quote depth = .ok ds) : ∀ d ∈ ds, IsNoEmphasis d := by
  obtain ⟨base, -, hds⟩ := eq_ok_of_bind h
  cases hds
  exact List.forall_mem_singleton.mpr (isNoEmphasis_paragraph _)

theorem isNoEmphasis_of_listItem {f : Formatter} {depth : Int} {width : TextUnit}
    {ds : List Directive} (h : f.listItem depth width = .ok ds) : ∀ d ∈ ds, IsNoEmphasis d := by
  obtain ⟨base, -, h⟩ := eq_ok_of_bind h
  obtain ⟨rest, -, hds⟩ := eq_ok_of_bind h
  cases hds
  exact List.forall_mem_singleton.mpr (isNoEmphasis_paragraph _)

theorem isNoEmphasis_of_hideable {f : Formatter} {depth : Int} {ds : List Directive}
    (h : f.hideable depth = .ok ds) : ∀ d ∈ ds, IsNoEmphasis d := by
  rw [hideable] at h
  split at h
  · cases h
    exact List.forall_mem_singleton.mpr (isNoEmphasis_paragraph _)
  · exact isNoEmphasis_of_quote h

/-- No block that is indented is emphasized. -/
theorem isNoEmphasis_of_indenting {f : Formatter} {tag : Tag} {depth : Int}
    {ds : List Directive} (h : (f.indenting tag depth).outcome = .ok ds) :
    ∀ d ∈ ds, IsNoEmphasis d := by
  unfold indenting at h
  split at h
  · exact forall_of_measured h fun _ => isNoEmphasis_of_listItem
  · exact forall_of_measured h fun _ => isNoEmphasis_of_listItem
  · exact forall_of_measured h fun _ => isNoEmphasis_of_quote

/-- A deep link has a colour, which no emphasis has. -/
theorem isNoEmphasis_deepLink (link : DeepLink) : ∀ d ∈ deepLink link, IsNoEmphasis d := by
  cases link <;>
    exact List.forall_mem_singleton.mpr (isNoEmphasis_run_of_color (Option.some_ne_none _))

/-- A span has colours or a region to click. -/
theorem isNoEmphasis_span (f : Formatter) (a : SpanAttributes) :
    ∀ d ∈ f.span a, IsNoEmphasis d := by
  intro d hd
  rcases List.mem_append.mp hd with hd | hd
  · obtain ⟨color, -, rfl⟩ := Option.map_eq_some_iff.mp (Option.mem_toList.mp hd)
    exact isNoEmphasis_run_of_color (Option.some_ne_none _)
  · split at hd
    · rw [List.mem_singleton.mp hd]
      exact isNoEmphasis_clickToReveal f _
    · exact absurd hd List.not_mem_nil

/-- A heading has a size, which no emphasis has. -/
theorem isNoEmphasis_heading (f : Formatter) (level : String) :
    ∀ d ∈ (f.heading? level).getD [], IsNoEmphasis d := by
  rw [heading?]
  cases headingScale? level with
  | none => exact List.forall_mem_nil _
  | some scale =>
      refine List.forall_mem_cons.mpr ⟨isNoEmphasis_paragraph _, ?_⟩
      exact List.forall_mem_singleton.mpr (isNoEmphasis_run_of_fontSize (Option.some_ne_none _))

/-- No annotation is presented as a plain emphasis. -/
theorem isNoEmphasis_of_present {f : Formatter} {nesting : Except Text.TooManyDigits Nesting}
    {position : Nat} {tag : Tag} {payload : String} {ds : List Directive}
    (h : (f.present nesting position tag payload).outcome = .ok ds) :
    ∀ d ∈ ds, IsNoEmphasis d := by
  -- the tags go together by how their directives are found from the payload
  cases tag with
  | userMention | roomLink | messageLink => exact forall_of_decoded h isNoEmphasis_deepLink
  | span => exact forall_of_decoded h f.isNoEmphasis_span
  | blockQuote | unorderedListItem | orderedListItem =>
      refine forall_of_numbered h fun own ds h => ?_
      exact forall_of_atDepth h fun _ _ => isNoEmphasis_of_indenting
  | detailsSummary =>
      refine forall_of_numbered h fun id ds h => ?_
      cases h
      exact List.forall_mem_cons.mpr ⟨isNoEmphasis_paragraph _,
        List.forall_mem_singleton.mpr (f.isNoEmphasis_clickToReveal id)⟩
  | detailsContent =>
      refine forall_of_numbered h fun _ ds h => forall_of_atDepth h fun _ ds h => ?_
      exact forall_of_measured h fun _ => isNoEmphasis_of_hideable
  | heading =>
      cases h
      exact f.isNoEmphasis_heading payload
  | roomMention | inlineCode | blockCode =>
      cases h
      exact List.forall_mem_singleton.mpr (isNoEmphasis_run_of_color (Option.some_ne_none _))
  | webLink =>
      cases h
      exact List.forall_mem_singleton.mpr fun _ h => nomatch h
  | unorderedList | orderedList | inlineImage | horizontalRule | clickToReveal =>
      cases h
      exact List.forall_mem_nil _

/-- No directive that an annotation gains is an emphasis. -/
theorem isNoEmphasis_of_mem_directivesOf {f : Formatter}
    {nesting : Except Text.TooManyDigits Nesting} {r : Range} :
    ∀ d ∈ f.directivesOf nesting r, IsNoEmphasis d := by
  rw [directivesOf]
  cases r.item with
  | directive d => exact List.forall_mem_nil _
  | note tag payload =>
      show ∀ d ∈ (f.present nesting r.start tag payload).outcome.toOption.getD [], IsNoEmphasis d
      cases hpresent : (f.present nesting r.start tag payload).outcome with
      | error e => exact List.forall_mem_nil _
      | ok ds => exact isNoEmphasis_of_present hpresent

/-! ## Where the ranges of a styled text come from -/

/-- Ranges, each behind the directives that `gained` puts in front of it, together with
    whether they were there before. -/
def attributed (gained : Range → List Directive) (rs : List Range) : List (Range × Bool) :=
  rs.flatMap fun r =>
    (gained r).map (fun d => (⟨.directive d, r.start, r.stop⟩, false)) ++ [(r, true)]

/-- The directives gained for a range come right in front of it. -/
theorem attributed_cons (gained : Range → List Directive) (r : Range) (rs : List Range) :
    attributed gained (r :: rs)
      = (gained r).map (fun d => (⟨.directive d, r.start, r.stop⟩, false))
        ++ (r, true) :: attributed gained rs := by
  rw [attributed, List.flatMap_cons, List.append_assoc]
  rfl

/-- Without what tells them apart, they are the ranges behind what they gain. -/
theorem attributed_ranges (gained : Range → List Directive) (rs : List Range) :
    (attributed gained rs).map Prod.fst
      = rs.flatMap fun r =>
          (gained r).map (fun d => ⟨.directive d, r.start, r.stop⟩) ++ [r] := by
  induction rs with
  | nil => rfl
  | cons r rs ih =>
      rw [attributed_cons, List.map_append, List.map_map, List.map_cons, ih, List.flatMap_cons,
        List.append_assoc]
      rfl

/-- What was there before is there once more, in its order. -/
theorem attributed_kept (gained : Range → List Directive) (rs : List Range) :
    ((attributed gained rs).filter Prod.snd).map Prod.fst = rs := by
  induction rs with
  | nil => rfl
  | cons r rs ih =>
      have hgained : ((gained r).map
          fun d => ((⟨.directive d, r.start, r.stop⟩, false) : Range × Bool)).filter Prod.snd
            = [] := by
        rw [List.filter_eq_nil_iff]
        intro x hx
        obtain ⟨d, -, rfl⟩ := List.mem_map.mp hx
        exact Bool.false_ne_true
      rw [attributed_cons, List.filter_append, hgained, List.nil_append,
        List.filter_cons_of_pos (by rfl), List.map_cons, ih]

/-- What was not there before stands for a directive that one of the ranges gained. -/
theorem attributed_gained {gained : Range → List Directive} {rs : List Range}
    {x : Range × Bool} (hx : x ∈ attributed gained rs) (hnew : x.2 = false) :
    ∃ r ∈ rs, ∃ d ∈ gained r, x.1 = ⟨.directive d, r.start, r.stop⟩ := by
  obtain ⟨r, hr, hx⟩ := List.mem_flatMap.mp hx
  rcases List.mem_append.mp hx with hx | hx
  · obtain ⟨d, hd, rfl⟩ := List.mem_map.mp hx
    exact ⟨r, hr, d, hd, rfl⟩
  · rw [List.mem_singleton.mp hx] at hnew
    exact Bool.noConfusion hnew

/-- Only annotations have directives. -/
theorem isNote_of_directivesOf {f : Formatter} {nesting : Except Text.TooManyDigits Nesting}
    {r : Range} (h : f.directivesOf nesting r ≠ []) : r.item.isNote = true := by
  cases hitem : r.item with
  | note tag payload => rfl
  | directive d =>
      rw [directivesOf, hitem] at h
      exact absurd rfl h

/-! ## What stays -/

/-- **Styling keeps every range, and gains directives for annotations alone**: a styled
    text has the characters of the text, and its ranges are those of the text, each right
    behind the directives it gained, which have its bounds.  Only annotations gain
    directives, and those whose payload cannot be decoded gain none.  Taken away by where
    they come from, the gained directives leave the ranges of the text, each as often as
    it was there and in the same order.  In the body of a tree it does not matter how they
    are told apart: whichever of its ranges are looked for, they are found in the styled
    text as often as in the body and in the same order. -/
theorem gained_of_apply {f : Formatter} {t styled : AnnotatedText}
    (h : (f.apply t).outcome = .ok styled) :
    styled.text = t.text
    ∧ styled.annotations = t.annotations
    ∧ (∃ gained : Range → List Directive,
        styled.ranges = t.ranges.flatMap (fun r =>
            (gained r).map (fun d => ⟨.directive d, r.start, r.stop⟩) ++ [r])
        ∧ (∀ r, gained r ≠ [] → r.item.isNote = true ∧ complaintsOf r = [])
        ∧ ∃ origin : List (Range × Bool),
            origin.map Prod.fst = styled.ranges
            ∧ (origin.filter Prod.snd).map Prod.fst = t.ranges
            ∧ ∀ x ∈ origin, x.2 = false → ∃ r ∈ t.ranges,
                ∃ d ∈ gained r, x.1 = ⟨.directive d, r.start, r.stop⟩)
    ∧ ∀ (settings : Settings) (nodes : List Markup.Node) (body : Body) (log : List LogRecord),
        settings.style.KeepsLinkContent → Body.ofNodes settings nodes = .ok (body, log) →
        t = body.text →
        ∀ keep : Range → Bool, (∀ r, keep r = true → r ∈ t.ranges) →
          styled.ranges.filter keep = t.ranges.filter keep := by
  have hstyled := apply_outcome h
  refine ⟨?_, annotations_of_apply h, ⟨f.directivesOf (Nesting.ofText t), ?_, ?_,
    attributed (f.directivesOf (Nesting.ofText t)) t.ranges, ?_, attributed_kept _ _, ?_⟩, ?_⟩
  · rw [hstyled]
  · rw [hstyled]
    rfl
  · intro r hr
    refine ⟨isNote_of_directivesOf hr, ?_⟩
    by_cases hcomplaint : complaintsOf r = []
    · exact hcomplaint
    · exact absurd (f.directivesOf_of_complaint _ hcomplaint) hr
  · rw [attributed_ranges, hstyled]
    rfl
  · intro x hx hnew
    exact attributed_gained hx hnew
  · intro settings nodes body log hstyle hbody ht keep hkeep
    subst ht
    rw [hstyled]
    refine f.filter_styledRanges _ ?_
    intro r _ d hd
    -- a gained directive is no emphasis, and the body has no others
    rw [Bool.eq_false_iff]
    intro hkept
    obtain ⟨fragment, hcomposed, rfl⟩ := Body.ofNodes_composed hstyle hbody
    obtain ⟨e, he⟩ := hcomposed.onlyEmphasizes _ (hkeep _ hkept) d rfl
    exact isNoEmphasis_of_mem_directivesOf d hd e he

/-- Code that is in the look of code already, between two spans that are the same and
    cannot be decoded. -/
def monospacedCode : AnnotatedText :=
  ⟨"a".toList,
   [⟨.note .span "x", 0, 1⟩, ⟨.note .inlineCode "", 0, 1⟩,
    ⟨.directive (.run { fontFamily := some .monospace, color := some Color.white }), 0, 1⟩,
    ⟨.note .span "x", 0, 1⟩]⟩

/-- It gains the look that it has. -/
def monospacedTwice : AnnotatedText :=
  ⟨"a".toList,
   [⟨.note .span "x", 0, 1⟩,
    ⟨.directive (.run { fontFamily := some .monospace, color := some Color.white }), 0, 1⟩,
    ⟨.note .inlineCode "", 0, 1⟩,
    ⟨.directive (.run { fontFamily := some .monospace, color := some Color.white }), 0, 1⟩,
    ⟨.note .span "x", 0, 1⟩]⟩

/-- Code in bold letters. -/
def boldCode : List Markup.Node :=
  [.element "b" [] [.element "code" [] [.text "a".toList]]]

/-- Its text when it is styled. -/
def styledBoldCode : AnnotatedText :=
  ⟨"a".toList,
   [⟨.directive (.run { fontWeight := some .bold }), 0, 1⟩,
    ⟨.directive (.run { fontFamily := some .monospace, color := some Color.white }), 0, 1⟩,
    ⟨.note .inlineCode "", 0, 1⟩]⟩

/-- The first text has a directive that it also gains, and so its ranges can be told from
    the gained ones only by where they come from; those of the second, the body of a tree,
    by what they are. -/
theorem gained_monospacedCode :
    (Formatter.standard.apply monospacedCode).outcome = .ok monospacedTwice
    ∧ monospacedTwice.text = monospacedCode.text
    ∧ monospacedTwice.annotations = monospacedCode.annotations
    ∧ (∃ gained : Range → List Directive,
        monospacedTwice.ranges = monospacedCode.ranges.flatMap (fun r =>
            (gained r).map (fun d => ⟨.directive d, r.start, r.stop⟩) ++ [r])
        ∧ (∀ r, gained r ≠ [] → r.item.isNote = true ∧ complaintsOf r = [])
        ∧ ∃ origin : List (Range × Bool),
            origin.map Prod.fst = monospacedTwice.ranges
            ∧ (origin.filter Prod.snd).map Prod.fst = monospacedCode.ranges
            ∧ ∀ x ∈ origin, x.2 = false → ∃ r ∈ monospacedCode.ranges,
                ∃ d ∈ gained r, x.1 = ⟨.directive d, r.start, r.stop⟩)
    ∧ ∃ body, Body.ofNodes {} boldCode = .ok (body, [])
        ∧ (Formatter.standard.apply body.text).outcome = .ok styledBoldCode
        ∧ ∀ keep : Range → Bool, (∀ r, keep r = true → r ∈ body.text.ranges) →
          styledBoldCode.ranges.filter keep = body.text.ranges.filter keep := by
  have hstyled : (Formatter.standard.apply monospacedCode).outcome = .ok monospacedTwice := by
    rfl
  obtain ⟨htext, hannotations, hgained, -⟩ := gained_of_apply hstyled
  have hbody : Body.ofNodes {} boldCode
      = .ok (Body.ofContent {} (Content.ofNodes boldCode), []) := rfl
  have hbold : (Formatter.standard.apply (Body.ofContent {} (Content.ofNodes boldCode)).text).outcome
      = .ok styledBoldCode := rfl
  obtain ⟨-, -, -, hfilter⟩ := gained_of_apply hbold
  exact ⟨hstyled, htext, hannotations, hgained, _, hbody, hbold,
    hfilter {} boldCode _ [] RenderStyle.standard_keepsLinkContent hbody rfl⟩

end Formatter

end MessageBody
