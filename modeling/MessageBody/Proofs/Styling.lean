import MessageBody.Proofs.PayloadOutcomes
import MessageBody.Proofs.WholeNumbers
import MessageBody.Styling.Formatter

/-! # Presenting the annotations of a text

    A formatter whose widths are in scaled pixels presents a text just when the
    reading of each payload settles: the one thing that could fail then is the
    size of an indentation, and a depth is a number of 32 bits.  A payload that
    cannot be decoded leaves one record, and its annotation no directive.  The
    styled text has the ranges of the text in their order, each behind the
    directives that present it. -/

namespace MessageBody

/-! ## Depths -/

namespace Text

/-- A number that is read has 32 bits. -/
theorem isInt32_of_wholeNumber {s : List Char} {n : Int} (h : wholeNumber s = .ok (some n)) :
    isInt32 n = true := by
  cases hds : digitValues? (cutSign s).2 with
  | none =>
      rw [wholeNumber_of_none hds] at h
      exact nomatch h
  | some ds =>
      cases ds with
      | nil =>
          rw [wholeNumber_of_nil hds] at h
          exact nomatch h
      | cons d ds =>
          rw [wholeNumber_of_cons hds] at h
          split at h
          · exact nomatch h
          · simp only [Except.ok.injEq] at h
            split at h
            · rename_i hint
              rw [← Option.some.inj h]
              exact hint
            · exact nomatch h

end Text

namespace Nesting

theorem isInt32_of_depthRange? {r : Range} {d : DepthRange} (h : depthRange? r = .ok (some d)) :
    Text.isInt32 d.depth = true := by
  rw [depthRange?] at h
  split at h
  · split at h
    · rename_i payload _ _
      cases hnumber : Text.wholeNumber payload.toList with
      | error refusal =>
          rw [hnumber] at h
          cases h
      | ok depth? =>
          cases depth? with
          | none =>
              rw [hnumber] at h
              cases h
          | some depth =>
              rw [hnumber] at h
              cases h
              exact Text.isInt32_of_wholeNumber hnumber
    · cases h
  · cases h

theorem depthRanges_cons (r : Range) (rs : List Range) :
    depthRanges (r :: rs) = (do
      let first ← depthRange? r
      let rest ← depthRanges rs
      .ok (first.toList ++ rest)) := rfl

/-- The depths of all quotes and list items are numbers of 32 bits. -/
theorem isInt32_of_depthRanges {rs : List Range} {ds : List DepthRange}
    (h : depthRanges rs = .ok ds) : ∀ d ∈ ds, Text.isInt32 d.depth = true := by
  induction rs generalizing ds with
  | nil =>
      cases h
      exact fun _ hd => nomatch hd
  | cons r rs ih =>
      rw [depthRanges_cons] at h
      cases hfirst : depthRange? r with
      | error refusal =>
          rw [hfirst] at h
          exact nomatch h
      | ok first =>
          cases hrest : depthRanges rs with
          | error refusal =>
              rw [hfirst, hrest] at h
              exact nomatch h
          | ok rest =>
              rw [hfirst, hrest] at h
              cases h
              intro d hd
              rcases List.mem_append.mp hd with hd | hd
              · rw [Option.mem_toList] at hd
                exact isInt32_of_depthRange? (hd ▸ hfirst)
              · exact ih hrest d hd

section Sweep

variable {P : DepthRange → Prop}

/-- What holds of the ranges that start holds of those that have started. -/
theorem forall_foldl_insert {rs started : List DepthRange} (hrs : ∀ r ∈ rs, P r)
    (hstarted : ∀ r ∈ started, P r) :
    ∀ r ∈ rs.foldl (fun started r => Order.insert deeper r started) started, P r := by
  induction rs generalizing started with
  | nil => exact hstarted
  | cons r rs ih =>
      refine ih (fun r' hr' => hrs r' (List.mem_cons_of_mem _ hr')) ?_
      intro r' hr'
      rcases List.mem_cons.mp ((Order.insert_perm deeper r started).subset hr') with rfl | hr'
      · exact hrs r' (List.mem_cons_self ..)
      · exact hstarted r' hr'

/-- What holds of the ranges in a sweep holds of them after the next boundary. -/
theorem forall_advance {s : Sweep} (hcoming : ∀ r ∈ s.coming, P r)
    (hstarted : ∀ r ∈ s.started, P r) (b : Nat) :
    (∀ r ∈ (s.advance b).coming, P r) ∧ ∀ r ∈ (s.advance b).started, P r := by
  constructor
  · intro r hr
    exact hcoming r ((List.dropWhile_suffix _).subset hr)
  · intro r hr
    refine forall_foldl_insert ?_ hstarted r ((List.dropWhile_suffix _).subset hr)
    intro r' hr'
    exact hcoming r' ((List.takeWhile_prefix _).subset hr')

/-- Every depth that a sweep finds is zero or the depth of one of its ranges. -/
theorem forall_stepsFrom {Q : Int → Prop} (hzero : Q 0) {s : Sweep}
    (hcoming : ∀ r ∈ s.coming, Q r.depth) (hstarted : ∀ r ∈ s.started, Q r.depth) (bs : List Nat) :
    ∀ x ∈ stepsFrom s bs, Q x.2 := by
  induction bs generalizing s with
  | nil => exact fun _ hx => nomatch hx
  | cons b bs ih =>
      obtain ⟨hcoming', hstarted'⟩ := forall_advance hcoming hstarted b
      intro x hx
      rw [stepsFrom] at hx
      rcases List.mem_cons.mp hx with rfl | hx
      · -- the deepest range that has started is in front
        show Q (frontDepth (s.advance b).started)
        cases hfront : (s.advance b).started with
        | nil => exact hzero
        | cons r rs => exact hstarted' r (hfront ▸ List.mem_cons_self ..)
      · exact ih hcoming' hstarted' x hx

end Sweep

/-- The depth at a position is zero or one of the depths that were found. -/
theorem forall_depthIn {Q : Int → Prop} (hzero : Q 0) (p : Int) {steps : List (Nat × Int)}
    (h : ∀ x ∈ steps, Q x.2) : Q (depthIn p steps) := by
  induction steps with
  | nil => exact hzero
  | cons x rest ih =>
      obtain ⟨b, depth⟩ := x
      have hfirst : Q depth := h (b, depth) (List.mem_cons_self ..)
      have hrest := ih fun x hx => h x (List.mem_cons_of_mem _ hx)
      unfold depthIn
      split
      · exact hzero
      · cases rest with
        | nil => exact hfirst
        | cons x rest =>
            simp only
            split
            · exact hfirst
            · exact hrest

/-- The nesting depth at a position is a number of 32 bits. -/
theorem isInt32_depthAt {t : AnnotatedText} {nesting : Nesting} (h : ofText t = .ok nesting)
    (p : Int) : Text.isInt32 (nesting.depthAt p) = true := by
  rw [ofText] at h
  cases hranges : depthRanges t.ranges with
  | error refusal =>
      rw [hranges] at h
      exact nomatch h
  | ok ds =>
      rw [hranges] at h
      cases h
      have hds := isInt32_of_depthRanges hranges
      refine @forall_depthIn (fun depth => Text.isInt32 depth = true) rfl p _ ?_
      refine @forall_stepsFrom (fun depth => Text.isInt32 depth = true) rfl _ ?_ ?_ _
      · intro r hr
        exact hds r (Order.mem_sort.mp hr)
      · exact fun r hr => nomatch hr

end Nesting

/-! ## Lengths -/

namespace Formatter

/-- The widths that a formatter measures are in scaled pixels. -/
def MeasuresSp (f : Formatter) : Prop :=
  ∀ s, (f.width s).unit = "sp"

/-- The standard formatter measures in the unit of its indentation. -/
theorem standard_measuresSp : standard.MeasuresSp := fun _ => rfl

variable {f : Formatter}

/-- Numbers of 32 bits are not beyond the floating-point numbers. -/
theorem uint32_le_overflow : 4294967296 ≤ Decimal.overflow := by
  decide +kernel

/-- An indentation by a depth of 32 bits can be computed. -/
theorem indent_eq_ok (f : Formatter) {depth : Int} (h : Text.isInt32 depth = true) :
    ∃ base, f.indent depth = .ok base ∧ base.unit = "sp" := by
  have hbound : depth.natAbs < Decimal.overflow := by
    have hle := uint32_le_overflow
    simp only [Text.isInt32, Bool.and_eq_true, decide_eq_true_eq] at h
    omega
  refine ⟨(TextUnit.sp f.indentation).scale (Decimal.nearestSigned (depth < 0) depth.natAbs 0),
    ?_, rfl⟩
  rw [indent, TextUnit.times, Decimal.ofWhole_of_lt hbound]
  rfl

theorem quote_eq_ok (f : Formatter) {depth : Int} (h : Text.isInt32 depth = true) :
    ∃ ds, f.quote depth = .ok ds := by
  obtain ⟨base, hbase, -⟩ := f.indent_eq_ok h
  refine ⟨[.paragraph { indent := some ⟨base, base⟩ }], ?_⟩
  rw [quote, hbase]
  rfl

theorem listItem_eq_ok (f : Formatter) {depth : Int} (h : Text.isInt32 depth = true)
    {width : TextUnit} (hwidth : width.unit = "sp") : ∃ ds, f.listItem depth width = .ok ds := by
  obtain ⟨base, hbase, hunit⟩ := f.indent_eq_ok h
  refine ⟨[.paragraph { indent := some ⟨base, ⟨base.value + width.value, base.unit⟩⟩ }], ?_⟩
  have hadd : TextUnit.add base width = .ok ⟨base.value + width.value, base.unit⟩ :=
    if_pos (hwidth.trans hunit.symm)
  rw [listItem, hbase]
  show (do
    let rest ← (TextUnit.add base width).mapError LengthError.mismatch
    Except.ok [Directive.paragraph { indent := some ⟨base, rest⟩ }]) = _
  rw [hadd]
  rfl

/-- A block at a depth of 32 bits can be styled. -/
theorem indenting_eq_ok (hf : f.MeasuresSp) (tag : Tag) {depth : Int}
    (h : Text.isInt32 depth = true) : ∃ ds, (f.indenting tag depth).outcome = .ok ds := by
  unfold indenting
  split
  · obtain ⟨ds, hds⟩ := f.listItem_eq_ok h (hf (f.bullet depth))
    refine ⟨ds, ?_⟩
    rw [unorderedItem, hds]
    rfl
  · obtain ⟨ds, hds⟩ := f.listItem_eq_ok h (show (TextUnit.sp f.indentation).unit = "sp" from rfl)
    refine ⟨ds, ?_⟩
    rw [orderedItem, hds]
    rfl
  · obtain ⟨ds, hds⟩ := f.quote_eq_ok h
    refine ⟨ds, ?_⟩
    rw [hds]
    rfl

theorem hideable_eq_ok (f : Formatter) {depth : Int} (h : Text.isInt32 depth = true) :
    ∃ ds, f.hideable depth = .ok ds := by
  rw [hideable]
  split
  · exact ⟨_, rfl⟩
  · exact f.quote_eq_ok h

/-! ## Payloads that read -/

/-- A payload holds what its annotation needs. -/
def Reads (tag : Tag) (payload : String) : Prop :=
  match tag with
  | .userMention | .roomLink | .messageLink => ∃ link, DeepLink.ofPayload payload = .ok link
  | .span => ∃ attributes, SpanAttributes.ofPayload payload = .ok attributes
  | .blockQuote | .unorderedList | .unorderedListItem | .orderedList | .orderedListItem
  | .detailsSummary | .detailsContent => ∃ n, Text.wholeNumber payload.toList = .ok (some n)
  | _ => True

/-- Every annotation among the ranges has a payload that reads. -/
def ReadsAll (rs : List Range) : Prop :=
  ∀ r ∈ rs, ∀ tag payload, r.item = .note tag payload → Reads tag payload

/-- The reading of the payload of an annotation gives what the annotation needs, or
    shows that the payload cannot be decoded. -/
def Settled (tag : Tag) (payload : String) : Prop :=
  match tag with
  | .userMention | .roomLink | .messageLink => Settles (DeepLink.ofPayload payload)
  | .span => Settles (SpanAttributes.ofPayload payload)
  | .blockQuote | .unorderedListItem | .orderedListItem | .detailsSummary | .detailsContent =>
      Text.FitsDigits payload.toList
  | _ => True

/-- Every annotation among the ranges has a payload whose reading settles. -/
def SettledAll (rs : List Range) : Prop :=
  ∀ r ∈ rs, ∀ tag payload, r.item = .note tag payload → Settled tag payload

/-- What can be read is settled. -/
theorem Reads.settled {tag : Tag} {payload : String} (h : Reads tag payload) :
    Settled tag payload := by
  cases tag with
  | userMention | roomLink | messageLink =>
      obtain ⟨link, hlink⟩ := h
      rw [Settled, hlink]
      exact settles_ok link
  | span =>
      obtain ⟨attributes, hattributes⟩ := h
      rw [Settled, hattributes]
      exact settles_ok attributes
  | blockQuote | unorderedListItem | orderedListItem | detailsSummary | detailsContent =>
      obtain ⟨n, hn⟩ := h
      exact Text.wholeNumber_ok_iff.mp ⟨_, hn⟩
  | _ => trivial

theorem ReadsAll.settledAll {rs : List Range} (h : ReadsAll rs) : SettledAll rs :=
  fun r hr tag payload hitem => (h r hr tag payload hitem).settled

/-- A payload is styled or complained about if it settles. -/
theorem decoded_ok_iff {α : Type} {tag : Tag} {value : Except PayloadError α}
    {present : α → List Directive} :
    (∃ ds, (decoded tag value present).outcome = .ok ds) ↔ Settles value := by
  cases value with
  | ok x => simp [decoded]
  | error e => cases e <;> simp [decoded, Logged.fail]

theorem fitsDigits_of_numbered {tag : Tag} {what payload : String}
    {present : Int → Logged StylingError (List Directive)}
    (h : ∃ ds, (numbered tag what payload present).outcome = .ok ds) :
    Text.FitsDigits payload.toList := by
  rw [← Text.wholeNumber_ok_iff]
  obtain ⟨ds, h⟩ := h
  rw [numbered] at h
  cases hnumber : Text.wholeNumber payload.toList with
  | ok n? => exact ⟨n?, rfl⟩
  | error refusal =>
      rw [hnumber] at h
      exact nomatch h

/-- A payload with few digits is a number that can be presented, or none. -/
theorem numbered_eq_ok {tag : Tag} {what payload : String}
    {present : Int → Logged StylingError (List Directive)}
    (hfits : Text.FitsDigits payload.toList)
    (h : ∀ n, Text.isInt32 n = true → ∃ ds, (present n).outcome = .ok ds) :
    ∃ ds, (numbered tag what payload present).outcome = .ok ds := by
  obtain ⟨n?, hnumber⟩ := Text.wholeNumber_ok_iff.mpr hfits
  rw [numbered, hnumber]
  cases n? with
  | none => exact ⟨[], rfl⟩
  | some n => exact h n (Text.isInt32_of_wholeNumber hnumber)

/-- Only an annotation whose payload settles is presented. -/
theorem settled_of_present {nesting : Except Text.TooManyDigits Nesting} {position : Nat}
    {tag : Tag} {payload : String}
    (h : ∃ ds, (f.present nesting position tag payload).outcome = .ok ds) :
    Settled tag payload := by
  cases tag with
  | userMention | roomLink | messageLink => exact decoded_ok_iff.mp h
  | span => exact decoded_ok_iff.mp h
  | blockQuote | unorderedListItem | orderedListItem | detailsSummary | detailsContent =>
      exact fitsDigits_of_numbered h
  | _ => trivial

/-- An annotation whose payload settles is presented. -/
theorem present_eq_ok (hf : f.MeasuresSp) {nesting : Nesting}
    (hnesting : ∀ p, Text.isInt32 (nesting.depthAt p) = true) (position : Nat) {tag : Tag}
    {payload : String} (h : Settled tag payload) :
    ∃ ds, (f.present (.ok nesting) position tag payload).outcome = .ok ds := by
  have hindenting : ∀ own, Text.isInt32 own = true →
      ∃ ds, (f.indenting tag (max own (nesting.depthAt position))).outcome = .ok ds := by
    intro own hown
    -- the own depth or the depth around, whichever is greater
    refine indenting_eq_ok hf tag ?_
    have haround := hnesting position
    rcases Int.le_total own (nesting.depthAt position) with hle | hle
    · rw [Int.max_eq_right hle]
      exact haround
    · rw [Int.max_eq_left hle]
      exact hown
  unfold present
  -- one case for each way in which a payload is read
  cases tag with
  | userMention | roomLink | messageLink => exact decoded_ok_iff.mpr h
  | span => exact decoded_ok_iff.mpr h
  | blockQuote | unorderedListItem | orderedListItem => exact numbered_eq_ok h hindenting
  | detailsSummary => exact numbered_eq_ok h fun id _ => ⟨f.summary id, rfl⟩
  | detailsContent =>
      refine numbered_eq_ok h fun _ _ => ?_
      obtain ⟨ds, hds⟩ := f.hideable_eq_ok (hnesting position)
      refine ⟨ds, ?_⟩
      simp only [atDepth, measured, hds]
      rfl
  | heading | roomMention | webLink | inlineCode | blockCode | unorderedList | orderedList
  | inlineImage | horizontalRule | clickToReveal => exact ⟨_, rfl⟩

/-! ## Records -/

/-- The record that is left where a payload cannot be decoded. -/
def decodingComplaint? {α : Type} (tag : Tag) (value : Except PayloadError α) :
    Option LogRecord :=
  match value with
  | .error (.undecodable e) => some (undecodable tag e)
  | _ => none

/-- The record that is left where a payload is not a whole number. -/
def numberComplaint? (tag : Tag) (what payload : String) : Option LogRecord :=
  match Text.wholeNumber payload.toList with
  | .ok none => some (notNumber tag what payload)
  | _ => none

/-- The record that the payload of an annotation leaves, if it leaves one. -/
def complaint? (tag : Tag) (payload : String) : Option LogRecord :=
  match tag with
  | .userMention | .roomLink | .messageLink =>
      decodingComplaint? tag (DeepLink.ofPayload payload)
  | .span => decodingComplaint? tag (SpanAttributes.ofPayload payload)
  | .blockQuote | .unorderedListItem | .orderedListItem => numberComplaint? tag "depth" payload
  | .detailsSummary | .detailsContent => numberComplaint? tag "id" payload
  | _ => none

/-- The records that the annotation of a range leaves. -/
def complaintsOf (r : Range) : List LogRecord :=
  match r.item with
  | .directive _ => []
  | .note tag payload => (complaint? tag payload).toList

/-- A payload is complained about if it cannot be decoded. -/
theorem decoded_log {α : Type} (tag : Tag) (value : Except PayloadError α)
    (present : α → List Directive) :
    (decoded tag value present).log = (decodingComplaint? tag value).toList := by
  cases value with
  | ok x => rfl
  | error e => cases e <;> rfl

theorem decoded_of_complaint {α : Type} {tag : Tag} {value : Except PayloadError α}
    {record : LogRecord} (h : decodingComplaint? tag value = some record)
    (present : α → List Directive) : decoded tag value present = .record record [] := by
  cases value with
  | ok x => exact nomatch h
  | error e =>
      cases e with
      | undecodable e =>
          cases h
          rfl
      | _ => exact nomatch h

theorem numbered_log {tag : Tag} {what payload : String}
    {present : Int → Logged StylingError (List Directive)} (h : ∀ n, (present n).log = []) :
    (numbered tag what payload present).log = (numberComplaint? tag what payload).toList := by
  rw [numbered, numberComplaint?]
  cases Text.wholeNumber payload.toList with
  | error refusal => rfl
  | ok n? =>
      cases n? with
      | none => rfl
      | some n => exact h n

theorem numbered_of_complaint {tag : Tag} {what payload : String} {record : LogRecord}
    (h : numberComplaint? tag what payload = some record)
    (present : Int → Logged StylingError (List Directive)) :
    numbered tag what payload present = .record record [] := by
  rw [numberComplaint?] at h
  split at h
  · rename_i hnumber
    cases h
    rw [numbered, hnumber]
  · exact nomatch h

theorem atDepth_log {nesting : Except Text.TooManyDigits Nesting} {position : Nat}
    {present : Int → Logged StylingError (List Directive)} (h : ∀ n, (present n).log = []) :
    (atDepth nesting position present).log = [] := by
  cases nesting with
  | error refusal => rfl
  | ok nesting => exact h _

theorem indenting_log (f : Formatter) (tag : Tag) (depth : Int) :
    (f.indenting tag depth).log = [] := by
  unfold indenting
  split <;> rfl

/-- Presenting an annotation leaves the record of its payload and no other. -/
theorem present_log (f : Formatter) (nesting : Except Text.TooManyDigits Nesting)
    (position : Nat) (tag : Tag) (payload : String) :
    (f.present nesting position tag payload).log = (complaint? tag payload).toList := by
  cases tag with
  | userMention | roomLink | messageLink => exact decoded_log ..
  | span => exact decoded_log ..
  | blockQuote | unorderedListItem | orderedListItem =>
      exact numbered_log fun own => atDepth_log fun around => f.indenting_log _ (max own around)
  | detailsSummary => exact numbered_log fun id => rfl
  | detailsContent => exact numbered_log fun _ => atDepth_log fun depth => rfl
  | _ => rfl

/-- A payload that leaves a record gets no directive. -/
theorem present_of_complaint (f : Formatter) (nesting : Except Text.TooManyDigits Nesting)
    (position : Nat) {tag : Tag} {payload : String} {record : LogRecord}
    (h : complaint? tag payload = some record) :
    f.present nesting position tag payload = .record record [] := by
  cases tag with
  | userMention | roomLink | messageLink => exact decoded_of_complaint h _
  | span => exact decoded_of_complaint h _
  | blockQuote | unorderedListItem | orderedListItem => exact numbered_of_complaint h _
  | detailsSummary => exact numbered_of_complaint h _
  | detailsContent => exact numbered_of_complaint h _
  | _ => exact nomatch h

/-! ## Styled texts -/

/-- The directives that present a range. -/
def directivesOf (f : Formatter) (nesting : Except Text.TooManyDigits Nesting) (r : Range) :
    List Directive :=
  match r.item with
  | .directive _ => []
  | .note tag payload => (f.present nesting r.start tag payload).outcome.toOption.getD []

/-- Ranges, each behind the directives that present it. -/
def styledRanges (f : Formatter) (nesting : Except Text.TooManyDigits Nesting)
    (rs : List Range) : List Range :=
  rs.flatMap fun r =>
    (f.directivesOf nesting r).map (fun d => ⟨.directive d, r.start, r.stop⟩) ++ [r]

/-- No directive is the same as an annotation, so what is mapped to directives is kept
    behind them. -/
theorem keepRange_directives (r : Range) (ds : List Directive) :
    keepRange r (ds.map fun d => ⟨.directive d, r.start, r.stop⟩)
      = ds.map (fun d => ⟨.directive d, r.start, r.stop⟩) ++ [r] := by
  refine if_neg ?_
  rw [Bool.not_eq_true, List.any_eq_false]
  intro q hq
  obtain ⟨d, -, rfl⟩ := List.mem_map.mp hq
  cases hitem : r.item <;> simp [Range.isSameNote, hitem]

/-- An annotation that is mapped to itself is not kept twice. -/
theorem keepRange_self {r : Range} {tag : Tag} {payload : String}
    (h : r.item = .note tag payload) : keepRange r [r] = [r] := by
  refine if_pos ?_
  simp [Range.isSameNote, h]

/-- A span that cannot be decoded has no directive. -/
theorem present_of_isUndecodableSpan (f : Formatter)
    (nesting : Except Text.TooManyDigits Nesting) (position : Nat) {tag : Tag} {payload : String}
    (h : isUndecodableSpan tag payload = true) :
    (f.present nesting position tag payload).outcome = .ok [] := by
  unfold isUndecodableSpan at h
  split at h
  · split at h
    · rename_i e hdecoded
      rw [present, hdecoded]
      rfl
    · exact nomatch h
  · exact nomatch h

/-- A directive is presented as it is. -/
theorem presentRange_directive (f : Formatter) (nesting : Except Text.TooManyDigits Nesting)
    {r : Range} {d : Directive} (h : r.item = .directive d) :
    f.presentRange nesting r = pure [r] := by
  rw [presentRange, mapRange, h]
  rfl

/-- An annotation is presented by the directives for its payload, and kept behind
    them, whether or not its payload can be decoded. -/
theorem presentRange_note (f : Formatter) (nesting : Except Text.TooManyDigits Nesting)
    {r : Range} {tag : Tag} {payload : String} (h : r.item = .note tag payload) :
    f.presentRange nesting r = (do
      let ds ← f.present nesting r.start tag payload
      pure (ds.map (fun d => ⟨.directive d, r.start, r.stop⟩) ++ [r])) := by
  have hundecodable : isUndecodableSpan tag payload = true →
      (f.present nesting r.start tag payload).outcome = .ok [] :=
    f.present_of_isUndecodableSpan nesting r.start
  rw [presentRange, mapRange, h]
  simp only
  generalize f.present nesting r.start tag payload = presented at hundecodable ⊢
  obtain ⟨log, outcome⟩ := presented
  cases outcome with
  | error e => rfl
  | ok ds =>
      by_cases hspan : isUndecodableSpan tag payload = true
      · cases hundecodable hspan
        simp [hspan, keepRange_self h]
      · simp [hspan, keepRange_directives]

/-- What presents a range, if anything does, stands in front of it. -/
theorem presentRange_outcome {nesting : Except Text.TooManyDigits Nesting} {r : Range}
    {out : List Range} (h : (f.presentRange nesting r).outcome = .ok out) :
    out = (f.directivesOf nesting r).map (fun d => ⟨.directive d, r.start, r.stop⟩) ++ [r] := by
  cases hitem : r.item with
  | directive d =>
      rw [f.presentRange_directive nesting hitem] at h
      cases h
      simp only [directivesOf, hitem, List.map_nil, List.nil_append]
  | note tag payload =>
      rw [f.presentRange_note nesting hitem] at h
      obtain ⟨ds, hds, hout⟩ := Logged.outcome_bind_eq_ok h
      cases hout
      simp only [directivesOf, hitem, hds, Except.toOption, Option.getD_some]

/-- Where all ranges are styled, each has its own directives in front. -/
theorem presentRanges_outcome {nesting : Except Text.TooManyDigits Nesting} {rs out : List Range}
    (h : (f.presentRanges nesting rs).outcome = .ok out) : out = f.styledRanges nesting rs := by
  induction rs generalizing out with
  | nil =>
      cases h
      rfl
  | cons r rs ih =>
      rw [presentRanges] at h
      obtain ⟨first, hfirst, h⟩ := Logged.outcome_bind_eq_ok h
      obtain ⟨rest, hrest, hout⟩ := Logged.outcome_bind_eq_ok h
      cases hout
      rw [presentRange_outcome hfirst, ih hrest, styledRanges, styledRanges, List.flatMap_cons]

/-- A styled text has the characters of the text, and its ranges each behind what
    presents it. -/
theorem apply_outcome {t styled : AnnotatedText} (h : (f.apply t).outcome = .ok styled) :
    styled = ⟨t.text, f.styledRanges (Nesting.ofText t) t.ranges⟩ := by
  obtain ⟨ranges, hranges, hstyled⟩ := Logged.outcome_bind_eq_ok h
  cases hstyled
  rw [presentRanges_outcome hranges]

/-- What is looked for among styled ranges is found as it was before if it is no
    directive that presents one of them. -/
theorem filter_styledRanges (f : Formatter) (nesting : Except Text.TooManyDigits Nesting)
    {keep : Range → Bool} {rs : List Range}
    (h : ∀ r ∈ rs, ∀ d ∈ f.directivesOf nesting r, keep ⟨.directive d, r.start, r.stop⟩ = false) :
    (f.styledRanges nesting rs).filter keep = rs.filter keep := by
  induction rs with
  | nil => rfl
  | cons r rs ih =>
      obtain ⟨hr, hrs⟩ := List.forall_mem_cons.mp h
      -- what is looked for is never among the directives that a range gains
      have hnone : ((f.directivesOf nesting r).map
          fun d => (⟨.directive d, r.start, r.stop⟩ : Range)).filter keep = [] := by
        refine List.filter_eq_nil_iff.mpr fun q hq => ?_
        obtain ⟨d, hd, rfl⟩ := List.mem_map.mp hq
        rw [hr d hd]
        exact Bool.false_ne_true
      rw [styledRanges, List.flatMap_cons, List.filter_append, List.filter_append, hnone,
        List.nil_append]
      show [r].filter _ ++ (f.styledRanges nesting rs).filter _ = _
      rw [ih hrs, ← List.filter_append]
      rfl

/-- Styling adds no annotation and takes none away. -/
theorem annotations_of_apply {t styled : AnnotatedText} (h : (f.apply t).outcome = .ok styled) :
    styled.annotations = t.annotations := by
  rw [apply_outcome h]
  exact f.filter_styledRanges _ fun _ _ _ _ => rfl

/-- Styling keeps the annotations of each kind. -/
theorem tagged_of_apply {t styled : AnnotatedText} (h : (f.apply t).outcome = .ok styled)
    (tag : Tag) : styled.tagged tag = t.tagged tag := by
  rw [AnnotatedText.tagged_eq, AnnotatedText.tagged_eq, annotations_of_apply h]

/-- Styling keeps every range in the text. -/
theorem wellFormed_of_apply {t styled : AnnotatedText} (h : (f.apply t).outcome = .ok styled)
    (ht : t.WellFormed) : styled.WellFormed := by
  rw [apply_outcome h]
  intro q hq
  obtain ⟨r, hr, hq⟩ := List.mem_flatMap.mp hq
  rcases List.mem_append.mp hq with hq | hq
  · obtain ⟨d, -, rfl⟩ := List.mem_map.mp hq
    exact ht r hr
  · rw [List.mem_singleton.mp hq]
    exact ht r hr

/-! ## Texts that can be styled -/

theorem depthRange?_eq_ok {r : Range}
    (h : ∀ tag payload, r.item = .note tag payload → Settled tag payload) :
    ∃ d?, Nesting.depthRange? r = .ok d? := by
  rw [Nesting.depthRange?]
  split
  · rename_i tag payload hitem
    split
    · rename_i htag
      have hsettled := h tag payload hitem
      have hfits : Text.FitsDigits payload.toList := by
        cases tag with
        | blockQuote | unorderedListItem | orderedListItem => exact hsettled
        | _ => exact absurd htag (by decide)
      rw [Text.wholeNumber_eq_ok hfits]
      exact ⟨_, rfl⟩
    · exact ⟨_, rfl⟩
  · exact ⟨_, rfl⟩

theorem depthRanges_eq_ok {rs : List Range} (h : SettledAll rs) :
    ∃ ds, Nesting.depthRanges rs = .ok ds := by
  induction rs with
  | nil => exact ⟨[], rfl⟩
  | cons r rs ih =>
      obtain ⟨d?, hfirst⟩ := depthRange?_eq_ok (h r (List.mem_cons_self ..))
      obtain ⟨ds, hrest⟩ := ih fun r' hr' => h r' (List.mem_cons_of_mem _ hr')
      refine ⟨d?.toList ++ ds, ?_⟩
      rw [Nesting.depthRanges_cons, hfirst, hrest]
      rfl

/-- Ranges that are settled can be styled at depths of 32 bits. -/
theorem presentRanges_eq_ok (hf : f.MeasuresSp) {nesting : Nesting}
    (hnesting : ∀ p, Text.isInt32 (nesting.depthAt p) = true) {rs : List Range}
    (h : SettledAll rs) :
    ∃ out, (f.presentRanges (.ok nesting) rs).outcome = .ok out := by
  induction rs with
  | nil => exact ⟨[], rfl⟩
  | cons r rs ih =>
      obtain ⟨rest, hrest⟩ := ih fun r' hr' => h r' (List.mem_cons_of_mem _ hr')
      have hfirst : ∃ first, (f.presentRange (.ok nesting) r).outcome = .ok first := by
        cases hitem : r.item with
        | directive d => exact ⟨[r], by rw [f.presentRange_directive _ hitem]; rfl⟩
        | note tag payload =>
            obtain ⟨ds, hds⟩ := present_eq_ok hf hnesting r.start
              (h r (List.mem_cons_self ..) tag payload hitem)
            refine ⟨ds.map (fun d => ⟨.directive d, r.start, r.stop⟩) ++ [r], ?_⟩
            rw [f.presentRange_note _ hitem, Logged.outcome_bind, hds]
            rfl
      obtain ⟨first, hfirst⟩ := hfirst
      refine ⟨first ++ rest, ?_⟩
      rw [presentRanges, Logged.outcome_bind, hfirst]
      show ((f.presentRanges (.ok nesting) rs >>= fun rest => pure (first ++ rest)).outcome) = _
      rw [Logged.outcome_bind, hrest]
      rfl

/-- A text whose payloads settle can be styled. -/
theorem apply_eq_ok (hf : f.MeasuresSp) {t : AnnotatedText} (h : SettledAll t.ranges) :
    ∃ styled, (f.apply t).outcome = .ok styled := by
  obtain ⟨ds, hds⟩ := depthRanges_eq_ok h
  have hnesting : Nesting.ofText t = .ok ⟨Nesting.stepsOf ds⟩ := by
    rw [Nesting.ofText, hds]
    rfl
  obtain ⟨out, hout⟩ := presentRanges_eq_ok hf (Nesting.isInt32_depthAt hnesting) h
  refine ⟨⟨t.text, out⟩, ?_⟩
  rw [apply, hnesting, Logged.outcome_bind, hout]
  rfl

/-- Only a text whose payloads settle can be styled. -/
theorem settledAll_of_presentRanges {nesting : Except Text.TooManyDigits Nesting}
    {rs out : List Range} (h : (f.presentRanges nesting rs).outcome = .ok out) :
    SettledAll rs := by
  induction rs generalizing out with
  | nil => exact fun _ hr => nomatch hr
  | cons r rs ih =>
      rw [presentRanges] at h
      obtain ⟨first, hfirst, h⟩ := Logged.outcome_bind_eq_ok h
      obtain ⟨rest, hrest, -⟩ := Logged.outcome_bind_eq_ok h
      refine List.forall_mem_cons.mpr ⟨?_, ih hrest⟩
      intro tag payload hitem
      rw [f.presentRange_note nesting hitem] at hfirst
      obtain ⟨ds, hds, -⟩ := Logged.outcome_bind_eq_ok hfirst
      exact settled_of_present ⟨ds, hds⟩

/-- A text can be styled just when the reading of its payloads settles. -/
theorem apply_ok_iff (hf : f.MeasuresSp) {t : AnnotatedText} :
    (∃ styled, (f.apply t).outcome = .ok styled) ↔ SettledAll t.ranges := by
  refine ⟨?_, apply_eq_ok hf⟩
  rintro ⟨styled, hstyled⟩
  obtain ⟨out, hout, -⟩ := Logged.outcome_bind_eq_ok hstyled
  exact settledAll_of_presentRanges hout

theorem presentRange_log (f : Formatter) (nesting : Except Text.TooManyDigits Nesting)
    (r : Range) : (f.presentRange nesting r).log = complaintsOf r := by
  rw [complaintsOf]
  cases hitem : r.item with
  | directive d =>
      rw [f.presentRange_directive nesting hitem]
      rfl
  | note tag payload =>
      rw [f.presentRange_note nesting hitem]
      exact (Logged.log_bind_pure _ _).trans (f.present_log nesting _ _ _)

/-- Ranges that are presented leave the records of their annotations, in order. -/
theorem presentRanges_log {nesting : Except Text.TooManyDigits Nesting} {rs out : List Range}
    (h : (f.presentRanges nesting rs).outcome = .ok out) :
    (f.presentRanges nesting rs).log = rs.flatMap complaintsOf := by
  induction rs generalizing out with
  | nil => rfl
  | cons r rs ih =>
      rw [presentRanges] at h ⊢
      obtain ⟨first, hfirst, h⟩ := Logged.outcome_bind_eq_ok h
      obtain ⟨rest, hrest, -⟩ := Logged.outcome_bind_eq_ok h
      rw [Logged.log_bind_of_ok hfirst, Logged.log_bind_pure, ih hrest, presentRange_log,
        List.flatMap_cons]

/-- Styling complains about one range after the other. -/
theorem apply_log {t styled : AnnotatedText} (h : (f.apply t).outcome = .ok styled) :
    (f.apply t).log = t.ranges.flatMap complaintsOf := by
  obtain ⟨out, hout, -⟩ := Logged.outcome_bind_eq_ok h
  rw [apply, Logged.log_bind_pure, presentRanges_log hout]

/-- A range whose payload leaves a record has no directive put in front of it. -/
theorem directivesOf_of_complaint (f : Formatter) (nesting : Except Text.TooManyDigits Nesting)
    {r : Range} (h : complaintsOf r ≠ []) : f.directivesOf nesting r = [] := by
  rw [directivesOf]
  rw [complaintsOf] at h
  cases hitem : r.item with
  | directive d => rfl
  | note tag payload =>
      rw [hitem] at h
      obtain ⟨record, hrecord⟩ := Option.ne_none_iff_exists'.mp (mt Option.toList_eq_nil_iff.mpr h)
      simp only [f.present_of_complaint nesting r.start hrecord]
      rfl

end Formatter

end MessageBody
