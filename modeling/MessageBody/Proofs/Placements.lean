import MessageBody.Drawing.Placement
import MessageBody.Proofs.Styling

/-! # Which texts can be styled and located

    Styling a text and locating its constructs both read payloads and are ready
    for those that cannot be decoded: such a payload is recorded, and its range
    gets neither a directive nor a place.  Both come to a result just when the
    reading of every payload that they ask for settles, and then the records and
    the places are those of the ranges, one after the other. -/

namespace MessageBody

namespace Placement

/-! ## Payloads of constructs -/

/-- The decoration of a user settles as the payload of its link does. -/
theorem settles_decodeUser_iff {payload : String} :
    Settles (decodeUser payload) ↔ Settles (DeepLink.ofPayload payload) := by
  rw [decodeUser]
  cases DeepLink.ofPayload payload with
  | error e =>
      show Settles (.error e) ↔ Settles (.error e)
      simp
  | ok link => cases link <;> simp [bind, Except.bind]

/-- A number settles unless it has too many digits. -/
theorem settles_decodeNumber_iff {payload : String} :
    Settles (decodeNumber payload) ↔ Text.FitsDigits payload.toList := by
  rw [← Text.wholeNumber_ok_iff, decodeNumber]
  cases Text.wholeNumber payload.toList with
  | error refusal => simp
  | ok n? => cases n? <;> simp

/-- The decoration of a span settles as its payload does. -/
theorem settles_decodeSpan_iff {payload : String} :
    Settles (decodeSpan payload) ↔ Settles (SpanAttributes.ofPayload payload) :=
  settles_map_iff _

/-! ## Constructs of one kind -/

section Ranges

variable {decode : String → Except PayloadError Decoration}

/-- The payload of a range, if it has one, is read to an end. -/
def RangeSettles (decode : String → Except PayloadError Decoration) (r : Range) : Prop :=
  ∀ tag payload, r.item = .note tag payload → Settles (decode payload)

/-- The record that the payload of a range leaves where it cannot be decoded. -/
def recordsOf (decode : String → Except PayloadError Decoration) (r : Range) : List LogRecord :=
  match r.item with
  | .directive _ => []
  | .note tag payload =>
      match decode payload with
      | .error (.undecodable e) => [.error (tag.word ++ " data parsing error: " ++ e.message)]
      | _ => []

/-- A range with its decoded payload, where it can be decoded. -/
def decodedOf (decode : String → Except PayloadError Decoration) (r : Range) :
    List (Range × Decoration) :=
  match r.item with
  | .directive _ => []
  | .note _ payload =>
      match decode payload with
      | .ok decoration => [(r, decoration)]
      | .error _ => []

/-- A range that settles is decoded or put in the log. -/
theorem decodeRange_eq {r : Range} (h : RangeSettles decode r) :
    decodeRange decode r = ⟨recordsOf decode r, .ok (decodedOf decode r)⟩ := by
  rw [decodeRange, recordsOf, decodedOf]
  cases hitem : r.item with
  | directive d => rfl
  | note tag payload =>
      rcases (h tag payload hitem).cases with ⟨x, hx⟩ | ⟨d, hd⟩
      · simp only [hx]
        rfl
      · simp only [hd]
        rfl

/-- Ranges that settle are decoded one after the other, and those that cannot be are put in the
    log. -/
theorem decodeRanges_eq {rs : List Range} (h : ∀ r ∈ rs, RangeSettles decode r) :
    decodeRanges decode rs
      = ⟨rs.flatMap (recordsOf decode), .ok (rs.flatMap (decodedOf decode))⟩ := by
  induction rs with
  | nil => rfl
  | cons r rs ih =>
      obtain ⟨hr, hrs⟩ := List.forall_mem_cons.mp h
      rw [decodeRanges, decodeRange_eq hr, ih hrs, Logged.bind_ok, Logged.bind_ok]
      simp

/-- Where all ranges were decoded, each of them settles. -/
theorem settles_of_decodeRanges {rs : List Range} {out : List (Range × Decoration)}
    (h : (decodeRanges decode rs).outcome = .ok out) : ∀ r ∈ rs, RangeSettles decode r := by
  induction rs generalizing out with
  | nil => exact fun _ hr => nomatch hr
  | cons r rs ih =>
      rw [decodeRanges] at h
      obtain ⟨first, hfirst, h⟩ := Logged.outcome_bind_eq_ok h
      obtain ⟨rest, hrest, -⟩ := Logged.outcome_bind_eq_ok h
      refine List.forall_mem_cons.mpr ⟨?_, ih hrest⟩
      intro tag payload hitem
      rw [decodeRange, hitem] at hfirst
      dsimp only at hfirst
      cases hdecode : decode payload with
      | ok decoration => exact settles_ok decoration
      | error e =>
          rw [hdecode] at hfirst
          -- what cannot be decoded is passed over; any other error stops the rest
          cases e with
          | undecodable d => exact settles_undecodable d
          | _ => exact nomatch hfirst

/-- A range whose payload leaves a record is not located. -/
theorem decodedOf_of_recordsOf {r : Range} (h : recordsOf decode r ≠ []) :
    decodedOf decode r = [] := by
  rw [recordsOf] at h
  rw [decodedOf]
  cases hitem : r.item with
  | directive d => rfl
  | note tag payload =>
      rw [hitem] at h
      cases hdecode : decode payload with
      | error e => simp only [hdecode]
      | ok decoration => simp [hdecode] at h

end Ranges

/-! ## All constructs -/

/-- A kind of construct that a style may ask to be located. -/
structure Request where
  isDrawn : Bool
  extent : Extent
  tag : Tag
  decode : String → Except PayloadError Decoration

/-- The kinds of construct in the order in which they are located. -/
def requests (s : DrawStyle) : List Request :=
  [ ⟨s.userMention.isSome, .eachLine, .userMention, decodeUser⟩,
    ⟨s.roomMention.isSome, .eachLine, .roomMention, decodeNothing⟩,
    ⟨s.blockQuote.isSome, .block, .blockQuote, decodeNumber⟩,
    ⟨s.inlineCode.isSome, .eachLine, .inlineCode, decodeNothing⟩,
    ⟨s.blockCode.isSome, .block, .blockCode, decodeNothing⟩,
    ⟨s.behindSpan.isSome || s.aboveSpan.isSome, .eachLine, .span, decodeSpan⟩,
    ⟨s.summary.isSome, .block, .detailsSummary, decodeNumber⟩,
    ⟨s.summaryFirstLine.isSome, .firstLine, .detailsSummary, decodeNumber⟩,
    ⟨s.detailsContent.isSome, .block, .detailsContent, decodeNumber⟩ ]

/-- The constructs of a placement, in the order of the requests. -/
def toLists (p : Placement) : List (List Located) :=
  [p.userMentions, p.roomMentions, p.blockQuotes, p.inlineCode, p.blockCode, p.spans,
    p.summaries, p.summaryFirstLines, p.detailsContents]

/-- The payload that a request asks for settles when styling reads it too. -/
theorem settles_decode_iff {s : DrawStyle} {q : Request} (hq : q ∈ requests s) (payload : String) :
    Settles (q.decode payload) ↔ Formatter.Settled q.tag payload := by
  simp only [requests, List.mem_cons, List.not_mem_nil, or_false] at hq
  rcases hq with rfl | rfl | rfl | rfl | rfl | rfl | rfl | rfl | rfl
  · exact settles_decodeUser_iff
  · exact iff_of_true (settles_ok _) trivial
  · exact settles_decodeNumber_iff
  · exact iff_of_true (settles_ok _) trivial
  · exact iff_of_true (settles_ok _) trivial
  · exact settles_decodeSpan_iff
  · exact settles_decodeNumber_iff
  · exact settles_decodeNumber_iff
  · exact settles_decodeNumber_iff

section Texts

variable {t : AnnotatedText} {layout : TextLayout Float} {s : DrawStyle} {q : Request}

/-- The payloads that the request reads settle. -/
def Request.Settles (t : AnnotatedText) (q : Request) : Prop :=
  q.isDrawn = true → Formatter.SettledAll (t.tagged q.tag)

/-- The places of the constructs that the request asks for. -/
def Request.located (t : AnnotatedText) (layout : TextLayout Float) (q : Request) :
    List Located :=
  if q.isDrawn then
    ((t.tagged q.tag).flatMap (decodedOf q.decode)).flatMap fun (r, decoration) =>
      (q.extent.positions layout r).map fun position => ⟨decoration, position⟩
  else []

/-- The records of the payloads that the request reads. -/
def Request.records (t : AnnotatedText) (q : Request) : List LogRecord :=
  if q.isDrawn then (t.tagged q.tag).flatMap (recordsOf q.decode) else []

/-- What a request asks for is located, if the payloads settle. -/
theorem locate_eq (hq : q ∈ requests s) (h : q.Settles t) :
    locate t layout q.isDrawn q.extent q.tag q.decode
      = ⟨q.records t, .ok (q.located t layout)⟩ := by
  rw [locate, Request.records, Request.located]
  split
  · rename_i hdrawn
    have hranges : ∀ r ∈ t.tagged q.tag, RangeSettles q.decode r := by
      intro r hr tag payload hitem
      have htag : r.item.tag? = some q.tag := beq_iff_eq.mp (List.mem_filter.mp hr).2
      rw [hitem] at htag
      cases htag
      exact (settles_decode_iff hq payload).mpr (h hdrawn r hr _ payload hitem)
    rw [decodeRanges_eq hranges, Logged.bind_ok, Logged.log_pure, Logged.outcome_pure,
      List.append_nil]
  · rfl

/-- What was located for a request settles. -/
theorem settles_of_locate (hq : q ∈ requests s) {located : List Located}
    (h : (locate t layout q.isDrawn q.extent q.tag q.decode).outcome = .ok located) :
    q.Settles t := by
  intro hdrawn r hr tag payload hitem
  rw [locate, if_pos hdrawn] at h
  obtain ⟨out, hout, -⟩ := Logged.outcome_bind_eq_ok h
  have htag : r.item.tag? = some q.tag := beq_iff_eq.mp (List.mem_filter.mp hr).2
  rw [hitem] at htag
  cases htag
  exact (settles_decode_iff hq payload).mp (settles_of_decodeRanges hout r hr _ payload hitem)

/-- The constructs of a text are located, if the payloads settle. -/
theorem ofText_eq (layout : TextLayout Float) (h : ∀ q ∈ requests s, q.Settles t) :
    ∃ p, ofText t layout s = ⟨(requests s).flatMap (Request.records t), .ok p⟩
      ∧ p.toLists = (requests s).map (Request.located t layout) := by
  have hlocate : ∀ q ∈ requests s, locate t layout q.isDrawn q.extent q.tag q.decode
      = ⟨q.records t, .ok (q.located t layout)⟩ := fun q hq => locate_eq hq (h q hq)
  simp only [requests, List.forall_mem_cons] at hlocate
  obtain ⟨h1, h2, h3, h4, h5, h6, h7, h8, h9, -⟩ := hlocate
  rw [ofText]
  simp only [h1, h2, h3, h4, h5, h6, h7, h8, h9, Logged.bind_ok]
  exact ⟨_, rfl, rfl⟩

/-- Where a text was placed, every request on it settles. -/
theorem settles_of_ofText {p : Placement} (h : (ofText t layout s).outcome = .ok p) :
    ∀ q ∈ requests s, q.Settles t := by
  have hlocate : ∀ q ∈ requests s, ∀ located,
      (locate t layout q.isDrawn q.extent q.tag q.decode).outcome = .ok located → q.Settles t :=
    fun q hq located => settles_of_locate hq
  simp only [requests, List.forall_mem_cons] at hlocate ⊢
  obtain ⟨h1, h2, h3, h4, h5, h6, h7, h8, h9, -⟩ := hlocate
  rw [ofText] at h
  -- one step of locating after the other came to a value
  obtain ⟨_, hl1, h⟩ := Logged.outcome_bind_eq_ok h
  obtain ⟨_, hl2, h⟩ := Logged.outcome_bind_eq_ok h
  obtain ⟨_, hl3, h⟩ := Logged.outcome_bind_eq_ok h
  obtain ⟨_, hl4, h⟩ := Logged.outcome_bind_eq_ok h
  obtain ⟨_, hl5, h⟩ := Logged.outcome_bind_eq_ok h
  obtain ⟨_, hl6, h⟩ := Logged.outcome_bind_eq_ok h
  obtain ⟨_, hl7, h⟩ := Logged.outcome_bind_eq_ok h
  obtain ⟨_, hl8, h⟩ := Logged.outcome_bind_eq_ok h
  obtain ⟨_, hl9, -⟩ := Logged.outcome_bind_eq_ok h
  exact ⟨h1 _ hl1, h2 _ hl2, h3 _ hl3, h4 _ hl4, h5 _ hl5, h6 _ hl6, h7 _ hl7, h8 _ hl8,
    h9 _ hl9, nofun⟩

/-- A text can be located just when the payloads that the style asks for settle. -/
theorem ofText_ok_iff : (∃ p, (ofText t layout s).outcome = .ok p)
    ↔ ∀ q ∈ requests s, q.Settles t := by
  constructor
  · rintro ⟨p, hp⟩
    exact settles_of_ofText hp
  · intro h
    obtain ⟨p, hp, -⟩ := ofText_eq layout h
    exact ⟨p, by rw [hp]⟩

end Texts

/-- The constructs of a text are located: each where it stands, unless its payload
    is recorded as one that cannot be decoded. -/
structure Locates (t : AnnotatedText) (layout : TextLayout Float) (s : DrawStyle) : Prop where
  result : ∃ p, ofText t layout s = ⟨(requests s).flatMap (Request.records t), .ok p⟩
    ∧ p.toLists = (requests s).map (Request.located t layout)
  omitted : ∀ q ∈ requests s, ∀ r, recordsOf q.decode r ≠ [] → decodedOf q.decode r = []

end Placement

/-- A text is styled: every range stays, behind the directives that present it,
    unless its payload is recorded as one that cannot be decoded. -/
structure Formatter.Presents (f : Formatter) (t : AnnotatedText) : Prop where
  result : f.apply t = ⟨t.ranges.flatMap complaintsOf,
    .ok ⟨t.text, f.styledRanges (Nesting.ofText t) t.ranges⟩⟩
  undecorated : ∀ r ∈ t.ranges, complaintsOf r ≠ [] → f.directivesOf (Nesting.ofText t) r = []

/-- A text whose ranges are settled is styled. -/
theorem Formatter.presents {f : Formatter} (hf : f.MeasuresSp) {t : AnnotatedText}
    (h : SettledAll t.ranges) : f.Presents t where
  result := by
    obtain ⟨styled, hstyled⟩ := apply_eq_ok hf h
    rw [← apply_log hstyled, ← apply_outcome hstyled, ← hstyled]
  undecorated := fun r _ => directivesOf_of_complaint f (Nesting.ofText t)

/-- **What comes of arbitrary payloads**: a text is styled, and its constructs are
    located, just when the reading of each payload that is asked for settles.  What
    cannot be decoded is recorded then, and gets no directive and no place.  A link
    or a span fails to settle in the ways named here and in no other. -/
theorem outcome_of_payloads (f : Formatter) (hf : f.MeasuresSp) (t : AnnotatedText)
    (layout : TextLayout Float) (s : DrawStyle) :
    ((∃ styled, (f.apply t).outcome = .ok styled) ↔ Formatter.SettledAll t.ranges)
    ∧ (Formatter.SettledAll t.ranges → f.Presents t)
    ∧ ((∃ p, (Placement.ofText t layout s).outcome = .ok p)
      ↔ ∀ q ∈ Placement.requests s, q.Settles t)
    ∧ ((∀ q ∈ Placement.requests s, q.Settles t) → Placement.Locates t layout s)
    ∧ ∀ payload : String,
      (Settles (DeepLink.ofPayload payload) ↔ DeepLink.Settling payload)
      ∧ (Settles (SpanAttributes.ofPayload payload) ↔ SpanAttributes.Settling payload) := by
  refine ⟨Formatter.apply_ok_iff hf, Formatter.presents hf, Placement.ofText_ok_iff, ?_, ?_⟩
  · intro h
    exact ⟨Placement.ofText_eq layout h, fun q _ r => Placement.decodedOf_of_recordsOf⟩
  · intro payload
    exact ⟨DeepLink.settles_ofPayload_iff, SpanAttributes.settles_ofPayload_iff⟩

/-- The payload of a spoiler that leaves out the colours. -/
def colourless : String :=
  "\x7b\"is_spoiler\": true, \"reveal_id\": 0\x7d"

/-- A span without its colours does not settle. -/
theorem not_settles_colourless : ¬ Settles (SpanAttributes.ofPayload colourless) := by
  decide +kernel

/-- A text with a spoiler that leaves out the colours. -/
def colourlessSpoiler : AnnotatedText :=
  ⟨"a".toList, [⟨.note .span colourless, 0, 1⟩]⟩

/-- A text with a quote whose depth is not a number. -/
def wordyQuote : AnnotatedText :=
  ⟨"a".toList, [⟨.note .blockQuote "x", 0, 1⟩]⟩

/-- A layout that answers no question. -/
def TextLayout.unanswered : TextLayout Float where
  lineOf? _ := none
  lineStart? _ := none
  lineEnd? _ := none
  box? _ := none
  top? _ := none
  bottom? _ := none
  left? _ := none
  right? _ := none
  direction? _ := none

/-- A depth that is not a number only leaves a record; a spoiler that leaves out the
    colours stops both styling and locating. -/
theorem outcome_wordyQuote_colourlessSpoiler :
    (Formatter.standard.Presents wordyQuote ∧ Placement.Locates wordyQuote .unanswered {})
      ∧ (¬ ∃ styled, (Formatter.standard.apply colourlessSpoiler).outcome = .ok styled)
      ∧ ¬ ∃ p, (Placement.ofText colourlessSpoiler .unanswered {}).outcome = .ok p := by
  obtain ⟨-, hpresents, -, hlocates, -⟩ := outcome_of_payloads .standard
    Formatter.standard_measuresSp wordyQuote .unanswered {}
  obtain ⟨hstyled, -, hlocated, -⟩ := outcome_of_payloads .standard Formatter.standard_measuresSp
    colourlessSpoiler .unanswered {}
  have hquote : Formatter.SettledAll wordyQuote.ranges := by
    intro r hr tag payload hitem
    rw [List.mem_singleton.mp hr] at hitem
    cases hitem
    exact (by decide : Text.FitsDigits "x".toList)
  have hspan : ¬ Formatter.SettledAll colourlessSpoiler.ranges := fun h =>
    not_settles_colourless (h _ (List.mem_cons_self ..) .span colourless rfl)
  refine ⟨⟨hpresents hquote, hlocates fun q _ _ r hr => hquote r (List.mem_filter.mp hr).1⟩, ?_⟩
  rw [hstyled, hlocated]
  refine ⟨hspan, fun h => hspan (h ⟨true, .eachLine, .span, Placement.decodeSpan⟩ ?_ rfl)⟩
  simp [Placement.requests]

end MessageBody
