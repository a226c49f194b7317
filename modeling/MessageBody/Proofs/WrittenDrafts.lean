import MessageBody.Proofs.Building
import MessageBody.Proofs.Cursors
import MessageBody.Render.Writing

/-! # What is written on a draft

    Content that is written on a draft adds to it what rendering gives as a fragment
    (`writeOne_yields`).  The layer that is written on grows by the text of the fragment:
    its characters come behind those that are there, and its ranges behind the slots,
    those that are still open included (`Layer.Grows`).  So the end of the layer moves as
    the cursor does, an annotation that was opened in front of the content closes around
    it, and the content of a deep link can be cut off again.  The layers below stay as
    they are, and images and ids are collected beside the texts (`Draft.Gains`).  A body
    is then what its content makes up when it is written from the start
    (`written_ofContent`). -/

namespace MessageBody

/-! ## Growing layers -/

namespace Layer

variable {l l' l'' : Layer} {t u : AnnotatedText}

/-- The builder of a layer keeps what agrees with its text and slots. -/
def Consistent (l : Layer) : Prop :=
  l.builder.Consistent

theorem consistent_startAt (base : Nat) : (startAt base).Consistent :=
  Builder.consistent_empty

theorem Consistent.opening (h : l.Consistent) (item : Item) : (l.opening item).Consistent :=
  Builder.Consistent.start h item

/-- A layer has become another one by a text that was put at its end. -/
structure Grows (l : Layer) (t : AnnotatedText) (l' : Layer) : Prop where
  base : l'.base = l.base
  text : l'.builder.text = l.builder.text ++ t.text
  slots : l'.builder.slots
    = ((t.ranges.map (Range.shift l.builder.length)).map Slot.done).reverse ++ l.builder.slots
  consistent : l'.Consistent

/-- A layer grows by nothing when it stays as it is. -/
theorem Grows.refl (h : l.Consistent) : l.Grows .empty l where
  base := rfl
  text := (List.append_nil _).symm
  slots := rfl
  consistent := h

/-- A layer becomes longer by the text that it grows by. -/
theorem Grows.length (h : l.Grows t l') (hl : l.Consistent) :
    l'.builder.length = l.builder.length + t.length := by
  rw [h.consistent.length, h.text, List.length_append, hl.length]
  rfl

/-- A layer grows by one text and then by another as by both together. -/
theorem Grows.trans (h : l.Grows t l') (hl : l.Consistent) (h' : l'.Grows u l'') :
    l.Grows (t ++ u) l'' where
  base := h'.base.trans h.base
  text := by rw [h'.text, h.text, List.append_assoc, AnnotatedText.text_append]
  slots := by
    rw [h'.slots, h.slots, h.length hl, AnnotatedText.ranges_append]
    simp only [List.map_append, List.reverse_append, List.append_assoc, List.map_map,
      Function.comp_def, Range.shift_shift]
  consistent := h'.consistent

/-- Appending puts a text at the end, with its ranges moved. -/
theorem Consistent.grows_append (h : l.Consistent) (ht : t.WellFormed) : l.Grows t (l.append t) where
  base := rfl
  text := (Builder.step_annotated h ht).text
  slots := l.builder.slots_append t
  consistent := (Builder.step_annotated h ht).consistent

/-- A range that was opened in front of a text is closed behind it, and then reaches from
    its one end to the other. -/
theorem Grows.closing {item : Item} (hl : l.Consistent) (h : (l.opening item).Grows t l') :
    ∃ closed, l'.closing? = some closed ∧ l.Grows (t.marked item) closed := by
  have hslots : l'.builder.slots = (t.ranges.map (Range.shift l.builder.length)).reverse.map .done
      ++ .pending item l.builder.length :: l.builder.slots := by
    rw [h.slots, List.map_reverse]
    rfl
  have hdepth : 0 < l'.builder.depth := by
    rw [Builder.depth, hslots, List.countP_append, List.countP_cons_of_pos rfl]
    omega
  obtain ⟨_, _, _, _, b, -, hfinish, -, htext, hb⟩ := Builder.Consistent.finish? h.consistent hdepth
  -- the slots that closing gives are computed from the ones that are known
  have hclosed : b.slots = (t.ranges.map (Range.shift l.builder.length)).reverse.map .done
      ++ .done ⟨item, l.builder.length, l'.builder.length⟩ :: l.builder.slots := by
    have hfinish' := hfinish
    rw [Builder.finish?, hslots, Builder.closeSlot?_done] at hfinish'
    exact congrArg Builder.slots (Option.some.inj hfinish').symm
  refine ⟨{ l' with builder := b }, by rw [closing?, hfinish]; rfl, h.base, ?_, ?_, hb⟩
  · exact htext.trans h.text
  · have hlength : l'.builder.length = l.builder.length + t.length := h.length (hl.opening item)
    rw [hclosed, hlength, List.map_reverse, AnnotatedText.marked, List.map_cons, List.map_cons,
      List.reverse_cons, List.append_assoc]
    rfl

/-- A paragraph ends where a layer does if one of the text ends there, or if one ended there
    before and the text has no characters. -/
theorem Grows.paragraphEnded (h : l.Grows t l') (hl : l.Consistent) :
    l'.builder.paragraphEnded
      = (t.endsParagraph || (t.text.isEmpty && l.builder.paragraphEnded)) := by
  rw [Bool.eq_iff_iff, Builder.paragraphEnded, List.contains_iff_mem, h.consistent.ends, h.slots,
    h.length hl, Bool.or_eq_true, Bool.and_eq_true, List.isEmpty_iff, Builder.paragraphEnded,
    List.contains_iff_mem, hl.ends, AnnotatedText.endsParagraph, List.any_eq_true]
  constructor
  · rintro ⟨r, hr, hparagraph, hstop⟩
    rcases List.mem_append.mp hr with hr | hr
    · -- the paragraph is one of the text
      left
      obtain ⟨r', hr', rfl⟩ : ∃ r' ∈ t.ranges, r'.shift l.builder.length = r := by
        simpa using hr
      refine ⟨r', hr', ?_⟩
      have hstop' : l.builder.length + r'.stop = l.builder.length + t.length := hstop
      rw [Bool.and_eq_true, beq_iff_eq]
      exact ⟨hparagraph, by omega⟩
    · -- the paragraph was there, so the text has no characters
      right
      have hle : r.stop ≤ l.builder.length := (hl.within _ hr).2
      have hnone : t.length = 0 := by omega
      exact ⟨List.eq_nil_of_length_eq_zero hnone, r, hr, hparagraph, by omega⟩
  · rintro (⟨r, hr, hends⟩ | ⟨hnil, r, hr, hparagraph, hstop⟩)
    · rw [Bool.and_eq_true, beq_iff_eq] at hends
      refine ⟨r.shift l.builder.length, List.mem_append_left _ ?_, hends.1, ?_⟩
      · exact List.mem_reverse.mpr (List.mem_map_of_mem (List.mem_map_of_mem hr))
      · exact congrArg (l.builder.length + ·) hends.2
    · refine ⟨r, List.mem_append_right _ hr, hparagraph, ?_⟩
      rw [AnnotatedText.length, hnil]
      exact hstop

/-- The end of a layer moves as a cursor does. -/
theorem Grows.position (h : l.Grows t l') (hl : l.Consistent) :
    l'.position = l.position.advance t := by
  have hlast : l'.builder.last = t.text.getLast?.or l.builder.last := by
    rw [h.consistent.last, h.text, List.getLast?_append, hl.last]
  rw [Layer.position, Cursor.advance, h.base, h.length hl, hlast, h.paragraphEnded hl]
  rfl

/-- What was written on an empty layer is its text. -/
theorem Grows.text_eq {base : Nat} (h : (startAt base).Grows t l) : l.text = t := by
  have hranges : l.builder.ranges = t.ranges := by
    rw [Builder.ranges, h.slots]
    show (((t.ranges.map (Range.shift 0)).map Slot.done).reverse ++ []).reverse.filterMap _ = _
    rw [AnnotatedText.shift_zero_eq_id, List.map_id, List.append_nil, List.reverse_reverse,
      List.filterMap_map]
    exact List.filterMap_some
  rw [Layer.text, h.text, hranges]
  rfl

/-- What is complete on a consistent layer lies in its text. -/
theorem Consistent.wellFormed_text (h : l.Consistent) : l.text.WellFormed := by
  intro r hr
  rw [show l.text.length = l.builder.length from h.length.symm]
  exact h.within (.done r) (Builder.mem_ranges.mp hr)

end Layer

/-! ## Growing drafts -/

namespace Draft

variable {d d' d'' : Draft} {t : AnnotatedText} {f g : Fragment}

/-- A draft has become another one by a fragment that was written at its end. -/
structure Gains (d : Draft) (f : Fragment) (d' : Draft) : Prop where
  labelled : d'.labelled = d.labelled
  top : d.top.Grows f.text d'.top
  below : d'.below = d.below
  images : d'.images
    = f.images.foldl (fun images (key, info) => Body.setImage key info images) d.images
  revealable : ∀ x, x ∈ d'.revealable ↔ x ∈ d.revealable ∨ x ∈ f.reveals.map Int.ofNat

theorem Gains.refl (hd : d.top.Consistent) : d.Gains .empty d where
  labelled := rfl
  top := .refl hd
  below := rfl
  images := rfl
  revealable := fun _ => ⟨Or.inl, fun h => h.resolve_right List.not_mem_nil⟩

/-- Two fragments are gained one after the other. -/
theorem Gains.trans (h : d.Gains f d') (hd : d.top.Consistent) (h' : d'.Gains g d'') :
    d.Gains (f ++ g) d'' where
  labelled := h'.labelled.trans h.labelled
  top := h.top.trans hd h'.top
  below := h'.below.trans h.below
  images := by rw [h'.images, h.images, Fragment.images_append, List.foldl_append]
  revealable := by
    intro x
    rw [h'.revealable, h.revealable, Fragment.reveals_append, List.map_append, List.mem_append,
      or_assoc]

/-- The end of a draft moves as the cursor does. -/
theorem Gains.position (h : d.Gains f d') (hd : d.top.Consistent) :
    d'.top.position = d.top.position.advance f.text :=
  h.top.position hd

theorem gains_append (hd : d.top.Consistent) (ht : t.WellFormed) :
    d.Gains (.ofText t) (d.append t) :=
  { Gains.refl hd with top := hd.grows_append ht }

theorem gains_chars (hd : d.top.Consistent) (s : List Char) :
    d.Gains (.ofChars s) (d.append (.plain s)) :=
  gains_append hd (AnnotatedText.wellFormed_plain s)

/-- An annotation opened in front of a fragment closes around it. -/
theorem Gains.closing {item : Item} (hd : d.top.Consistent) (h : (d.opening item).Gains f d') :
    ∃ closed, d'.closing? = some closed ∧ d.Gains (f.marked item) closed := by
  obtain ⟨l, hclosing, hgrows⟩ := Layer.Grows.closing hd h.top
  refine ⟨{ d' with top := l }, by rw [closing?, hclosing]; rfl, ?_⟩
  exact ⟨h.labelled, hgrows, h.below, h.images, h.revealable⟩

/-- A text is written with an annotation on all of it. -/
theorem gains_annotated (hd : d.top.Consistent) (item : Item) (ht : t.WellFormed) :
    ∃ d', d.annotated? item t = some d' ∧ d.Gains (.ofText (t.marked item)) d' :=
  Gains.closing hd (gains_append (hd.opening item) ht)

/-- Something that can be revealed is noted in front of what is written there. -/
theorem Gains.revealing (h : d.markRevealable.Gains f d') :
    d.Gains { f with reveals := d.offset :: f.reveals } d' where
  labelled := h.labelled
  top := h.top
  below := h.below
  images := h.images
  revealable := by
    intro x
    rw [h.revealable]
    show x ∈ d.revealable.insert d.offset ∨ _ ↔ _
    rw [IdSet.mem_insert, List.map_cons, List.mem_cons, or_assoc, or_left_comm]
    rfl

/-- What was written on a layer of its own is cut off again as it is; images and ids
    stay. -/
theorem Gains.cut (hd : d.top.Consistent) (h : d.fork.Gains f d') :
    ∃ rest, d'.cut? = some (f.text, rest) ∧ d.Gains { f with text := .empty } rest := by
  refine ⟨{ d' with top := d.top, below := d.below }, ?_, h.labelled, .refl hd, rfl, h.images,
    h.revealable⟩
  rw [cut?, show d'.below = d.top :: d.below from h.below, show d'.top.text = f.text from
    h.top.text_eq]

/-- A text of its own, put in when it is complete, is as good as one written in place. -/
theorem Gains.shown (hd : d.top.Consistent) (h : d.Gains { f with text := .empty } d')
    (h' : d'.Gains (.ofText t) d'') : d.Gains { f with text := t } d'' := by
  have heq : ({ f with text := .empty } ++ .ofText t : Fragment) = { f with text := t } := by
    show Fragment.mk (.empty ++ t) (f.images ++ []) (f.reveals ++ []) = _
    rw [AnnotatedText.empty_append, List.append_nil, List.append_nil]
  exact heq ▸ h.trans hd h'

/-- Joined, a layer has written below what was written on it. -/
theorem Gains.join (hd : d.top.Consistent) (h : d.fork.Gains f d') :
    ∃ joined, d'.join? = some joined ∧ d.Gains f joined := by
  obtain ⟨rest, hcut, hrest⟩ := h.cut hd
  have hwell : f.text.WellFormed := h.top.text_eq ▸ h.top.consistent.wellFormed_text
  refine ⟨rest.append f.text, by rw [join?, hcut]; rfl, ?_⟩
  exact hrest.shown hd (gains_append hrest.top.consistent hwell)

variable {ctx : Context}

theorem gains_newline (hl : d.labelled = ctx.labelled) (hd : d.top.Consistent) (label : String) :
    d.Gains (.ofChars (ctx.lineBreak label)) (d.newline label) := by
  rw [Context.lineBreak, ← hl]
  exact gains_chars hd _

/-- A draft gets a line break where its cursor asks for one. -/
theorem gains_separate (hl : d.labelled = ctx.labelled) (hd : d.top.Consistent) (label : String)
    (ahead : List Content) :
    d.Gains (.ofChars (ctx.separation d.top.position label ahead)) (d.separate label ahead) := by
  rw [Context.separation, separate]
  split
  · exact gains_newline hl hd label
  · exact .refl hd

/-- A draft gets the gap in front of block content. -/
theorem gains_gap (hl : d.labelled = ctx.labelled) (hd : d.top.Consistent)
    (previous : Option Trace) (label : String) :
    d.Gains (.ofChars (gapBefore ctx previous d.top.position label)) (d.gap previous label) := by
  rw [gapBefore, gap]
  split
  · exact gains_separate hl hd label []
  · exact .refl hd

theorem gains_breakLine (hl : d.labelled = ctx.labelled) (hd : d.top.Consistent)
    (ahead : List Content) (previous : Option Trace) (next : Int) :
    d.Gains (renderLineBreak ctx ahead previous next).fragment (d.breakLine ahead previous) := by
  rw [renderLineBreak, breakLine]
  split
  · exact gains_newline hl hd "br"
  · split
    · exact gains_chars hd _
    · exact .refl hd

/-- A draft gets the line breaks behind a paragraph. -/
theorem gains_breakParagraph (hl : d.labelled = ctx.labelled) (hd : d.top.Consistent)
    (isDivision : Bool) (ahead : List Content) :
    d.Gains (.ofChars (if Content.breaksBefore ahead then []
        else if !isDivision && Content.paragraphAhead ahead then
          ctx.lineBreak "p2" ++ ctx.lineBreak "p3"
        else ctx.lineBreak "p2"))
      (d.breakParagraph isDivision ahead) := by
  rw [breakParagraph]
  split
  · exact .refl hd
  · have hfirst := gains_newline hl hd "p2"
    split
    · exact hfirst.trans hd (gains_newline (hfirst.labelled.trans hl) hfirst.top.consistent "p3")
    · exact hfirst

end Draft

/-! ## Writing what is rendered -/

/-- What was written on a draft is what was rendered for its end. -/
def Draft.Yields (d : Draft) (r : Rendered) (written : Option Written) : Prop :=
  ∃ w, written = some w ∧ d.Gains r.fragment w.draft ∧ w.trace = r.trace ∧ w.next = r.next

namespace Draft.Yields

variable {d d' : Draft} {r r' : Rendered} {written : Option Written}

theorem withTrace (h : d.Yields r written) (trace : Trace) :
    d.Yields (r.withTrace trace) (written.map (Written.withTrace trace)) := by
  obtain ⟨w, rfl, hgains, htrace, hnext⟩ := h
  refine ⟨_, rfl, hgains, ?_, hnext⟩
  rw [Written.withTrace, Rendered.withTrace, htrace]

theorem setTrace (h : d.Yields r written) (trace : Trace) :
    d.Yields (r.setTrace trace) (written.map (Written.setTrace trace)) := by
  obtain ⟨w, rfl, hgains, -, hnext⟩ := h
  exact ⟨_, rfl, hgains, rfl, hnext⟩

theorem setNext (h : d.Yields r written) (next : Int) :
    d.Yields (r.setNext next) (written.map (Written.setNext next)) := by
  obtain ⟨w, rfl, hgains, htrace, -⟩ := h
  exact ⟨_, rfl, hgains, htrace, rfl⟩

/-- What is written between the opening and the closing of a range has its item. -/
theorem closing {item : Item} (hd : d.top.Consistent) (h : (d.opening item).Yields r written) :
    d.Yields (r.marked item) (written.bind Written.closing?) := by
  obtain ⟨w, rfl, hgains, htrace, hnext⟩ := h
  obtain ⟨closed, hclosing, hclosed⟩ := hgains.closing hd
  refine ⟨{ w with draft := closed }, ?_, hclosed, htrace, hnext⟩
  rw [Option.bind_some, Written.closing?, hclosing]
  rfl

/-- What is written behind characters is rendered behind them. -/
theorem after {s : List Char} (hd : d.top.Consistent) (hs : d.Gains (.ofChars s) d')
    (h : d'.Yields r written) : d.Yields (r.after s) written := by
  obtain ⟨w, rfl, hgains, htrace, hnext⟩ := h
  exact ⟨w, rfl, hs.trans hd hgains, htrace, hnext⟩

/-- A place that is noted before the writing identifies what is written. -/
theorem revealing (h : d.markRevealable.Yields r written) :
    d.Yields { r with fragment := { r.fragment with reveals := d.offset :: r.fragment.reveals } }
      written := by
  obtain ⟨w, rfl, hgains, htrace, hnext⟩ := h
  exact ⟨w, rfl, hgains.revealing, htrace, hnext⟩

/-- One thing written after the other. -/
theorem bind (hd : d.top.Consistent) (h : d.Yields r written) {k : Written → Option Written}
    (hk : ∀ w : Written, d.Gains r.fragment w.draft → w.trace = r.trace → w.next = r.next →
      w.draft.Yields r' (k w)) :
    d.Yields { r' with fragment := r.fragment ++ r'.fragment } (written.bind k) := by
  obtain ⟨w, rfl, hgains, htrace, hnext⟩ := h
  obtain ⟨w', hw', hgains', htrace', hnext'⟩ := hk w hgains htrace hnext
  exact ⟨w', hw', hgains.trans hd hgains', htrace', hnext'⟩

variable {ctx : Context}

/-- A paragraph is finished as it is closed. -/
theorem paragraph (hl : d.labelled = ctx.labelled) (hd : d.top.Consistent)
    (h : d.Yields r written) (isDivision : Bool) (ahead : List Content) :
    d.Yields (closeParagraph ctx isDivision ahead r)
      (written.map (finishParagraph isDivision ahead d.top.builder.length)) := by
  obtain ⟨w, rfl, hgains, htrace, hnext⟩ := h
  refine ⟨finishParagraph isDivision ahead d.top.builder.length w, rfl, ?_⟩
  -- nothing was written if the text has become no longer
  have hempty : (w.draft.top.builder.length == d.top.builder.length)
      = (r.fragment.text.length == 0) := by
    rw [hgains.top.length hd, Bool.eq_iff_iff, beq_iff_eq, beq_iff_eq]
    omega
  rw [closeParagraph, finishParagraph, hempty]
  split
  · exact ⟨hgains, rfl, hnext⟩
  · have hbreak := gains_breakParagraph (hgains.labelled.trans hl) hgains.top.consistent isDivision
      ahead
    exact ⟨hgains.trans hd hbreak, rfl, hnext⟩

/-- Preformatted content is finished as it is closed. -/
theorem preformatted (hl : d.labelled = ctx.labelled) (hd : d.top.Consistent)
    (h : d.Yields r written) (ahead : List Content) :
    d.Yields (closePreformatted ctx ahead (d.top.position.advance r.fragment.text) r)
      (written.map (finishPreformatted ahead)) := by
  obtain ⟨w, rfl, hgains, htrace, hnext⟩ := h
  refine ⟨finishPreformatted ahead w, rfl, ?_⟩
  rw [closePreformatted, finishPreformatted, ← hgains.position hd]
  split
  · exact ⟨hgains, rfl, hnext⟩
  · have hbreak := gains_separate (hgains.labelled.trans hl) hgains.top.consistent "pre2" ahead
    exact ⟨hgains.trans hd hbreak, rfl, hnext⟩

/-- What a details element hides has its range, and nothing is written where there is
    nothing to hide. -/
theorem hidden {id : String} {content : List Content} {next : Int} (hd : d.top.Consistent)
    (h : (d.opening (.note .detailsContent id)).Yields r written) :
    d.Yields (hideContent id content next r)
      (if content.isEmpty then some ⟨d, none, next⟩ else written.bind Written.closing?) := by
  rw [hideContent]
  split
  · exact ⟨_, rfl, .refl hd, rfl, rfl⟩
  · exact h.closing hd

/-- The parts of a details element are written one after the other, behind the place that
    identifies it. -/
theorem details {before label after : Rendered} {first : Option Written}
    {summary rest : Written → Option Written} (hd : d.top.Consistent)
    (hbefore : d.markRevealable.Yields before first)
    (hlabel : ∀ w : Written, d.markRevealable.Gains before.fragment w.draft →
      w.next = before.next → w.draft.Yields label (summary w))
    (hafter : ∀ w w' : Written, d.markRevealable.Gains before.fragment w.draft →
      w.draft.Gains label.fragment w'.draft → w'.next = label.next →
      w'.draft.Yields after (rest w')) :
    d.Yields (closeDetails d.top.position before label after)
      (first.bind fun w => (summary w).bind fun w' => (rest w').map (Written.setTrace .block)) := by
  have hparts := hbefore.bind (d := d.markRevealable) hd fun w hw _ hn =>
    (hlabel w hw hn).bind hw.top.consistent fun w' hw' _ hn' =>
      (hafter w w' hw hw' hn').setTrace .block
  rw [closeDetails, Fragment.append_assoc]
  exact hparts.revealing

/-- The content of a deep link is cut off as it was rendered, and then shown. -/
theorem deepLink (hstyle : ctx.style.KeepsBounds) (hd : d.top.Consistent)
    (h : d.fork.Yields r written) (address : String) (link : DeepLink) :
    d.Yields (closeAnchor ctx address (some link) r)
      ((written.bind (finishLink ctx link)).map (Written.withTrace .plain)) := by
  obtain ⟨w, rfl, hgains, htrace, hnext⟩ := h
  have hwell : r.fragment.text.WellFormed :=
    hgains.top.text_eq ▸ hgains.top.consistent.wellFormed_text
  obtain ⟨rest, hcut, hrest⟩ := hgains.cut hd
  obtain ⟨d', hd', hshown⟩ := gains_annotated hrest.top.consistent (.note link.tag link.payload)
    (hstyle link _ hwell)
  refine ⟨(w.onDraft fun _ => d').withTrace .plain, ?_, hrest.shown hd hshown, ?_, hnext⟩
  · show ((finishLink ctx link w).map _) = _
    rw [finishLink, hcut, Option.bind_some]
    show (((rest.annotated? _ _).map _).map _) = _
    rw [hd']
    rfl
  · show some (w.trace.getD _) = some (r.trace.getD _)
    rw [htrace]

end Draft.Yields

section

variable {d : Draft} {ctx : Context}

theorem writeImage_yields (hd : d.top.Consistent) (info : ImageInfo) (next : Int) :
    d.Yields (renderImage ctx info next) (writeImage ctx info next d) := by
  obtain ⟨d', hd', hgains⟩ := Draft.gains_annotated hd (.note .inlineImage (imageKey info))
    (AnnotatedText.wellFormed_plain (ctx.style.imageText info).toList)
  refine ⟨⟨d'.addImage (imageKey info) info, some .plain, next⟩, ?_, ?_, rfl, rfl⟩
  · rw [writeImage, hd']
    rfl
  · have himages : d'.images = d.images := hgains.images
    refine ⟨hgains.labelled, hgains.top, hgains.below, ?_, hgains.revealable⟩
    show Body.setImage (imageKey info) info d'.images = _
    rw [himages]
    rfl

theorem writeRule_yields (hl : d.labelled = ctx.labelled) (hd : d.top.Consistent)
    (ahead : List Content) (next : Int) :
    d.Yields (renderRule ctx ahead d.top.position next) (writeRule ahead next d) := by
  have hgap := Draft.gains_separate hl hd "hr1" []
  obtain ⟨d', hd', hrule⟩ := Draft.gains_annotated hgap.top.consistent (.note .horizontalRule "")
    (AnnotatedText.wellFormed_plain ruleText)
  have hgains := hgap.trans hd hrule
  refine ⟨_, by rw [writeRule, hd']; rfl, ?_, rfl, rfl⟩
  refine hgains.trans hd ?_
  show d'.Gains (.ofChars (if Content.breaksBefore ahead then [] else ctx.lineBreak "hr2"))
    (if Content.breaksBefore ahead then d' else d'.newline "hr2")
  split
  · exact .refl hgains.top.consistent
  · exact Draft.gains_newline (hgains.labelled.trans hl) hgains.top.consistent "hr2"

end

/-! ## The walk -/

mutual

/-- A piece of content is written as it is rendered for the end of the draft. -/
theorem writeOne_yields : (c : Content) → (ctx : Context) → (ahead : List Content) →
    (previous : Option Trace) → (next : Int) → (d : Draft) → ctx.style.KeepsBounds →
    d.labelled = ctx.labelled → d.top.Consistent →
    d.Yields (renderOne c ctx ahead previous d.top.position next)
      (writeOne c ctx ahead previous next d)
  | .text data, ctx, ahead, previous, next, d, _, hl, hd => by
      rw [renderOne, writeOne, hl]
      cases visibleText? ctx previous ahead data with
      | none => exact ⟨_, rfl, .refl hd, rfl, rfl⟩
      | some s =>
          have hwell := AnnotatedText.wellFormed_richText ctx.style ctx.allowMention
            (ctx.style.autoLink && !ctx.isLinked) (withLabels ctx.labelled s)
          exact ⟨_, rfl, Draft.gains_append hd hwell, rfl, rfl⟩
  | .emphasis e children, ctx, _, _, next, d, hstyle, hl, hd => by
      rw [renderOne, writeOne]
      exact ((writeAll_yields children ctx none next (d.opening _) hstyle hl
        (hd.opening _)).closing hd).withTrace .plain
  | .code children, ctx, _, _, next, d, hstyle, hl, hd => by
      rw [renderOne, writeOne]
      split
      · exact ((writeAll_yields children ctx none next (d.opening _) hstyle hl
          (hd.opening _)).closing hd).setTrace .block
      · exact ((writeAll_yields children ctx none next (d.opening _) hstyle hl
          (hd.opening _)).closing hd).withTrace .plain
  | .span look children, ctx, _, _, next, d, hstyle, hl, hd => by
      rw [renderOne, writeOne]
      cases hspoiler : look.isSpoiler with
      | false =>
          exact ((writeAll_yields children ctx none next (d.opening _) hstyle hl
            (hd.opening _)).closing hd).withTrace .plain
      | true =>
          -- the position is noted before the range of the span is opened
          exact ((writeAll_yields children ctx none next (d.markRevealable.opening _) hstyle hl
            (hd.opening _)).closing (d := d.markRevealable) hd).revealing.withTrace .plain
  | .anchor address children, ctx, _, _, next, d, hstyle, hl, hd => by
      rw [renderOne, writeOne]
      cases DeepLink.ofUrl? address.toList with
      | none =>
          exact ((writeAll_yields children { ctx with isLinked := true } none next (d.opening _)
            hstyle hl (hd.opening _)).closing hd).withTrace .plain
      | some link =>
          have hbody := writeAll_yields children { ctx with isLinked := true } none next d.fork
            hstyle hl (Layer.consistent_startAt _)
          exact Draft.Yields.deepLink hstyle hd hbody address link
  | .lineBreak, ctx, ahead, previous, next, d, _, hl, hd => by
      rw [renderOne, writeOne]
      exact ⟨_, rfl, Draft.gains_breakLine hl hd ahead previous next, rfl, rfl⟩
  | .image info, ctx, _, _, next, d, _, _, hd => by
      rw [renderOne, writeOne]
      exact writeImage_yields hd info next
  | .foreignImage children, ctx, _, _, next, d, hstyle, hl, hd => by
      rw [renderOne, writeOne]
      exact (writeAll_yields children ctx none next d hstyle hl hd).setTrace .plain
  | .heading level children, ctx, _, _, next, d, hstyle, hl, hd => by
      rw [renderOne, writeOne]
      exact ((writeAll_yields children ctx none next (d.opening _) hstyle hl
        (hd.opening _)).closing hd).setTrace .block
  | .paragraph isDivision children, ctx, ahead, previous, next, d, hstyle, hl, hd => by
      rw [renderOne, writeOne]
      have hgap := Draft.gains_gap hl hd previous "p1"
      have hlabelled : (d.gap previous "p1").labelled = ctx.labelled := hgap.labelled.trans hl
      have hbody := writeAll_yields children ctx none next (d.gap previous "p1") hstyle hlabelled
        hgap.top.consistent
      rw [hgap.position hd] at hbody
      exact (hbody.paragraph hlabelled hgap.top.consistent isDivision ahead).after hd hgap
  | .quote children, ctx, _, _, next, d, hstyle, hl, hd => by
      rw [renderOne, writeOne]
      exact ((writeAll_yields children { ctx with depth := ctx.depth + 1 } none next (d.opening _)
        hstyle hl (hd.opening _)).closing hd).setTrace .paragraph
  | .preformatted children, ctx, ahead, previous, next, d, hstyle, hl, hd => by
      rw [renderOne, writeOne]
      have hgap := Draft.gains_gap hl hd previous "pre1"
      have hlabelled : (d.gap previous "pre1").labelled = ctx.labelled := hgap.labelled.trans hl
      have hbody := writeAll_yields children { ctx with isPreformatted := true } none next
        (d.gap previous "pre1") hstyle hlabelled hgap.top.consistent
      have hclosed := Draft.Yields.preformatted hlabelled hgap.top.consistent hbody ahead
      rw [hgap.position hd] at hclosed
      exact hclosed.after hd hgap
  | .rule, ctx, ahead, _, next, d, _, hl, hd => by
      rw [renderOne, writeOne]
      exact writeRule_yields hl hd ahead next
  | .details before summary after, ctx, _, previous, next, d, hstyle, hl, hd => by
      rw [renderOne, writeOne]
      refine Draft.Yields.details hd ?_ ?_ ?_
      · exact Draft.Yields.hidden (d := d.markRevealable) hd (writeAll_yields before ctx previous
          next (d.markRevealable.opening _) hstyle hl (hd.opening _))
      · intro w hw hn
        -- the sign of the summary is written inside its range
        have hopened := hw.top.consistent.opening
          (.note .detailsSummary (payloadOf d.top.position.offset))
        have hsign := Draft.gains_chars (d := w.draft.opening _) hopened
          ctx.style.summaryPlaceholder.toList
        have hsummary := writeAll_yields summary ctx none w.next _ hstyle
          (hsign.labelled.trans (hw.labelled.trans hl)) hsign.top.consistent
        rw [hsign.position hopened, show (w.draft.opening _).top.position = _ from hw.position hd]
          at hsummary
        rw [← hn]
        exact (hsummary.after hopened hsign).closing hw.top.consistent
      · intro w w' hw hw' hn'
        have hafter := writeAll_yields after ctx (some .block) w'.next (w'.draft.opening
          (.note .detailsContent (payloadOf d.top.position.offset))) hstyle
          (hw'.labelled.trans (hw.labelled.trans hl)) (hw'.top.consistent.opening _)
        rw [show (w'.draft.opening _).top.position = _ from hw'.position hw.top.consistent,
          hw.position hd] at hafter
        rw [← hn']
        exact hafter.hidden hw'.top.consistent
  | .unorderedList children, ctx, _, _, next, d, hstyle, hl, hd => by
      rw [renderOne, writeOne]
      exact (((writeAll_yields children
        { ctx with scope := .unordered (ctx.style.bullet ctx.depth) } none next (d.opening _) hstyle
        hl (hd.opening _)).closing hd).setTrace .paragraph).setNext next
  | .orderedList start children, ctx, _, _, next, d, hstyle, hl, hd => by
      rw [renderOne, writeOne]
      exact (((writeAll_yields children { ctx with scope := .ordered } none _ (d.opening _) hstyle
        hl (hd.opening _)).closing hd).setTrace .paragraph).setNext next
  | .listItem value children, ctx, _, _, next, d, hstyle, hl, hd => by
      rw [renderOne, writeOne]
      cases itemLabel? ctx value next with
      | none => exact writeAll_yields children ctx none next d hstyle hl hd
      | some found =>
          obtain ⟨label, tag, number⟩ := found
          show d.Yields (ite ..) (ite ..)
          split
          · exact writeAll_yields children { ctx with depth := ctx.depth + 1 } none number d hstyle
              hl hd
          · -- the label is written inside the range of the item
            have hopened := hd.opening (.note tag (payloadOf ctx.depth))
            have hlabel := Draft.gains_chars (d := d.opening (.note tag (payloadOf ctx.depth)))
              hopened label
            have hbody := writeAll_yields children { ctx with depth := ctx.depth + 1 } none number
              _ hstyle (hlabel.labelled.trans hl) hlabel.top.consistent
            rw [hlabel.position hopened] at hbody
            exact ((hbody.after hopened hlabel).closing hd).withTrace .block
  | .unsupported _ children, ctx, _, _, next, d, hstyle, hl, hd => by
      rw [renderOne, writeOne]
      exact writeAll_yields children ctx none next d hstyle hl hd

/-- Pieces of content are written one after the other as they are rendered. -/
theorem writeAll_yields : (cs : List Content) → (ctx : Context) → (previous : Option Trace) →
    (next : Int) → (d : Draft) → ctx.style.KeepsBounds → d.labelled = ctx.labelled →
    d.top.Consistent →
    d.Yields (renderAll cs ctx previous d.top.position next) (writeAll cs ctx previous next d)
  | [], _, _, _, _, _, _, hd => by
      rw [renderAll, writeAll]
      exact ⟨_, rfl, .refl hd, rfl, rfl⟩
  | c :: cs, ctx, previous, next, d, hstyle, hl, hd => by
      rw [renderAll, writeAll]
      refine (writeOne_yields c ctx cs previous next d hstyle hl hd).bind hd fun w hw ht hn => ?_
      have hrest := writeAll_yields cs ctx (w.trace.or previous) w.next w.draft hstyle
        (hw.labelled.trans hl) hw.top.consistent
      rw [hw.position hd, ht, hn] at hrest
      rw [ht, hn]
      exact hrest

end

/-! ## Bodies -/

/-- **A body is what writing its content on an empty draft makes up.**  Content is written
    to the end, whatever it is, and every layer that was begun for a link has been cut off
    again. -/
theorem written_ofContent {settings : Settings} (hstyle : settings.style.KeepsBounds)
    (content : List Content) :
    ∃ w, writeAll content settings.context none 1 (.start settings.labelled) = some w
      ∧ w.draft.below = [] ∧ w.draft.body = Body.ofContent settings content := by
  obtain ⟨w, hw, hgains, -, -⟩ := writeAll_yields content settings.context none 1
    (.start settings.labelled) hstyle rfl (Layer.consistent_startAt 0)
  have hbelow : w.draft.below = [] := hgains.below
  have htext : w.draft.bottom.text = (Body.render settings content).text := by
    rw [Draft.bottom, hbelow]
    exact hgains.top.text_eq
  have hids : w.draft.revealable
      = .ofList ((Body.render settings content).reveals.map Int.ofNat) := by
    refine IdSet.eq_of_mem_iff fun x => ?_
    rw [hgains.revealable, IdSet.mem_ofList]
    exact or_iff_right (IdSet.not_mem_empty x)
  refine ⟨w, hw, hbelow, ?_⟩
  rw [Draft.body, htext, hids, show w.draft.images = _ from hgains.images]
  rfl

end MessageBody
