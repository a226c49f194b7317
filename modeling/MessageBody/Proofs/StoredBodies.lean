import MessageBody.Proofs.StoredValues
import MessageBody.Storage.Writing

/-! # Storing bodies and reading them back

    A body whose directives have no lengths is read back from what is stored, but
    for its clickable regions, which are not stored, and with its directives behind
    its annotations.  So what is read back is stored as the same text.  Such a body is
    refused only for a number of too many digits or an indentation that there is no room
    for (`write_ok_iff`): numbers are written in base ten, and so they are refused where
    they would not be read. -/

namespace MessageBody

open Json (WritableIn)
open Storage (Mark MarkedText Document)

/-! ## What is read back -/

/-- A range is not a region that changes what is shown when it is clicked. -/
def Range.isStored (r : Range) : Bool :=
  r.item.kind? != some .clickable

/-- The text that is read back: annotations come before directives. -/
def AnnotatedText.restored (t : AnnotatedText) : AnnotatedText :=
  ⟨t.text, t.annotations ++ t.directives.filter Range.isStored⟩

/-- The body that is read back, with its images in the order of their keys. -/
def Body.restored (b : Body) : Body where
  text := b.text.restored
  images := Order.sort (fun i j => i.1 < j.1 || i.1 == j.1) b.images
  revealable := b.revealable

/-! ## What can be stored -/

/-- The whole numbers of a range. -/
def Range.numbers (r : Range) : List Int :=
  r.start :: r.stop ::
    match r.item with
    | .note _ _ => []
    | .directive d => d.numbers

/-- The whole numbers that are stored of a body. -/
def Body.numbers (b : Body) : List Int :=
  (b.text.ranges.filter Range.isStored).flatMap Range.numbers
    ++ b.images.flatMap (fun i => i.2.numbers)
    ++ b.revealable.toList

/-- The directive of a range has no length. -/
def Range.IsUnitless (r : Range) : Prop :=
  ∀ d, r.item = .directive d → d.IsUnitless

/-- A body that loses nothing but its clickable regions where it is stored: its ranges
    lie in its text, each image has a key of its own, and its directives have no lengths. -/
structure Body.IsLossless (b : Body) : Prop where
  wellFormed : b.text.WellFormed
  keys_nodup : (b.images.map Prod.fst).Nodup
  unitless : ∀ r ∈ b.text.ranges, r.IsUnitless

/-- A body that can be stored without loss: its numbers have not too many digits. -/
structure Body.IsStorable (b : Body) : Prop extends b.IsLossless where
  numbers_short : ∀ n ∈ b.numbers, Text.IsShort n

namespace Body.IsStorable

variable {b : Body}

theorem range_numbers_short (h : b.IsStorable) :
    ∀ r ∈ b.text.ranges, r.isStored = true → ∀ n ∈ r.numbers, Text.IsShort n :=
  fun r hr hstored n hn => h.numbers_short n (List.mem_append_left _ (List.mem_append_left _
    (List.mem_flatMap.mpr ⟨r, List.mem_filter.mpr ⟨hr, hstored⟩, hn⟩)))

theorem image_numbers_short (h : b.IsStorable) :
    ∀ i ∈ b.images, ∀ n ∈ i.2.numbers, Text.IsShort n :=
  fun i hi n hn => h.numbers_short n (List.mem_append_left _ (List.mem_append_right _
    (List.mem_flatMap.mpr ⟨i, hi, hn⟩)))

theorem ids_short (h : b.IsStorable) : ∀ n ∈ b.revealable.toList, Text.IsShort n :=
  fun n hn => h.numbers_short n (List.mem_append_right _ hn)

end Body.IsStorable

namespace Storage

/-! ## Reading members -/

section Members

variable {members : List (String × Json)} (hkeys : (members.map Prod.fst).Nodup)

include hkeys in
/-- A member is found by its key, in whatever order the members were stored. -/
theorem member_sortKeys (absent : ReadError) {m : String × Json} (h : m ∈ members) :
    member absent m.1 (Json.sortKeys (.obj members)) = .ok m.2.sortKeys := by
  rw [Json.sortKeys_obj, member]
  simp only [Json.member?_sortKeys hkeys h]

include hkeys in
/-- A member that is there is found, and its default does not matter. -/
theorem memberOr_sortKeys (default : Json) {m : String × Json} (h : m ∈ members) :
    memberOr default m.1 (Json.sortKeys (.obj members)) = .ok m.2.sortKeys := by
  rw [Json.sortKeys_obj, memberOr]
  simp only [Json.member?_sortKeys hkeys h]
  rfl

end Members

/-- What is read back one by one is read back together. -/
theorem readEach_eq {α β γ : Type} {read : β → Except ReadError γ} {f : α → β} {g : α → γ}
    {xs : List α} (h : ∀ x ∈ xs, read (f x) = .ok (g x)) :
    readEach read (xs.map f) = .ok (xs.map g) := by
  induction xs with
  | nil => rfl
  | cons x xs ih =>
      obtain ⟨hx, hxs⟩ := List.forall_mem_cons.mp h
      rw [List.map_cons, readEach, hx, ih hxs]
      rfl

/-! ## Marks -/

theorem below_whole (m n : Int) : (Number.whole m).below (.whole n) = decide (m < n) := by
  rw [Bool.eq_iff_iff, decide_eq_true_eq]
  exact Number.whole_lt_whole

/-- A mark whose bounds are in order is made as it is. -/
theorem Mark.make_eq (content : Mark.Content) {start stop : Nat} (h : start ≤ stop) :
    Mark.make content (.int start) (.int stop) = .ok ⟨content, .int start, .int stop⟩ := by
  have hlow : ¬ (start : Int) < 0 := by omega
  have hhigh : ¬ (stop : Int) < start := by omega
  simp only [Mark.make, bound, number?, Bind.bind, Except.bind, below_whole, hlow, hhigh,
    decide_false, Bool.false_eq_true, if_false]

/-- The members of a stored annotation. -/
def noteMembers (tag : Tag) (payload : String) (start stop : Nat) : List (String × Json) :=
  [ ("tag", .str tag.wireName), ("payload", .str payload), ("start", .int start),
    ("end", .int stop) ]

/-- The members of a stored directive. -/
def styleMembers (d : Directive) (start stop : Nat) : List (String × Json) :=
  [ ("type", .str d.kind.wireName), ("value", d.toJson), ("start", .int start),
    ("end", .int stop) ]

/-- An annotation is read back from its members. -/
theorem readNote_noteMembers (tag : Tag) (payload : String) {start stop : Nat} (h : start ≤ stop) :
    readNote (Json.sortKeys (.obj (noteMembers tag payload start stop)))
      = .ok ⟨.note tag (.str payload), .int start, .int stop⟩ := by
  have hkeys : ((noteMembers tag payload start stop).map Prod.fst).Nodup :=
    show ["tag", "payload", "start", "end"].Nodup by decide
  have htag := member_sortKeys hkeys .wrongKind (m := ("tag", .str tag.wireName))
    (by simp [noteMembers])
  have hpayload := memberOr_sortKeys hkeys (.str "") (m := ("payload", .str payload))
    (by simp [noteMembers])
  have hstart := member_sortKeys hkeys .wrongKind (m := ("start", .int start))
    (by simp [noteMembers])
  have hstop := member_sortKeys hkeys .wrongKind (m := ("end", .int stop))
    (by simp [noteMembers])
  have hname : readTag (Json.sortKeys (.str tag.wireName)) = .ok tag := by
    simp only [Json.sortKeys, readTag, Tag.ofWireName?_wireName]
  rw [readNote, htag, hpayload, hstart, hstop]
  simp only [Bind.bind, Except.bind, hname]
  exact Mark.make_eq _ h

theorem readKind_wireName {kind : DirectiveKind} (h : kind ≠ .clickable) :
    readKind (.str kind.wireName) = .ok kind := by
  cases kind with
  | run | paragraph | url => rfl
  | clickable => exact absurd rfl h

/-- A directive without lengths is read back from its members. -/
theorem readStyle_styleMembers {d : Directive} (hd : d.IsUnitless) (hkind : d.kind ≠ .clickable)
    {start stop : Nat} (h : start ≤ stop) :
    readStyle (Json.sortKeys (.obj (styleMembers d start stop)))
      = .ok ⟨.directive d, .int start, .int stop⟩ := by
  -- members are found by their names, so it makes no difference that they were sorted
  have hkeys : ((styleMembers d start stop).map Prod.fst).Nodup :=
    show ["type", "value", "start", "end"].Nodup by decide
  have htype := member_sortKeys hkeys .wrongKind (m := ("type", .str d.kind.wireName))
    (by simp [styleMembers])
  have hvalue := member_sortKeys hkeys .wrongKind (m := ("value", d.toJson))
    (by simp [styleMembers])
  have hstart := member_sortKeys hkeys .wrongKind (m := ("start", .int start))
    (by simp [styleMembers])
  have hstop := member_sortKeys hkeys .wrongKind (m := ("end", .int stop))
    (by simp [styleMembers])
  have hname : readKind (Json.sortKeys (.str d.kind.wireName)) = .ok d.kind :=
    readKind_wireName hkind
  rw [readStyle, htype, hvalue, hstart, hstop]
  simp only [Bind.bind, Except.bind, hname, Directive.read_toJson hd hkind]
  exact Mark.make_eq _ h

/-- What is written of some elements is read back in their order. -/
theorem readEach_filterMap {α β : Type} {read : Json → Except ReadError β} {f : α → Option Json}
    {g : α → β} {xs : List α}
    (h : ∀ x ∈ xs, ∀ v, f x = some v → read v.sortKeys = .ok (g x)) :
    readEach read ((xs.filterMap f).map Json.sortKeys)
      = .ok ((xs.filter fun x => (f x).isSome).map g) := by
  induction xs with
  | nil => rfl
  | cons x xs ih =>
      obtain ⟨hx, hxs⟩ := List.forall_mem_cons.mp h
      cases hv : f x with
      | none => rw [List.filterMap_cons_none hv, List.filter_cons_of_neg (by simp [hv]), ih hxs]
      | some v =>
          rw [List.filterMap_cons_some hv, List.filter_cons_of_pos (by simp [hv]), List.map_cons,
            readEach, hx v hv, ih hxs]
          rfl

/-! ## Texts -/

section Texts

variable {r : Range}

/-- Annotations are stored as such, and nothing else is. -/
theorem isSome_annotationJson? (r : Range) : r.toMark.annotationJson?.isSome = r.item.isNote := by
  obtain ⟨item, start, stop⟩ := r
  cases item <;> rfl

/-- Directives are stored as such but for clickable regions. -/
theorem isSome_styleJson? (r : Range) :
    r.toMark.styleJson?.isSome = (r.isStored && !r.item.isNote) := by
  obtain ⟨item, start, stop⟩ := r
  cases item with
  | note tag payload => rfl
  | directive d => cases d with
    | run | paragraph | url | clickable => rfl
    | stored kind value => cases kind <;> rfl

/-- An annotation is stored. -/
theorem isStored_of_annotationJson? {v : Json} (h : r.toMark.annotationJson? = some v) :
    r.isStored = true := by
  obtain ⟨item, start, stop⟩ := r
  cases item with
  | note tag payload => rfl
  | directive d => exact nomatch h

theorem isStored_of_styleJson? {v : Json} (h : r.toMark.styleJson? = some v) :
    r.isStored = true := by
  have hsome := isSome_styleJson? r
  rw [h, Option.isSome_some] at hsome
  exact (Bool.and_eq_true_iff.mp hsome.symm).1

/-- An annotation that was stored is read back as its mark. -/
theorem readNote_toMark (hle : r.start ≤ r.stop) {v : Json}
    (h : r.toMark.annotationJson? = some v) : readNote v.sortKeys = .ok r.toMark := by
  obtain ⟨item, start, stop⟩ := r
  cases item with
  | note tag payload =>
      cases h
      exact readNote_noteMembers tag payload hle
  | directive d => exact nomatch h

/-- A directive that was stored is read back as its mark. -/
theorem readStyle_toMark (hle : r.start ≤ r.stop) (hunit : r.IsUnitless) {v : Json}
    (h : r.toMark.styleJson? = some v) : readStyle v.sortKeys = .ok r.toMark := by
  obtain ⟨item, start, stop⟩ := r
  cases item with
  | note tag payload => exact nomatch h
  | directive d =>
      have hkind : d.kind ≠ .clickable := fun hkind => by
        simp [Mark.styleJson?, Range.toMark, hkind] at h
      simp only [Mark.styleJson?, Range.toMark, if_neg hkind] at h
      cases h
      exact readStyle_styleMembers (hunit d rfl) hkind hle

end Texts

/-- The members of a stored text. -/
def MarkedText.members (t : MarkedText) : List (String × Json) :=
  [ ("text", t.text),
    ("annotations", .arr (t.marks.filterMap Mark.annotationJson?)),
    ("styles", .arr (t.marks.filterMap Mark.styleJson?)) ]

theorem MarkedText.keys_members (t : MarkedText) : (t.members.map Prod.fst).Nodup :=
  show ["text", "annotations", "styles"].Nodup by decide

theorem items_sortKeys_arr (vs : List Json) :
    items (Json.sortKeys (.arr vs)) = .ok (vs.map Json.sortKeys) := by
  rw [Json.sortKeys_arr, items]

/-- Marks in a text do not end after it. -/
theorem MarkedText.make_toMark (text : List Char) (rs : List Range)
    (h : ∀ r ∈ rs, r.stop ≤ text.length) :
    MarkedText.make (.str (String.ofList text)) (rs.map Range.toMark)
      = .ok ⟨.str (String.ofList text), rs.map Range.toMark⟩ := by
  have hlength : length (.str (String.ofList text)) = .ok text.length := by
    simp [length, items, Except.map]
  have hfind : (rs.map Range.toMark).find?
      (fun m => (number? m.stop).any (Number.below (.whole text.length))) = none := by
    refine List.find?_eq_none.mpr fun m hm => ?_
    obtain ⟨r, hr, rfl⟩ := List.mem_map.mp hm
    have hstop := h r hr
    simp only [Range.toMark, number?, Option.any_some, below_whole, decide_eq_true_eq]
    omega
  rw [make, hlength]
  simp only [Bind.bind, Except.bind, hfind]

theorem mem_restored {t : AnnotatedText} {r : Range} (h : r ∈ t.restored.ranges) :
    r ∈ t.ranges := by
  rcases List.mem_append.mp h with h | h
  · exact (List.mem_filter.mp h).1
  · exact (List.mem_filter.mp (List.mem_filter.mp h).1).1

/-- A text is read back with its annotations in front. -/
theorem MarkedText.ofJson_toStored {t : AnnotatedText} (hwell : t.WellFormed)
    (hunit : ∀ r ∈ t.ranges, r.IsUnitless) :
    MarkedText.ofJson t.toStored.toJson.sortKeys = .ok t.restored.toStored := by
  have hannotations : readEach readNote
      ((t.toStored.marks.filterMap Mark.annotationJson?).map Json.sortKeys)
        = .ok (t.annotations.map Range.toMark) := by
    rw [AnnotatedText.toStored, List.filterMap_map,
      readEach_filterMap (f := Mark.annotationJson? ∘ Range.toMark)
        fun r hr v hv => readNote_toMark (hwell r hr).1 hv]
    simp only [Function.comp_def, isSome_annotationJson?]
    rfl
  have hstyles : readEach readStyle
      ((t.toStored.marks.filterMap Mark.styleJson?).map Json.sortKeys)
        = .ok ((t.directives.filter Range.isStored).map Range.toMark) := by
    rw [AnnotatedText.toStored, List.filterMap_map,
      readEach_filterMap (f := Mark.styleJson? ∘ Range.toMark)
        fun r hr v hv => readStyle_toMark (hwell r hr).1 (hunit r hr) hv,
      AnnotatedText.directives, List.filter_filter]
    simp only [Function.comp_def, isSome_styleJson?]
  -- what is read again are ranges of the text, so they lie in it
  have hmake := MarkedText.make_toMark t.text t.restored.ranges fun r hr =>
    (hwell r (mem_restored hr)).2
  rw [AnnotatedText.restored, List.map_append] at hmake
  have hkeys := t.toStored.keys_members
  have htext := member_sortKeys hkeys .wrongKind (m := ("text", .str (String.ofList t.text)))
    (List.mem_cons_self ..)
  have hnotes := memberOr_sortKeys hkeys (.arr []) (m := ("annotations", _))
    (List.mem_cons_of_mem _ (List.mem_cons_self ..))
  have hlooks := memberOr_sortKeys hkeys (.arr []) (m := ("styles", _))
    (List.mem_cons_of_mem _ (List.mem_cons_of_mem _ (List.mem_cons_self ..)))
  show MarkedText.ofJson (Json.sortKeys (.obj t.toStored.members)) = _
  rw [ofJson, htext, hnotes, hlooks]
  simp only [Bind.bind, Except.bind, items_sortKeys_arr, hannotations, hstyles]
  rw [AnnotatedText.toStored, AnnotatedText.restored, List.map_append]
  exact hmake

/-! ## Images and ids -/

/-- Images are read back with their keys. -/
theorem readEach_readImage (images : List (String × ImageInfo)) :
    readEach readImage (images.map fun i => (i.1, i.2.toJson.sortKeys))
      = .ok (images.map fun i => (i.1, i.2.toJson)) :=
  readEach_eq fun i _ => ImageInfo.readImage_toJson i.1 i.2

/-- Ids are read back in their order. -/
theorem readEach_readId (ids : List Int) :
    readEach readId (ids.map Json.int) = .ok (ids.map Json.int) :=
  readEach_eq fun _ _ => rfl

theorem sameScalar_int (m n : Int) : sameScalar (.int m) (.int n) = decide (m = n) := by
  rw [Bool.eq_iff_iff, decide_eq_true_eq]
  simp only [sameScalar, number?, Number.compare?, beq_iff_eq, Option.some.injEq]
  exact Int.compare_eq_eq

/-- Increasing ids are distinct. -/
theorem distinct_int {ids : List Int} (h : ids.Pairwise (· < ·)) :
    distinct (ids.map Json.int) = ids.map Json.int := by
  -- the ids kept so far are below those to come
  have hkept : ∀ (kept ids : List Int), (kept ++ ids).Pairwise (· < ·) →
      (ids.map Json.int).foldl
        (fun kept id => if kept.any (sameScalar id) then kept else kept ++ [id])
        (kept.map Json.int) = (kept ++ ids).map Json.int := by
    intro kept ids
    induction ids generalizing kept with
    | nil =>
        intro _
        rw [List.append_nil, List.map_nil, List.foldl_nil]
    | cons id ids ih =>
        intro hpairs
        have hnew : ((kept.map Json.int).any (sameScalar (.int id))) = false := by
          refine List.any_eq_false.mpr fun v hv => ?_
          obtain ⟨n, hn, rfl⟩ := List.mem_map.mp hv
          have hlt := (List.pairwise_append.mp hpairs).2.2 n hn id (List.mem_cons_self ..)
          rw [sameScalar_int, decide_eq_true_eq]
          omega
        have hnext := ih (kept ++ [id]) (by rwa [List.append_assoc])
        rw [List.append_assoc, List.singleton_append, List.map_append] at hnext
        rw [List.map_cons, List.foldl_cons, hnew]
        exact hnext
  exact hkept [] ids h

/-- Increasing ids are in order. -/
theorem sortIds_int {ids : List Int} (h : ids.Pairwise (· < ·)) :
    sortIds (ids.map Json.int) = .ok (ids.map Json.int) := by
  have hsorted : Order.sort precedes (ids.map Json.int) = ids.map Json.int := by
    refine Order.sort_eq_self (List.pairwise_map.mpr (h.imp fun {m n} hlt => ?_))
    have hle : ¬ n < m := by omega
    simp only [precedes, number?, below_whole, hle, decide_false, Bool.not_false]
  match ids with
  | [] => rfl
  | [id] => rfl
  | id :: id' :: ids =>
      have hall : ((id' :: ids).map Json.int).all (isComparable (.int id)) = true := by
        refine List.all_eq_true.mpr fun v hv => ?_
        obtain ⟨n, -, rfl⟩ := List.mem_map.mp hv
        rfl
      show (if ((id' :: ids).map Json.int).all (isComparable (.int id)) then _ else _) = _
      rw [if_pos hall]
      exact congrArg Except.ok hsorted

/-! ## Documents -/

/-- The members of a stored body. -/
def Document.members (d : Document) : List (String × Json) :=
  [("text", d.text.toJson), ("inline_images", .obj d.images), ("expandable_items", .arr d.ids)]

theorem Document.keys_members (d : Document) : (d.members.map Prod.fst).Nodup :=
  show ["text", "inline_images", "expandable_items"].Nodup by decide

/-- Images are stored in the order of their keys. -/
theorem sortKeys_images (b : Body) :
    Json.sortKeys (.obj b.toDocument.images)
      = .obj (b.restored.images.map fun i => (i.1, i.2.toJson.sortKeys)) := by
  rw [Json.sortKeys_obj, Body.toDocument, List.map_map, Json.sortMembers, Order.sort_map]
  rfl

theorem sortKeys_ids (ids : List Int) : (ids.map Json.int).map Json.sortKeys = ids.map Json.int := by
  rw [List.map_map]
  rfl

/-- What is stored of a body is read as a body again. -/
theorem Document.ofJson_toDocument {b : Body} (h : b.IsLossless) :
    Document.ofJson b.toDocument.toJson.sortKeys = .ok b.restored.toDocument := by
  have hkeys := b.toDocument.keys_members
  have htext := member_sortKeys hkeys .wrongKind (m := ("text", b.text.toStored.toJson))
    (List.mem_cons_self ..)
  have himages := memberOr_sortKeys hkeys (.obj []) (m := ("inline_images", _))
    (List.mem_cons_of_mem _ (List.mem_cons_self ..))
  have hids := memberOr_sortKeys hkeys (.arr []) (m := ("expandable_items", _))
    (List.mem_cons_of_mem _ (List.mem_cons_of_mem _ (List.mem_cons_self ..)))
  have hwhole : Document.ofJson (Json.sortKeys (.obj b.toDocument.members))
      = Document.ofJson b.toDocument.toJson.sortKeys := rfl
  rw [← hwhole, ofJson, htext, himages, hids, sortKeys_images]
  have hread : readEach readImage (b.restored.images.map fun i => (i.1, i.2.toJson.sortKeys))
      = .ok b.restored.toDocument.images := readEach_readImage _
  simp only [Bind.bind, Except.bind, MarkedText.ofJson_toStored h.wellFormed h.unitless,
    imageMembers, hread, items_sortKeys_arr, Body.toDocument, sortKeys_ids, readEach_readId,
    distinct_int b.revealable.sorted, sortIds_int b.revealable.sorted]
  rfl

/-! ## Writing documents -/

section Writing

variable {r : Range}

theorem writableIn_annotationJson (hshort : ∀ n ∈ r.numbers, Text.IsShort n) {v : Json}
    (h : r.toMark.annotationJson? = some v) : WritableIn 5 v := by
  obtain ⟨hstart, hshort⟩ := List.forall_mem_cons.mp hshort
  obtain ⟨hstop, -⟩ := List.forall_mem_cons.mp hshort
  obtain ⟨item, start, stop⟩ := r
  cases item with
  | note tag payload =>
      cases h
      refine .obj (show ["tag", "payload", "start", "end"].Nodup by decide) ?_
      simp only [List.cons_append, List.nil_append, Mark.boundMembers, List.forall_mem_cons]
      exact ⟨.str _, .str _, .int hstart, .int hstop, List.forall_mem_nil _⟩
  | directive d => exact nomatch h

theorem writableIn_styleJson (hunit : r.IsUnitless) (hshort : ∀ n ∈ r.numbers, Text.IsShort n)
    {v : Json} (h : r.toMark.styleJson? = some v) : WritableIn 5 v := by
  obtain ⟨hstart, hshort⟩ := List.forall_mem_cons.mp hshort
  obtain ⟨hstop, hshort⟩ := List.forall_mem_cons.mp hshort
  obtain ⟨item, start, stop⟩ := r
  cases item with
  | note tag payload => exact nomatch h
  | directive d =>
      have hkind : d.kind ≠ .clickable := fun hkind => by
        simp [Mark.styleJson?, Range.toMark, hkind] at h
      simp only [Mark.styleJson?, Range.toMark, if_neg hkind] at h
      cases h
      refine .obj (show ["type", "value", "start", "end"].Nodup by decide) ?_
      simp only [List.cons_append, List.nil_append, Mark.boundMembers, List.forall_mem_cons]
      exact ⟨.str _, Directive.writableIn (hunit d rfl) hshort, .int hstart, .int hstop,
        List.forall_mem_nil _⟩

end Writing

/-- The stored form of a text can be written, and is not nested deeply. -/
theorem writableIn_toStored {t : AnnotatedText} (hunit : ∀ r ∈ t.ranges, r.IsUnitless)
    (hshort : ∀ r ∈ t.ranges, r.isStored = true → ∀ n ∈ r.numbers, Text.IsShort n) :
    WritableIn 7 t.toStored.toJson := by
  refine .obj t.toStored.keys_members ?_
  simp only [List.forall_mem_cons]
  refine ⟨.str _, .arr fun v hv => ?_, .arr fun v hv => ?_, List.forall_mem_nil _⟩
  · obtain ⟨m, hm, hv⟩ := List.mem_filterMap.mp hv
    obtain ⟨r, hr, rfl⟩ := List.mem_map.mp hm
    exact writableIn_annotationJson (hshort r hr (isStored_of_annotationJson? hv)) hv
  · obtain ⟨m, hm, hv⟩ := List.mem_filterMap.mp hv
    obtain ⟨r, hr, rfl⟩ := List.mem_map.mp hm
    exact writableIn_styleJson (hunit r hr) (hshort r hr (isStored_of_styleJson? hv)) hv

/-- A body that can be stored is written so that it can be read back. -/
theorem writableIn_toDocument {b : Body} (h : b.IsStorable) : WritableIn 8 b.toDocument.toJson := by
  refine .obj b.toDocument.keys_members ?_
  simp only [List.forall_mem_cons]
  refine ⟨writableIn_toStored h.unitless h.range_numbers_short, ?_, ?_, List.forall_mem_nil _⟩
  · have hkeys : b.toDocument.images.map Prod.fst = b.images.map Prod.fst := by
      rw [Body.toDocument, List.map_map]
      rfl
    refine (WritableIn.obj (hkeys ▸ h.keys_nodup) fun m hm => ?_ : WritableIn 2 _).mono (by decide)
    obtain ⟨i, hi, rfl⟩ := List.mem_map.mp hm
    exact ImageInfo.writableIn (h.image_numbers_short i hi)
  · refine .arr fun v hv => ?_
    obtain ⟨n, hn, rfl⟩ := List.mem_map.mp hv
    exact .int (h.ids_short n hn)

/-- A directive without lengths is never nested too deeply. -/
theorem isTooDeep_toMark {r : Range} (hunit : r.IsUnitless) : r.toMark.isTooDeep = false := by
  obtain ⟨item, start, stop⟩ := r
  cases item with
  | note tag payload => rfl
  | directive d =>
      have hnesting := Directive.nesting_toJson_le (hunit d rfl)
      show decide (nestingLimit < d.toJson.nesting) = false
      rw [decide_eq_false_iff_not, nestingLimit]
      omega

end Storage

/-! ## Storing what was read back -/

namespace Body

/-- What is written of a body without lengths depends on its JSON alone. -/
theorem write_eq {b : Body} (hunit : ∀ r ∈ b.text.ranges, r.IsUnitless) (indent : Option Int) :
    b.write indent = (Storage.layout indent).bind fun layout =>
      Storage.writeValue layout b.toDocument.toJson.sortKeys := by
  have hdeep : b.toDocument.text.marks.any Mark.isTooDeep = false := by
    refine List.any_eq_false.mpr fun m hm => ?_
    obtain ⟨r, hr, rfl⟩ := List.mem_map.mp hm
    rw [Storage.isTooDeep_toMark (hunit r hr)]
    exact Bool.false_ne_true
  rw [write, Document.write, Document.shallowJson, hdeep]
  cases Storage.layout indent <;> rfl

end Body

/-! ## Bodies of documents -/

theorem mapM_map_eq_some {α β γ : Type} {read : β → Option γ} {f : α → β} {g : α → γ} {xs : List α}
    (h : ∀ x ∈ xs, read (f x) = some (g x)) : (xs.map f).mapM read = some (xs.map g) := by
  induction xs with
  | nil => rfl
  | cons x xs ih =>
      obtain ⟨hx, hxs⟩ := List.forall_mem_cons.mp h
      rw [List.map_cons, List.mapM_cons, hx, ih hxs]
      rfl

theorem Range.range?_toMark (r : Range) : r.toMark.range? = some r := by
  obtain ⟨item, start, stop⟩ := r
  cases item <;> rfl

/-- A set is made again from the list of its elements. -/
theorem IdSet.ofList_toList (s : IdSet) : IdSet.ofList s.toList = s :=
  IdSet.eq_of_mem_iff fun _ => IdSet.mem_ofList

/-- The stored form of a body stands for it. -/
theorem Body.body?_toDocument (b : Body) : b.toDocument.body? = some b := by
  have htext : b.text.toStored.text? = some b.text := by
    have hranges : (b.text.ranges.map Range.toMark).mapM Mark.range? = some (b.text.ranges.map id) :=
      mapM_map_eq_some fun r _ => r.range?_toMark
    rw [MarkedText.text?, AnnotatedText.toStored]
    simp only [hranges, List.map_id, Option.map_some, String.toList_ofList]
  have himages : ∀ read : String × Json → Option (String × ImageInfo),
      (∀ i ∈ b.images, read (i.1, i.2.toJson) = some i) →
      b.toDocument.images.mapM read = some (b.images.map id) :=
    fun _ => mapM_map_eq_some
  have hids : b.toDocument.ids.mapM Json.int? = some (b.revealable.toList.map id) :=
    mapM_map_eq_some fun _ _ => rfl
  rw [Document.body?, show b.toDocument.text = b.text.toStored from rfl, htext, himages, hids]
  · show some (Body.mk b.text (b.images.map id) (.ofList (b.revealable.toList.map id))) = some b
    rw [List.map_id, List.map_id, IdSet.ofList_toList]
  · intro i _
    show (ImageInfo.ofJson? i.2.toJson).map (i.1, ·) = some i
    rw [ImageInfo.ofJson?_toJson]
    rfl

/-! ## Reading what was stored -/

namespace Body

variable {b : Body}

/-- With any indentation that there is room for, a body whose numbers have not too many
    digits is written and read back. -/
theorem IsStorable.read_restored (h : b.IsStorable) {indent : Option Int} {layout : Json.Layout}
    (hlayout : Storage.layout indent = .ok layout) :
    ∃ stored, b.write indent = .ok stored
      ∧ Document.read stored.toList = .ok b.restored.toDocument := by
  have hwritable := Storage.writableIn_toDocument h
  refine ⟨Json.write layout b.toDocument.toJson.sortKeys, ?_, ?_⟩
  · rw [write_eq h.unitless, hlayout]
    show Storage.writeValue layout _ = _
    rw [Storage.writeValue, if_pos hwritable.writable.sortKeys.isShort]
  · rw [Document.read, Json.write, String.toList_ofList, hwritable.parse_sortKeys (by decide)]
    exact Document.ofJson_toDocument h.toIsLossless

end Body

end MessageBody
