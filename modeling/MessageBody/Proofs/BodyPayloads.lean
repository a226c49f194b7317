import MessageBody.Proofs.Composition
import MessageBody.Proofs.Payloads
import MessageBody.Proofs.Styling

/-! # The payloads of message bodies

    The walk writes every payload in a form that its readers take: a link or a
    span as the object that is read back, a depth or an id as a number of 32
    bits.  What a details element hides carries the id of the element, and the
    body lists that id among those that can be revealed. -/

namespace MessageBody

open Formatter Fragment

/-- Numbers of 32 bits have few digits. -/
theorem digits_le_limit {n : Nat} (h : n < 4294967296) :
    (Nat.toDigits 10 n).length ≤ Text.TooManyDigits.limit := by
  have hfew : (Nat.toDigits 10 n).length ≤ 10 :=
    (Nat.length_toDigits_le_iff (by decide) (by decide)).mpr (by omega)
  exact Nat.le_trans hfew (by decide)

/-- A deep link is annotated with the payload that it is read back from. -/
theorem reads_deepLink (link : DeepLink) : Reads link.tag link.payload := by
  cases link with
  | user => exact ⟨_, DeepLink.ofPayload_payload _⟩
  | room => exact ⟨_, DeepLink.ofPayload_payload _⟩
  | message => exact ⟨_, DeepLink.ofPayload_payload _⟩

/-- A payload that is a small number is read back. -/
theorem wholeNumber_payloadOf {n : Nat} (h : n < 2147483648) :
    Text.wholeNumber (payloadOf n).toList = .ok (some (n : Int)) :=
  Text.wholeNumber_toString h

/-- Different numbers have different payloads. -/
theorem payloadOf_injective {m n : Nat} (h : payloadOf m = payloadOf n) : m = n := by
  have hdigits : Nat.toDigits 10 m = Nat.toDigits 10 n := by
    rw [← Text.toList_toString, ← Text.toList_toString]
    exact congrArg String.toList h
  rw [← Text.ofDigits_toDigits m, hdigits, Text.ofDigits_toDigits]

/-- The colours of a span are numbers of 32 bits, so its position alone can have
    too many digits. -/
theorem spanAttributes_hasReadableNumbers (look : SpanLook) {p : Nat}
    (h : (Nat.toDigits 10 p).length ≤ Text.TooManyDigits.limit) :
    (spanAttributes look p).HasReadableNumbers := by
  have hcolor : ∀ color : Int, Color.Fits color →
      (Nat.toDigits 10 color.natAbs).length ≤ Text.TooManyDigits.limit := by
    intro color hfits
    obtain ⟨hlow, hhigh⟩ := hfits
    exact digits_le_limit (by omega)
  intro n hn
  rcases List.mem_cons.mp hn with rfl | hn
  · show (Nat.toDigits 10 (p : Int).natAbs).length ≤ _
    rw [Int.natAbs_natCast]
    exact h
  · rcases List.mem_append.mp hn with hn | hn
    · exact hcolor n (look.foreground_fits n (Option.mem_toList.mp hn))
    · exact hcolor n (look.background_fits n (Option.mem_toList.mp hn))

/-! ## The items of a text -/

section Items

variable {P Q : Item → Prop} {t u : AnnotatedText}

/-- Every item of the text satisfies `P`. -/
def AnnotatedText.ItemsSatisfy (P : Item → Prop) (t : AnnotatedText) : Prop :=
  ∀ r ∈ t.ranges, P r.item

theorem itemsSatisfy_plain (s : List Char) : (AnnotatedText.plain s).ItemsSatisfy P :=
  fun _ hr => nomatch hr

/-- Items stay what they are when texts are put together. -/
theorem itemsSatisfy_append (ht : t.ItemsSatisfy P) (hu : u.ItemsSatisfy P) :
    (t ++ u).ItemsSatisfy P := by
  intro r hr
  rcases List.mem_append.mp hr with hr | hr
  · exact ht r hr
  · obtain ⟨s, hs, rfl⟩ := List.mem_map.mp hr
    exact hu s hs

/-- An item that is put around a text comes to its items. -/
theorem itemsSatisfy_marked {item : Item} (hitem : P item) (ht : t.ItemsSatisfy P) :
    (t.marked item).ItemsSatisfy P := by
  intro r hr
  rcases List.mem_cons.mp hr with rfl | hr
  · exact hitem
  · exact ht r hr

/-- A weaker property holds of the items as well. -/
theorem AnnotatedText.ItemsSatisfy.imp (ht : t.ItemsSatisfy P) (h : ∀ item, P item → Q item) :
    t.ItemsSatisfy Q :=
  fun r hr => h r.item (ht r hr)

/-- The items of what is hidden are those of the content and that of the details. -/
theorem itemsSatisfy_hidden {o : Nat} (hitem : P (.note .detailsContent (payloadOf o)))
    {f? : Option Fragment} (h : ∀ f, f? = some f → f.text.ItemsSatisfy P) :
    (hidden o f?).text.ItemsSatisfy P := by
  cases f? with
  | none => exact itemsSatisfy_plain []
  | some f => exact itemsSatisfy_marked hitem (h f rfl)

/-- The items of a details element are those of its parts and the two of its own. -/
theorem itemsSatisfy_asDetails {o : Nat} {before after : Option Fragment} {label : Fragment}
    (hcontent : P (.note .detailsContent (payloadOf o)))
    (hsummary : P (.note .detailsSummary (payloadOf o)))
    (hbefore : ∀ f, before = some f → f.text.ItemsSatisfy P) (hlabel : label.text.ItemsSatisfy P)
    (hafter : ∀ f, after = some f → f.text.ItemsSatisfy P) :
    (asDetails o before label after).text.ItemsSatisfy P :=
  itemsSatisfy_append
    (itemsSatisfy_append (itemsSatisfy_hidden hcontent hbefore)
      (itemsSatisfy_marked hsummary hlabel))
    (itemsSatisfy_hidden hcontent hafter)

end Items

namespace Fragment

theorem length_hidden (o : Nat) (f : Fragment) :
    (hidden o (some f)).text.length = f.text.length := rfl

/-- The parts of a details element are as long as their texts. -/
theorem length_asDetails (o : Nat) (before after : Option Fragment) (label : Fragment) :
    (asDetails o before label after).text.length
      = (hidden o before).text.length + label.text.length + (hidden o after).text.length := by
  show (((hidden o before).text ++ _) ++ (hidden o after).text).length = _
  rw [AnnotatedText.length_append, AnnotatedText.length_append]
  rfl

end Fragment

/-- The items that the walk makes satisfy `P`, where depths are at most `limit` and
    positions at most `bound`. -/
structure Item.HoldOfWalk (P : Item → Prop) (limit bound : Nat) : Prop where
  encloses : ∀ item : Item, item.Encloses limit → P item
  link : ∀ address, P (linkItem address)
  image : ∀ key, P (.note .inlineImage key)
  span : ∀ (look : SpanLook) (p : Nat), p ≤ bound → P (.note .span (spanAttributes look p).payload)
  content : ∀ p ≤ bound, P (.note .detailsContent (payloadOf p))
  summary : ∀ p ≤ bound, P (.note .detailsSummary (payloadOf p))

/-- What holds of the items that the walk makes holds of all items of a text that
    ends at position `bound` or before. -/
theorem Fragment.Composed.itemsSatisfy {P : Item → Prop} {style : RenderStyle} {limit bound o : Nat}
    {f : Fragment} (h : Composed style limit o f) (hP : Item.HoldOfWalk P limit bound)
    (hbound : o + f.text.length ≤ bound) : f.text.ItemsSatisfy P := by
  induction h with
  | chars s => exact itemsSatisfy_plain s
  | linked s =>
      intro r hr
      obtain ⟨o, -, rfl⟩ := exists_of_mem_linkedText hr
      exact hP.link _
  | image info => exact itemsSatisfy_marked (hP.image _) (itemsSatisfy_plain _)
  | @append o f g _ _ hf hg =>
      have hsum : (f ++ g).text.length = f.text.length + g.text.length :=
        AnnotatedText.length_append ..
      exact itemsSatisfy_append (hf (by omega)) (hg (by omega))
  | marked hitem _ hf => exact itemsSatisfy_marked (hP.encloses _ hitem) (hf hbound)
  | @span o f look _ hf =>
      exact itemsSatisfy_marked (hP.span look o (Nat.le_trans (Nat.le_add_right ..) hbound))
        (hf hbound)
  | @details o before after label summary hlabel _ _ _ hbefore hsummary hafter =>
      -- the id is the position of the element, which is in the text
      have hid : o ≤ bound := Nat.le_trans (Nat.le_add_right ..) hbound
      have hsum := length_asDetails o before after label
      have hshown : label.text.length
          = style.summaryPlaceholder.toList.length + summary.text.length := by
        rw [hlabel]
        exact AnnotatedText.length_append ..
      refine itemsSatisfy_asDetails (hP.content o hid) (hP.summary o hid) ?_ ?_ ?_
      · intro f hf
        subst hf
        rw [length_hidden] at hsum
        exact hbefore f rfl (by omega)
      · rw [hlabel]
        exact itemsSatisfy_append (itemsSatisfy_plain _) (hsummary (by omega))
      · intro f hf
        subst hf
        rw [length_hidden] at hsum
        exact hafter f rfl (by omega)

/-! ## Every payload reads -/

/-- An item whose payload, if it has one, reads. -/
def Item.Reads (item : Item) : Prop :=
  ∀ tag payload, item = .note tag payload → Formatter.Reads tag payload

/-- A directive has no payload that could fail to be read. -/
theorem reads_directive (d : Directive) : (Item.directive d).Reads :=
  fun _ _ h => nomatch h

/-- An annotation is read if its payload is. -/
theorem reads_note {tag : Tag} {payload : String} (h : Formatter.Reads tag payload) :
    (Item.note tag payload).Reads := by
  intro tag' payload' heq
  cases heq
  exact h

/-- The payload of a link is read, whether it is a deep link or an address. -/
theorem reads_linkItem (address : List Char) : (linkItem address).Reads := by
  rw [linkItem]
  split
  · exact reads_note (reads_deepLink _)
  · exact reads_note trivial

/-- An item that the walk puts around content has a payload that reads. -/
theorem Item.Encloses.reads {limit : Nat} {item : Item} (h : item.Encloses limit)
    (hlimit : limit < 2147483648) : item.Reads := by
  cases h with
  | emphasis => exact reads_directive _
  | bare tag htag =>
      refine reads_note ?_
      simp only [List.mem_cons, List.not_mem_nil, or_false] at htag
      rcases htag with rfl | rfl | rfl | rfl <;> exact trivial
  | webLink => exact reads_note trivial
  | deepLink link => exact reads_note (reads_deepLink link)
  | heading => exact reads_note trivial
  | counted tag htag depth hdepth =>
      have hread := wholeNumber_payloadOf (Nat.lt_of_le_of_lt hdepth hlimit)
      refine reads_note ?_
      simp only [List.mem_cons, List.not_mem_nil, or_false] at htag
      rcases htag with rfl | rfl | rfl | rfl | rfl <;> exact ⟨_, hread⟩

namespace Fragment

/-- In a text whose length is a number of 31 bits every payload reads. -/
theorem Composed.reads {style : RenderStyle} {limit o : Nat} {f : Fragment}
    (h : Composed style limit o f) (hlimit : limit < 2147483648)
    (hlength : o + f.text.length < 2147483648) :
    f.text.ItemsSatisfy Item.Reads := by
  refine h.itemsSatisfy ⟨fun _ hitem => hitem.reads hlimit, reads_linkItem,
    fun _ => reads_note trivial, fun look p hp => ?_, fun p hp => ?_, fun p hp => ?_⟩
    (Nat.le_refl _)
  · have hnumbers := spanAttributes_hasReadableNumbers look
      (digits_le_limit (show p < 4294967296 by omega))
    exact reads_note ⟨_, SpanAttributes.ofPayload_payload hnumbers⟩
  · exact reads_note ⟨_, wholeNumber_payloadOf (by omega)⟩
  · exact reads_note ⟨_, wholeNumber_payloadOf (by omega)⟩

end Fragment

/-! ## Directives -/

/-- If an item is a directive, then one of plain emphasis. -/
def Item.OnlyEmphasizes (item : Item) : Prop :=
  ∀ d, item = .directive d → ∃ e : Emphasis, d = .run e.style

/-- An annotation is no emphasis. -/
theorem onlyEmphasizes_note {tag : Tag} {payload : String} :
    (Item.note tag payload).OnlyEmphasizes :=
  fun _ h => nomatch h

theorem onlyEmphasizes_linkItem (address : List Char) : (linkItem address).OnlyEmphasizes := by
  rw [linkItem]
  split <;> exact onlyEmphasizes_note

/-- The items that content encloses its text with are annotations and emphases. -/
theorem Item.Encloses.onlyEmphasizes {limit : Nat} {item : Item} (h : item.Encloses limit) :
    item.OnlyEmphasizes := by
  cases h with
  | emphasis e =>
      rintro d ⟨⟩
      exact ⟨e, rfl⟩
  | bare | webLink | deepLink | heading | counted => exact onlyEmphasizes_note

/-- The walk makes no directive but those of plain emphasis. -/
theorem Fragment.Composed.onlyEmphasizes {style : RenderStyle} {limit o : Nat} {f : Fragment}
    (h : Composed style limit o f) : f.text.ItemsSatisfy Item.OnlyEmphasizes :=
  h.itemsSatisfy ⟨fun _ hitem => hitem.onlyEmphasizes, onlyEmphasizes_linkItem,
    fun _ => onlyEmphasizes_note, fun _ _ _ => onlyEmphasizes_note, fun _ _ => onlyEmphasizes_note,
    fun _ _ => onlyEmphasizes_note⟩ (Nat.le_refl _)

/-! ## Annotations with a key -/

/-- The kinds of annotation whose payload is a key: it identifies an element of the
    document or an image. -/
def Tag.isKeyed : Tag → Bool
  | .span | .detailsSummary | .detailsContent | .inlineImage => true
  | _ => false

/-- Whether an item is an annotation with a key. -/
def Item.isKeyed (item : Item) : Bool :=
  item.tag?.any Tag.isKeyed

/-- What the walk puts around content without asking where it stands has no
    key. -/
theorem Item.Encloses.isKeyed_eq {limit : Nat} {item : Item} (h : item.Encloses limit) :
    item.isKeyed = false := by
  cases h with
  | emphasis => rfl
  | bare tag htag =>
      simp only [List.mem_cons, List.not_mem_nil, or_false] at htag
      rcases htag with rfl | rfl | rfl | rfl <;> rfl
  | webLink => rfl
  | deepLink link => cases link <;> rfl
  | heading => rfl
  | counted tag htag =>
      simp only [List.mem_cons, List.not_mem_nil, or_false] at htag
      rcases htag with rfl | rfl | rfl | rfl | rfl <;> rfl

theorem isKeyed_linkItem (address : List Char) : (linkItem address).isKeyed = false := by
  rw [linkItem]
  split
  · rename_i link _
    cases link <;> rfl
  · rfl

/-- No range of linked text is told by a number. -/
theorem not_isKeyed_of_mem_linkedText {autoLink : Bool} {s : List Char} {r : Range}
    (hr : r ∈ (linkedText autoLink s).ranges) : r.item.isKeyed = false := by
  obtain ⟨o, -, rfl⟩ := exists_of_mem_linkedText hr
  exact isKeyed_linkItem _

/-- An item that is told by no number has none of the tags that are. -/
theorem Item.tag?_ne_of_not_isKeyed {item : Item} {tag : Tag} (h : item.isKeyed = false)
    (htag : tag.isKeyed = true) : item.tag? ≠ some tag := by
  intro heq
  rw [Item.isKeyed, heq, Option.any_some, htag] at h
  exact absurd h (by decide)

/-! ## What can be revealed -/

/-- If an item marks hidden content, then its payload is one of the ids, which is
    no greater than `bound`. -/
def Item.RevealedBy (ids : List Nat) (bound : Nat) (item : Item) : Prop :=
  ∀ payload, item = .note .detailsContent payload →
    ∃ id ∈ ids, id ≤ bound ∧ payload = payloadOf id

/-- More ids and a later bound reveal as much. -/
theorem Item.RevealedBy.mono {ids ids' : List Nat} {bound bound' : Nat} (hids : ids ⊆ ids')
    (hbound : bound ≤ bound') {item : Item} (h : item.RevealedBy ids bound) :
    item.RevealedBy ids' bound' := by
  intro payload hitem
  obtain ⟨id, hid, hle, hpayload⟩ := h payload hitem
  exact ⟨id, hids hid, Nat.le_trans hle hbound, hpayload⟩

/-- Only hidden content has to be revealed. -/
theorem revealedBy_of_tag_ne {ids : List Nat} {bound : Nat} {item : Item}
    (h : item.tag? ≠ some .detailsContent) : item.RevealedBy ids bound := by
  rintro payload rfl
  exact absurd rfl h

/-- What is told by no number does not have to be revealed. -/
theorem revealedBy_of_not_isKeyed {ids : List Nat} {bound : Nat} {item : Item}
    (h : item.isKeyed = false) : item.RevealedBy ids bound :=
  revealedBy_of_tag_ne (Item.tag?_ne_of_not_isKeyed h rfl)

namespace Fragment

/-- The ids of what is hidden are listed, and are positions in the text. -/
theorem Composed.revealed {style : RenderStyle} {limit o : Nat} {f : Fragment}
    (h : Composed style limit o f) :
    f.text.ItemsSatisfy (Item.RevealedBy f.reveals (o + f.text.length)) := by
  induction h with
  | chars s => exact itemsSatisfy_plain s
  | linked s =>
      intro r hr
      exact revealedBy_of_not_isKeyed (not_isKeyed_of_mem_linkedText hr)
  | image info => exact itemsSatisfy_marked (revealedBy_of_tag_ne nofun) (itemsSatisfy_plain _)
  | @append o f g _ _ hf hg =>
      have hsum : (f ++ g).text.length = f.text.length + g.text.length :=
        AnnotatedText.length_append ..
      exact itemsSatisfy_append
        (hf.imp fun _ => Item.RevealedBy.mono (List.subset_append_left ..) (by omega))
        (hg.imp fun _ => Item.RevealedBy.mono (List.subset_append_right ..) (by omega))
  | marked hitem _ hf => exact itemsSatisfy_marked (revealedBy_of_not_isKeyed hitem.isKeyed_eq) hf
  | span look _ hf =>
      exact itemsSatisfy_marked (revealedBy_of_tag_ne nofun)
        (hf.imp fun _ => Item.RevealedBy.mono (List.subset_append_right ..) (Nat.le_refl _))
  | @details o before after label summary hlabel _ _ _ hbefore hsummary hafter =>
      have hsum := length_asDetails o before after label
      have hshown : label.text.length
          = style.summaryPlaceholder.toList.length + summary.text.length := by
        rw [hlabel]
        exact AnnotatedText.length_append ..
      refine itemsSatisfy_asDetails ?_ (revealedBy_of_tag_ne nofun) ?_ ?_ ?_
      · -- the element lists its own id in front
        rintro payload ⟨⟩
        exact ⟨o, List.mem_cons_self .., Nat.le_add_right .., rfl⟩
      · intro f hf
        subst hf
        rw [length_hidden] at hsum
        refine (hbefore f rfl).imp fun _ => Item.RevealedBy.mono ?_ (by omega)
        intro id hid
        exact List.mem_cons_of_mem _ (List.mem_append_left _ (List.mem_append_left _ hid))
      · have htext : label.text = .plain style.summaryPlaceholder.toList ++ summary.text := by
          rw [hlabel]
          rfl
        rw [htext]
        refine itemsSatisfy_append (itemsSatisfy_plain _)
          (hsummary.imp fun _ => Item.RevealedBy.mono ?_ (by omega))
        intro id hid
        have hmem : id ∈ label.reveals := by
          rw [hlabel]
          exact hid
        exact List.mem_cons_of_mem _ (List.mem_append_left _ (List.mem_append_right _ hmem))
      · intro f hf
        subst hf
        rw [length_hidden] at hsum
        refine (hafter f rfl).imp fun _ => Item.RevealedBy.mono ?_ (by omega)
        intro id hid
        exact List.mem_cons_of_mem _ (List.mem_append_right _ hid)

end Fragment

end MessageBody
