import Mathlib.Algebra.Order.Ring.Nat
import Mathlib.Data.List.Induction
import MessageBody.Proofs.Payloads

/-! # Payloads there and back

    A link and the attributes of a span are read back from their payloads.  The other way
    round a payload may lay out, order and escape its members as it likes; what is read
    from it and written again is the payload in its settled form, which stays the same
    from then on.  For spans this needs that the reader lets no number through that has too
    many digits to be written and read again. -/

namespace MessageBody

open Json

namespace Json

/-! ## Numbers that are read -/

/-- A value whose numbers have not too many digits to be read. -/
inductive Readable : Json → Prop
  | null : Readable .null
  | bool (b : Bool) : Readable (.bool b)
  | int (n : Int) (h : (Nat.toDigits 10 n.natAbs).length ≤ Text.TooManyDigits.limit) :
      Readable (.int n)
  | float (x : Float) : Readable (.float x)
  | str (s : String) : Readable (.str s)
  | arr (items : List Json) (h : ∀ v ∈ items, Readable v) : Readable (.arr items)
  | obj (members : List (String × Json)) (h : ∀ m ∈ members, Readable m.2) :
      Readable (.obj members)

/-- A number is less than the power of ten that has a zero for each of its digits. -/
theorem ofDigits_lt {ds : List Nat} (h : ∀ d ∈ ds, d < 10) :
    Text.ofDigits ds < 10 ^ ds.length := by
  induction ds using List.reverseRecOn with
  | nil => exact Nat.one_pos
  | append_singleton ds d ih =>
      have hd := h d (by simp)
      have hds := ih fun d' hd' => h d' (List.mem_append_left _ hd')
      rw [Text.ofDigits, List.foldl_append, List.length_append, List.length_singleton, Nat.pow_succ]
      show 10 * Text.ofDigits ds + d < _
      omega

/-- Digits write a number below the power of ten for their count. -/
theorem digitsValue_lt {ds : List Char} (h : ∀ c ∈ ds, isAsciiDigit c = true) :
    digitsValue ds < 10 ^ ds.length := by
  have hvalues : ∀ d ∈ ds.map fun c => c.toNat - 48, d < 10 := by
    intro d hd
    obtain ⟨c, hc, rfl⟩ := List.mem_map.mp hd
    have hdigit := h c hc
    simp only [isAsciiDigit, Bool.and_eq_true, decide_eq_true_eq, Char.le_def,
      UInt32.le_iff_toNat_le] at hdigit
    have : c.toNat ≤ 57 := hdigit.2
    omega
  have hlt := ofDigits_lt hvalues
  rwa [List.length_map] at hlt

/-- A sign does not change the magnitude. -/
theorem natAbs_signed (negative : Bool) (n : Nat) : (Text.signed negative n).natAbs = n := by
  cases negative <;> simp [Text.signed]

/-- A number of few digits can be read. -/
theorem readable_of_digits {ds : List Char} (negative : Bool)
    (h : ∀ c ∈ ds, isAsciiDigit c = true) (hlength : ds.length ≤ Text.TooManyDigits.limit) :
    Readable (.int (Text.signed negative (digitsValue ds))) := by
  refine .int _ ?_
  rw [natAbs_signed, Nat.length_toDigits_le_iff (by decide) (by decide)]
  exact Nat.lt_of_lt_of_le (digitsValue_lt h) (Nat.pow_le_pow_right (by decide) hlength)

/-- What is taken as digits is in ASCII. -/
theorem isAsciiDigit_of_mem_digitsAt {s : List Char} {c : Char} (h : c ∈ (digitsAt s).1) :
    isAsciiDigit c = true := by
  rw [digitsAt.eq_def] at h
  split at h
  · cases List.mem_singleton.mp h
    rfl
  · exact List.all_eq_true.mp List.all_takeWhile c h

/-! ## Values that are read -/

section Reading

variable {s rest : List Char} {v : Json}

/-- A number that was read can be read again. -/
theorem readable_of_numberAt {negative : Bool} (h : numberAt negative s = .ok (v, rest)) :
    Readable v := by
  rw [numberAt] at h
  dsimp only at h
  split at h
  · cases h
  · split at h
    · split at h
      · cases h
      · rename_i hlimit
        cases h
        exact readable_of_digits negative (fun c hc => isAsciiDigit_of_mem_digitsAt hc)
          (Nat.le_of_not_lt hlimit)
    · cases h
      exact .float _

/-- A scalar that was read can be read again. -/
theorem readable_of_scalarAt (h : scalarAt s = .ok (v, rest)) : Readable v := by
  rw [scalarAt.eq_def] at h
  split at h
  · rename_i name value hname
    cases h
    have hmem := List.mem_of_find?_eq_some hname
    simp only [names, List.mem_cons, List.not_mem_nil, or_false, Prod.mk.injEq] at hmem
    rcases hmem with ⟨-, rfl⟩ | ⟨-, rfl⟩ | ⟨-, rfl⟩ | ⟨-, rfl⟩ | ⟨-, rfl⟩ | ⟨-, rfl⟩
    · exact .null
    · exact .bool _
    · exact .bool _
    · exact .float _
    · exact .float _
    · exact .float _
  · split at h
    · split at h
      · cases h
        exact .str _
      · cases h
    · exact readable_of_numberAt h
    · exact readable_of_numberAt h

/-- Setting a member brings no other one. -/
theorem mem_setMember {key : String} {value : Json} {members : List (String × Json)}
    {m : String × Json} (h : m ∈ setMember key value members) : m = (key, value) ∨ m ∈ members := by
  induction members with
  | nil => exact .inl (List.mem_singleton.mp h)
  | cons member members ih =>
      obtain ⟨k, v⟩ := member
      rw [setMember] at h
      split at h
      · rcases List.mem_cons.mp h with h | h
        · exact .inl h
        · exact .inr (List.mem_cons_of_mem _ h)
      · rcases List.mem_cons.mp h with rfl | h
        · exact .inr List.mem_cons_self
        · exact (ih h).imp_right (List.mem_cons_of_mem _)

/-- Setting a member to what can be read keeps the members readable. -/
theorem readable_setMember (key : String) {value : Json} {members : List (String × Json)}
    (h : ∀ m ∈ members, Readable m.2) (hvalue : Readable value) :
    ∀ m ∈ setMember key value members, Readable m.2 := by
  intro m hm
  rcases mem_setMember hm with rfl | hm
  · exact hvalue
  · exact h m hm

/-- What is read with this much fuel is readable, if what came before in its list or object
    is. -/
structure YieldsReadable (fuel : Nat) : Prop where
  value : ∀ {depth : Nat} {s rest : List Char} {v : Json}, valueAt fuel depth s = .ok (v, rest) →
    Readable v
  items : ∀ {depth : Nat} {items : List Json} {s rest : List Char} {v : Json},
    (∀ item ∈ items, Readable item) → itemsFrom fuel depth items s = .ok (v, rest) → Readable v
  members : ∀ {depth : Nat} {members : List (String × Json)} {s rest : List Char} {v : Json},
    (∀ m ∈ members, Readable m.2) → membersFrom fuel depth members s = .ok (v, rest) → Readable v

namespace YieldsReadable

variable {fuel depth : Nat}

theorem valueAt_succ (hfuel : YieldsReadable fuel)
    (h : valueAt (fuel + 1) depth s = .ok (v, rest)) : Readable v := by
  rw [valueAt.eq_def] at h
  dsimp only at h
  -- lists and objects are read with less fuel, and everything else is a scalar
  split at h
  · split at h
    · cases h
    · split at h
      · cases h
        exact .arr _ (List.forall_mem_nil _)
      · exact hfuel.items (List.forall_mem_nil _) h
  · split at h
    · cases h
    · split at h
      · cases h
        exact .obj _ (List.forall_mem_nil _)
      · exact hfuel.members (List.forall_mem_nil _) h
  · exact readable_of_scalarAt h

theorem itemsFrom_succ (hfuel : YieldsReadable fuel) {items : List Json}
    (hitems : ∀ item ∈ items, Readable item)
    (h : itemsFrom (fuel + 1) depth items s = .ok (v, rest)) : Readable v := by
  rw [itemsFrom] at h
  split at h
  · cases h
  · rename_i hitem
    have hcons := List.forall_mem_cons.mpr ⟨hfuel.value hitem, hitems⟩
    split at h
    · cases h
      exact .arr _ fun v hv => hcons v (List.mem_reverse.mp hv)
    · exact hfuel.items hcons h
    · cases h

theorem membersFrom_succ (hfuel : YieldsReadable fuel) {members : List (String × Json)}
    (hmembers : ∀ m ∈ members, Readable m.2)
    (h : membersFrom (fuel + 1) depth members s = .ok (v, rest)) : Readable v := by
  rw [membersFrom] at h
  split at h
  · cases h
  · split at h
    · cases h
    · rename_i hvalue
      have hset := fun key => readable_setMember key hmembers (hfuel.value hvalue)
      dsimp only at h
      split at h
      · cases h
        exact .obj _ (hset _)
      · exact hfuel.members (hset _) h
      · cases h

end YieldsReadable

/-- Whatever was read can be read again, by induction on the fuel. -/
theorem yieldsReadable (fuel : Nat) : YieldsReadable fuel := by
  induction fuel with
  | zero => exact ⟨nofun, nofun, nofun⟩
  | succ fuel ih => exact ⟨ih.valueAt_succ, ih.itemsFrom_succ, ih.membersFrom_succ⟩

/-- No number that is read has too many digits. -/
theorem readable_of_parse (h : parse s = .ok v) : Readable v := by
  rw [parse] at h
  split at h
  · cases h
  · rename_i hvalue
    split at h
    · cases h
      exact (yieldsReadable _).value hvalue
    · cases h

end Reading

/-- A member of what can be read can be read. -/
theorem Readable.of_member? {members : List (String × Json)} (h : Readable (.obj members))
    {key : String} {v : Json} (hmember : member? key members = some v) : Readable v := by
  cases h with
  | obj _ h =>
      obtain ⟨before, after, rfl, -⟩ := List.lookup_eq_some_iff.mp hmember
      exact h (key, v) (by simp)

end Json

/-- An object is read from a payload if the text of the payload is one. -/
theorem readObject_eq_ok {kind : PayloadKind} {payload : String} {members : List (String × Json)}
    (h : readObject kind payload = .ok members) : parse payload.toList = .ok (.obj members) := by
  rw [readObject] at h
  split at h
  · cases h
  · cases h
  · cases h
    assumption
  · cases h

/-- The payload that is written for the link of a payload. -/
def DeepLink.settled (payload : String) : Except PayloadError String :=
  (DeepLink.ofPayload payload).map DeepLink.payload

namespace SpanAttributes

/-- The payload that is written for the attributes of a payload. -/
def settled (payload : String) : Except PayloadError String :=
  (ofPayload payload).map SpanAttributes.payload

/-- A colour that was read can be read again. -/
theorem readable_of_colorMember? {members : List (String × Json)} (h : Readable (.obj members))
    {key : String} {isThere : Bool} {color : Option Int}
    (hcolor : colorMember? key members = some (isThere, color)) {n : Int} (hn : n ∈ color) :
    Readable (.int n) := by
  cases hn
  rw [colorMember?] at hcolor
  split at hcolor
  · cases hcolor
  · cases hcolor
  · cases hcolor
    exact h.of_member? ‹_›
  · cases hcolor

/-- Attributes that are read have numbers that can be read again. -/
theorem hasReadableNumbers_of_ofPayload {payload : String} {a : SpanAttributes}
    (h : ofPayload payload = .ok a) : a.HasReadableNumbers := by
  rw [ofPayload] at h
  cases hmembers : readObject .span payload with
  | error e =>
      rw [hmembers] at h
      cases h
  | ok members =>
      have hreadable := readable_of_parse (readObject_eq_ok hmembers)
      rw [hmembers] at h
      simp only [bind, Except.bind] at h
      split at h
      · rename_i hforeground hbackground _ hid
        split at h
        · cases h
        · split at h
          · cases h
          · cases h
            intro n hn
            -- each number that is found was read as the member of an object
            have hint : Readable (.int n) := by
              rcases List.mem_cons.mp hn with rfl | hn
              · exact hreadable.of_member? hid
              · rcases List.mem_append.mp hn with hn | hn
                · exact readable_of_colorMember? hreadable hforeground (Option.mem_toList.mp hn)
                · exact readable_of_colorMember? hreadable hbackground (Option.mem_toList.mp hn)
            cases hint with
            | int _ h => exact h
      · cases h

end SpanAttributes

/-- Writing what is read is settled after one time, if what is written is read back. -/
theorem map_settled {α : Type} {read : String → Except PayloadError α} {write : α → String}
    (hread : ∀ payload x, read payload = .ok x → read (write x) = .ok x) {payload written : String}
    (h : (read payload).map write = .ok written) : (read written).map write = .ok written := by
  cases hx : read payload with
  | error e =>
      rw [hx] at h
      cases h
  | ok x =>
      rw [hx] at h
      cases h
      rw [hread payload x hx]
      rfl

/-- **Payloads there and back**: every link is read back from its payload, and so are the
    attributes of every span whose numbers have not too many digits.  So to read a payload
    and write it again changes nothing more when it is done once more. -/
theorem payloads_roundTrip :
    (∀ link : DeepLink, DeepLink.ofPayload link.payload = .ok link)
    ∧ (∀ a : SpanAttributes, a.HasReadableNumbers → SpanAttributes.ofPayload a.payload = .ok a)
    ∧ (∀ payload written, DeepLink.settled payload = .ok written →
      DeepLink.settled written = .ok written)
    ∧ ∀ payload written, SpanAttributes.settled payload = .ok written →
      SpanAttributes.settled written = .ok written :=
  ⟨DeepLink.ofPayload_payload, fun _ => SpanAttributes.ofPayload_payload,
    fun _ _ => map_settled fun _ link _ => DeepLink.ofPayload_payload link,
    fun _ _ => map_settled fun _ _ h =>
      SpanAttributes.ofPayload_payload (SpanAttributes.hasReadableNumbers_of_ofPayload h)⟩

/-- The attributes of a coloured spoiler. -/
def blueSpoiler : SpanAttributes := ⟨some 255, none, true, -7⟩

/-- Their payload with the members in another order. -/
def looseSpan : String :=
  "\x7b \"reveal_id\":-7, \"bg_color\": null,\"is_spoiler\" : true, \"fg_color\": 255\x7d"

/-- A link whose server and address have characters that are written with escapes. -/
def escapedLink : DeepLink := .room "!r" ["é"] "\x00😀"

/-- Its payload with the members in another order and the server as it stands. -/
def looseLink : String :=
  "\x7b\"raw_url\":\"\\u0000\\ud83d\\ude00\", \"type\":\"room_link\", \"via\": [\"é\"], " ++
    "\"room_id\":\"!r\"\x7d"

/-- A result that is there is that of a success. -/
theorem eq_ok_of_toOption {ε α : Type} {x : Except ε α} {y : α} (h : x.toOption = some y) :
    x = .ok y := by
  cases x with
  | error e => cases h
  | ok x => exact congrArg Except.ok (Option.some.inj h)

/-- The loose payload of the link settles as its payload. -/
theorem settled_looseLink : DeepLink.settled looseLink = .ok escapedLink.payload :=
  eq_ok_of_toOption (by decide +kernel)

/-- The loose payload of the spoiler settles as its payload. -/
theorem settled_looseSpan : SpanAttributes.settled looseSpan = .ok blueSpoiler.payload :=
  eq_ok_of_toOption (by decide +kernel)

/-- Payloads that are laid out in another way are settled after one time. -/
theorem payloads_roundTrip_of_loose :
    SpanAttributes.ofPayload blueSpoiler.payload = .ok blueSpoiler
      ∧ (DeepLink.settled looseLink = .ok escapedLink.payload
        ∧ looseLink ≠ escapedLink.payload
        ∧ DeepLink.settled escapedLink.payload = .ok escapedLink.payload)
      ∧ SpanAttributes.settled looseSpan = .ok blueSpoiler.payload
        ∧ looseSpan ≠ blueSpoiler.payload
        ∧ SpanAttributes.settled blueSpoiler.payload = .ok blueSpoiler.payload := by
  obtain ⟨-, hspan, hlinks, hspans⟩ := payloads_roundTrip
  refine ⟨hspan blueSpoiler ?_,
    ⟨settled_looseLink, by decide +kernel, hlinks _ _ settled_looseLink⟩,
    settled_looseSpan, by decide +kernel, hspans _ _ settled_looseSpan⟩
  unfold SpanAttributes.HasReadableNumbers
  decide

end MessageBody
