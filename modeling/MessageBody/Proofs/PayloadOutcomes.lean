import MessageBody.Link.Payload

/-! # What comes of reading a payload

    Whoever reads a payload is ready for one failure: that the payload cannot be
    decoded.  The reading of a link or a span settles when it gives a value or
    fails in that way.  There are three other ways to fail, and the payloads that
    meet them are known exactly: brackets nested too deeply, a list or an object
    for the type of a link, and a span that is right in everything it holds but
    leaves out a colour. -/

namespace MessageBody

/-- The reading of a payload gives a value or tells that the payload cannot be
    decoded. -/
def Settles {α : Type} (value : Except PayloadError α) : Prop :=
  ∀ e, value = .error e → ∃ d, e = .undecodable d

section

variable {α β : Type}

@[simp] theorem settles_ok (x : α) : Settles (.ok x : Except PayloadError α) :=
  fun _ h => nomatch h

@[simp] theorem settles_error_iff {e : PayloadError} :
    Settles (.error e : Except PayloadError α) ↔ ∃ d, e = .undecodable d := by
  constructor
  · exact fun h => h e rfl
  · rintro h e' he
    cases he
    exact h

/-- A payload that cannot be decoded is settled as such. -/
theorem settles_undecodable (d : DecodeError) :
    Settles (.error (.undecodable d) : Except PayloadError α) :=
  settles_error_iff.mpr ⟨d, rfl⟩

instance : (value : Except PayloadError α) → Decidable (Settles value)
  | .ok x => isTrue (settles_ok x)
  | .error (.undecodable d) => isTrue (settles_undecodable d)
  | .error (.missingField _) | .error .compoundType | .error .tooDeep
  | .error (.tooManyDigits _) => isFalse fun h => nomatch settles_error_iff.mp h

/-- The two ways of settling. -/
theorem Settles.cases {value : Except PayloadError α} (h : Settles value) :
    (∃ x, value = .ok x) ∨ ∃ d, value = .error (.undecodable d) := by
  cases value with
  | ok x => exact Or.inl ⟨x, rfl⟩
  | error e =>
      obtain ⟨d, rfl⟩ := h e rfl
      exact Or.inr ⟨d, rfl⟩

/-- A map does not change whether a payload is settled. -/
theorem settles_map_iff {value : Except PayloadError α} (f : α → β) :
    Settles (value.map f) ↔ Settles value := by
  cases value <;> simp [Except.map]

end

/-- A list or an object. -/
def Json.isCompound : Json → Bool
  | .arr _ | .obj _ => true
  | _ => false

/-- The reading of an object gives its members, or settles unless brackets are
    nested too deeply. -/
theorem readObject_cases (kind : PayloadKind) (payload : String) :
    (∃ members, Json.parse payload.toList = .ok (.obj members)
        ∧ readObject kind payload = .ok members)
      ∨ (∀ members, Json.parse payload.toList ≠ .ok (.obj members))
        ∧ ∃ e, readObject kind payload = .error e
          ∧ ((∃ d, e = .undecodable d) ↔ Json.parse payload.toList ≠ .error .tooDeep) := by
  rw [readObject]
  cases Json.parse payload.toList with
  | error e =>
      right
      cases e <;> simp
  | ok json =>
      cases json with
      | obj members => exact Or.inl ⟨members, rfl, rfl⟩
      | _ => simp

/-- A reader of objects settles when brackets are not nested too deeply and it
    settles on the members. -/
theorem settles_readObject_bind_iff {α : Type} {kind : PayloadKind} {payload : String}
    {read : List (String × Json) → Except PayloadError α} {P : List (String × Json) → Prop}
    (h : ∀ members, Settles (read members) ↔ P members) :
    Settles (readObject kind payload >>= read)
      ↔ Json.parse payload.toList ≠ .error .tooDeep
        ∧ ∀ members, Json.parse payload.toList = .ok (.obj members) → P members := by
  rcases readObject_cases kind payload with ⟨members, hparse, hread⟩ | ⟨hnone, e, hread, he⟩
  · rw [hread, hparse]
    show Settles (read members) ↔ _
    rw [h]
    simp
  · rw [hread]
    show Settles (.error e) ↔ _
    rw [settles_error_iff, he]
    exact ⟨fun h => ⟨h, fun members hobj => absurd hobj (hnone members)⟩, And.left⟩

/-- A payload that nests brackets not too deeply, and whose type, if it is an
    object with a type, is neither a list nor an object. -/
def DeepLink.Settling (payload : String) : Prop :=
  Json.parse payload.toList ≠ .error .tooDeep
    ∧ ∀ members, Json.parse payload.toList = .ok (.obj members) →
      ∀ type, Json.member? "type" members = some type → type.isCompound = false

/-- The payload of a deep link settles unless it nests too deeply or has a list or an object for
    its type. -/
theorem DeepLink.settles_ofPayload_iff {payload : String} :
    Settles (DeepLink.ofPayload payload) ↔ DeepLink.Settling payload := by
  rw [DeepLink.ofPayload, DeepLink.Settling]
  refine settles_readObject_bind_iff fun members => ?_
  generalize Json.member? "type" members = type?
  -- one case for each type that is understood
  split
  case h_4 | h_5 => simp [Json.isCompound]
  case h_6 type _ _ _ harr hobj =>
    refine iff_of_true (settles_undecodable _) ?_
    rintro _ ⟨⟩
    cases type with
    | arr items => exact absurd rfl (harr items)
    | obj members => exact absurd rfl (hobj members)
    | _ => rfl
  case h_7 => exact iff_of_true (settles_undecodable _) nofun
  all_goals
    refine iff_of_true ?_ (by simp [Json.isCompound])
    repeat' split
    all_goals simp

namespace SpanAttributes

/-- All that a span holds is of the right kind; its colours may be missing. -/
def WellTyped (members : List (String × Json)) : Prop :=
  (colorMember? "fg_color" members).isSome ∧ (colorMember? "bg_color" members).isSome
    ∧ (∃ b, Json.member? "is_spoiler" members = some (.bool b))
    ∧ ∃ n, Json.member? "reveal_id" members = some (.int n)

/-- A colour is present if its member is. -/
theorem isSome_of_colorMember? {key : String} {members : List (String × Json)} {present : Bool}
    {color : Option Int} (h : colorMember? key members = some (present, color)) :
    (Json.member? key members).isSome = present := by
  rw [colorMember?] at h
  split at h <;> simp_all

/-- A payload that nests brackets not too deeply, and that has both colours if all
    that it holds is of the right kind. -/
def Settling (payload : String) : Prop :=
  Json.parse payload.toList ≠ .error .tooDeep
    ∧ ∀ members, Json.parse payload.toList = .ok (.obj members) → WellTyped members →
      (Json.member? "fg_color" members).isSome ∧ (Json.member? "bg_color" members).isSome

/-- The payload of a span settles unless it nests too deeply or lacks nothing but a colour. -/
theorem settles_ofPayload_iff {payload : String} :
    Settles (SpanAttributes.ofPayload payload) ↔ Settling payload := by
  rw [SpanAttributes.ofPayload, Settling]
  refine settles_readObject_bind_iff fun members => ?_
  rw [WellTyped]
  split
  · rename_i hasForeground _ hasBackground _ _ _ hfg hbg hspoiler hid
    rw [isSome_of_colorMember? hfg, isSome_of_colorMember? hbg]
    cases hasForeground <;> cases hasBackground <;> simp [hfg, hbg, hspoiler, hid]
  · rename_i hother
    refine iff_of_true (settles_undecodable _) ?_
    rintro ⟨hfg, hbg, ⟨_, hspoiler⟩, _, hid⟩
    obtain ⟨⟨_, _⟩, hfg⟩ := Option.isSome_iff_exists.mp hfg
    obtain ⟨⟨_, _⟩, hbg⟩ := Option.isSome_iff_exists.mp hbg
    exact (hother _ _ _ _ _ _ hfg hbg hspoiler hid).elim

end SpanAttributes

end MessageBody
