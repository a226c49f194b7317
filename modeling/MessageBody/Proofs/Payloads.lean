import MessageBody.Link.Payload
import MessageBody.Proofs.JsonText

/-! # Payloads and what they hold

    A deep link is read back from its payload, and so are the attributes of a
    span as far as their numbers have not too many digits. -/

namespace MessageBody

open Json

/-- The members of an object are read back from a payload that writes it. -/
theorem readObject_write (kind : PayloadKind) {members : List (String × Json)}
    (h : Writable (.obj members)) (hdepth : (Json.obj members).nesting ≤ depthLimit) :
    readObject kind (write .payload (.obj members)) = .ok members := by
  rw [readObject, write, String.toList_ofList, parse_text .payload h hdepth]

namespace DeepLink

/-- Texts are read back from a list of them. -/
theorem texts?_map (via : List String) : texts? (via.map Json.str) = some via := by
  induction via with
  | nil => rfl
  | cons s via ih =>
      rw [List.map_cons, texts?, ih]
      rfl

/-- The servers of a link can be written. -/
theorem viaJson_writable (via : List String) : Writable (viaJson via) := by
  refine .arr _ ?_
  intro v hv
  obtain ⟨s, -, rfl⟩ := List.mem_map.mp hv
  exact .str s

/-- The servers of a link are one list. -/
theorem viaJson_nesting (via : List String) : (viaJson via).nesting = 1 := by
  have hitems : nestingList (via.map Json.str) = 0 := by
    induction via with
    | nil => rfl
    | cons s via ih =>
        rw [List.map_cons, nestingList, ih]
        rfl
  rw [viaJson, nesting, hitems]

/-- The payload of a link is an object that can be written and read. -/
theorem toJson_eq_obj (link : DeepLink) : ∃ members, link.toJson = .obj members
    ∧ Writable (.obj members) ∧ (Json.obj members).nesting ≤ depthLimit := by
  cases link with
  | user userId url =>
      refine ⟨_, rfl, .obj _ (show ["type", "user_id", "raw_url"].Nodup by decide) ?_, ?_⟩
      · intro m hm
        simp only [List.mem_cons, List.not_mem_nil, or_false] at hm
        rcases hm with rfl | rfl | rfl <;> exact .str _
      · simp only [nesting, nestingMembers]
        decide
  | room roomId via url =>
      refine ⟨_, rfl, .obj _ (show ["type", "room_id", "via", "raw_url"].Nodup by decide) ?_, ?_⟩
      · intro m hm
        simp only [List.mem_cons, List.not_mem_nil, or_false] at hm
        rcases hm with rfl | rfl | rfl | rfl
        · exact .str _
        · exact .str _
        · exact viaJson_writable via
        · exact .str _
      · simp only [nesting, nestingMembers, viaJson_nesting]
        decide
  | message roomId messageId via url =>
      refine ⟨_, rfl, .obj _ (show ["type", "room_id", "message_id", "via", "raw_url"].Nodup by
        decide) ?_, ?_⟩
      · intro m hm
        simp only [List.mem_cons, List.not_mem_nil, or_false] at hm
        rcases hm with rfl | rfl | rfl | rfl | rfl
        · exact .str _
        · exact .str _
        · exact .str _
        · exact viaJson_writable via
        · exact .str _
      · simp only [nesting, nestingMembers, viaJson_nesting]
        decide

/-- A deep link is read back from its payload. -/
theorem ofPayload_payload (link : DeepLink) : ofPayload link.payload = .ok link := by
  obtain ⟨members, htoJson, hwrite, hdepth⟩ := link.toJson_eq_obj
  have hread := readObject_write .link hwrite hdepth
  rw [← htoJson] at hread
  rw [ofPayload, payload, hread]
  cases link with
  | user userId url =>
      cases htoJson
      rfl
  | room roomId via url =>
      cases htoJson
      -- the servers are a list, so reading them does not reduce by itself
      simp only [Bind.bind, Except.bind, textMember?, viaMember?, viaJson, Json.member?,
        List.lookup_cons]
      simp [texts?_map]
  | message roomId messageId via url =>
      cases htoJson
      simp only [Bind.bind, Except.bind, textMember?, viaMember?, viaJson, Json.member?,
        List.lookup_cons]
      simp [texts?_map]

end DeepLink

namespace SpanAttributes

/-- The numbers among the attributes have not too many digits. -/
def HasReadableNumbers (a : SpanAttributes) : Prop :=
  ∀ n ∈ a.revealId :: (a.foreground.toList ++ a.background.toList),
    (Nat.toDigits 10 n.natAbs).length ≤ Text.TooManyDigits.limit

/-- A number with few digits, or none at all, can be written. -/
theorem ofInt?_writable {n? : Option Int}
    (h : ∀ n ∈ n?, (Nat.toDigits 10 n.natAbs).length ≤ Text.TooManyDigits.limit) :
    Writable (.ofInt? n?) := by
  cases n? with
  | none => exact .null
  | some n => exact .int n (h n rfl)

/-- A number is not nested. -/
theorem ofInt?_nesting (n? : Option Int) : (Json.ofInt? n?).nesting = 0 := by
  cases n? with
  | none => rfl
  | some n => rfl

/-- The attributes of a span are read back from their payload. -/
theorem ofPayload_payload {a : SpanAttributes} (h : a.HasReadableNumbers) :
    ofPayload a.payload = .ok a := by
  have hwrite : Writable a.toJson := by
    refine .obj _ (show ["fg_color", "bg_color", "is_spoiler", "reveal_id"].Nodup by decide) ?_
    intro m hm
    simp only [List.mem_cons, List.not_mem_nil, or_false] at hm
    rcases hm with rfl | rfl | rfl | rfl
    · exact ofInt?_writable fun n hn => h n (by simp [Option.mem_def.mp hn])
    · exact ofInt?_writable fun n hn => h n (by simp [Option.mem_def.mp hn])
    · exact .bool _
    · exact .int _ (h _ (List.mem_cons_self ..))
  have hdepth : a.toJson.nesting ≤ depthLimit := by
    simp only [toJson, nesting, nestingMembers, ofInt?_nesting]
    decide
  have hread := readObject_write .span hwrite hdepth
  rw [ofPayload, payload, toJson, hread]
  obtain ⟨foreground, background, isSpoiler, revealId⟩ := a
  -- a colour that is absent was written as a null, and is found as one
  cases foreground with
  | none =>
      cases background with
      | none => rfl
      | some background => rfl
  | some foreground =>
      cases background with
      | none => rfl
      | some background => rfl

end SpanAttributes

end MessageBody
