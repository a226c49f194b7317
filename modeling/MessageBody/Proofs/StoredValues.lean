import Mathlib.Data.List.Forall2
import MessageBody.Proofs.Payloads
import MessageBody.Proofs.SortedJson
import MessageBody.Storage.Reading

/-! # Stored values

    A value that has the shape it is read in is kept as it is, whatever the order
    in which its members are written.  So directives without lengths are read
    back, and so are images.  Lengths are left out: they are floating-point
    numbers. -/

namespace MessageBody

open Json (WritableIn)
open Storage (Shape)

namespace Storage

/-! ## Shapes -/

/-- A value of a shape is read as it is, also with sorted keys. -/
def Shape.Keeps (shape : Shape) (v : Json) : Prop :=
  shape.read v.sortKeys = .ok v

/-- A member has the key of a field and a value of its shape. -/
def FieldKeeps (field : String × Option Json × Shape) (m : String × Json) : Prop :=
  field.1 = m.1 ∧ field.2.2.Keeps m.2

/-- An object with the given fields, each once and in their order. -/
def HasFields (fields : List (String × Option Json × Shape)) (v : Json) : Prop :=
  ∃ members, v = .obj members ∧ (members.map Prod.fst).Nodup ∧ List.Forall₂ FieldKeeps fields members

/-- The fields of a record are found among any members that give their values. -/
theorem readFields_eq {fields : List (String × Option Json × Shape)}
    {members all : List (String × Json)} (h : List.Forall₂ FieldKeeps fields members)
    (hall : ∀ m ∈ members, Json.member? m.1 all = some m.2.sortKeys) :
    readFields fields all = .ok members := by
  induction h with
  | nil => rfl
  | cons hfield hrest ih =>
      rename_i field m fields members
      obtain ⟨key, default?, shape⟩ := field
      obtain ⟨key', value⟩ := m
      obtain ⟨rfl, hkeeps⟩ := hfield
      obtain ⟨hfirst, hothers⟩ := List.forall_mem_cons.mp hall
      have hvalue : fieldValue key default? all = .ok value.sortKeys := by
        rw [fieldValue, hfirst]
        rfl
      have hread : shape.read value.sortKeys = .ok value := hkeeps
      rw [readFields, hvalue, ih hothers]
      simp only [Bind.bind, Except.bind, hread]

/-- A record is read back if each of its fields is. -/
theorem HasFields.readRecord {fields : List (String × Option Json × Shape)} {v : Json}
    (h : HasFields fields v) : readRecord fields v.sortKeys = .ok v := by
  obtain ⟨members, rfl, hkeys, hfields⟩ := h
  have hread := readFields_eq hfields fun _ hm => Json.member?_sortKeys hkeys hm
  rw [Json.sortKeys_obj, Storage.readRecord]
  simp only [hread]
  rfl

namespace Shape

theorem keeps_record {fields : List (String × Option Json × Shape)} {v : Json}
    (h : HasFields fields v) : (Shape.record fields).Keeps v := by
  have hread := h.readRecord
  obtain ⟨members, rfl, -⟩ := h
  rw [Keeps]
  rw [Json.sortKeys_obj] at hread ⊢
  rw [Shape.read]
  exact hread

theorem keeps_record_null (fields : List (String × Option Json × Shape)) :
    (Shape.record fields).Keeps .null := by
  rw [Keeps, Json.sortKeys, Shape.read]

theorem keeps_whole (n? : Option Int) : Shape.whole.Keeps (.ofInt? n?) := by
  cases n? with
  | none => rfl
  | some n => rfl

theorem keeps_text (s : String) : Shape.text.Keeps (.str s) := rfl

theorem keeps_text? (s? : Option String) : Shape.text.Keeps (.ofText? s?) := by
  cases s? with
  | none => rfl
  | some s => rfl

/-- What may be missing is read back if it is when it is there. -/
theorem keeps_option {α : Type} {shape : Shape} {toJson : α → Json} {x? : Option α}
    (hnull : shape.Keeps .null) (h : ∀ x ∈ x?, shape.Keeps (toJson x)) :
    shape.Keeps (.ofOption toJson x?) := by
  cases x? with
  | none => exact hnull
  | some x => exact h x rfl

end Shape

end Storage

open Storage (FieldKeeps HasFields)

/-! ## Optional values -/

namespace Json

theorem optional_of_ne_null {α : Type} {read : Json → Option α} {v : Json} (h : v ≠ .null) :
    optional read v = (read v).map some := by
  cases v with
  | null => exact absurd rfl h
  | bool | int | float | str | arr | obj => rfl

/-- What may be missing is read back if it is never written as nothing. -/
theorem optional_ofOption {α : Type} {read : Json → Option α} {toJson : α → Json}
    {x? : Option α} (hnull : ∀ x, toJson x ≠ .null) (h : ∀ x ∈ x?, read (toJson x) = some x) :
    optional read (.ofOption toJson x?) = some x? := by
  cases x? with
  | none => rfl
  | some x =>
      show optional read (toJson x) = _
      rw [optional_of_ne_null (hnull x), h x rfl]
      rfl

theorem optional_ofInt? (n? : Option Int) : optional int? (.ofInt? n?) = some n? := by
  cases n? with
  | none => rfl
  | some n => rfl

theorem optional_ofText? (s? : Option String) : optional text? (.ofText? s?) = some s? := by
  cases s? with
  | none => rfl
  | some s => rfl

theorem nesting_ofInt? (n? : Option Int) : (ofInt? n?).nesting = 0 := by
  cases n? <;> rfl

/-- What is missing is not nested. -/
theorem nesting_ofOption_le {α : Type} {toJson : α → Json} {x? : Option α} {n : Nat}
    (h : ∀ x ∈ x?, (toJson x).nesting ≤ n) : (ofOption toJson x?).nesting ≤ n := by
  cases x? with
  | none => exact Nat.zero_le n
  | some x => exact h x rfl

theorem numbers_ofInt? (n? : Option Int) : (ofInt? n?).numbers = n?.toList := by
  cases n? <;> rfl

/-- What an optional value holds is written with it. -/
theorem mem_numbers_ofOption {α : Type} {toJson : α → Json} {numbers : α → List Int}
    (h : ∀ x, ∀ n ∈ numbers x, n ∈ (toJson x).numbers) {x? : Option α} {n : Int}
    (hn : n ∈ x?.toList.flatMap numbers) : n ∈ (ofOption toJson x?).numbers := by
  cases x? with
  | none => exact nomatch hn
  | some x => exact h x n (by simpa using hn)

namespace WritableIn

variable {n : Nat}

theorem ofInt? {k? : Option Int} (h : ∀ k ∈ k?, Text.IsShort k) : WritableIn n (.ofInt? k?) := by
  cases k? with
  | none => exact null
  | some k => exact int (h k rfl)

theorem ofText? (s? : Option String) : WritableIn n (.ofText? s?) := by
  cases s? with
  | none => exact null
  | some s => exact str s

theorem ofOption {α : Type} {toJson : α → Json} {x? : Option α}
    (h : ∀ x ∈ x?, WritableIn n (toJson x)) : WritableIn n (.ofOption toJson x?) := by
  cases x? with
  | none => exact null
  | some x => exact h x rfl

end WritableIn

end Json

/-! ## Looks -/

namespace RunStyle

/-- A look without a length. -/
def IsUnitless (s : RunStyle) : Prop :=
  s.fontSize = none

/-- The whole numbers of a look. -/
def numbers (s : RunStyle) : List Int :=
  s.color.toList ++ s.background.toList

variable {s : RunStyle}

theorem hasFields (h : s.IsUnitless) : HasFields RunStyle.fields s.toJson := by
  refine ⟨_, rfl, show ["color", "background", "font_size", "font_weight", "font_style",
    "font_family", "text_decoration"].Nodup by decide, ?_⟩
  refine .cons ⟨rfl, Shape.keeps_whole _⟩ <| .cons ⟨rfl, Shape.keeps_whole _⟩ <|
    .cons ⟨rfl, ?_⟩ <| .cons ⟨rfl, ?_⟩ <| .cons ⟨rfl, ?_⟩ <| .cons ⟨rfl, ?_⟩ <|
    .cons ⟨rfl, ?_⟩ .nil
  · rw [show s.fontSize = none from h]
    exact Shape.keeps_record_null _
  · exact Shape.keeps_option rfl fun weight _ => by cases weight <;> rfl
  · exact Shape.keeps_option rfl fun slant _ => by cases slant <;> rfl
  · exact Shape.keeps_option rfl fun family _ => by cases family <;> rfl
  · exact Shape.keeps_option rfl fun decoration _ => by cases decoration <;> rfl

theorem ofJson?_toJson (h : s.IsUnitless) : ofJson? s.toJson = some s := by
  obtain ⟨color, background, fontSize, weight, slant, family, decoration⟩ := s
  obtain rfl : fontSize = none := h
  -- an option comes back as it was because none of its values is written as null
  have hweight : Json.optional FontWeight.ofJson? (.ofOption FontWeight.toJson weight)
      = some weight := by
    refine Json.optional_ofOption ?_ ?_
    · rintro (_ | _) <;> simp [FontWeight.toJson]
    · rintro (_ | _) _ <;> rfl
  have hslant : Json.optional FontStyle.ofJson? (.ofOption FontStyle.toJson slant)
      = some slant := by
    refine Json.optional_ofOption ?_ ?_
    · rintro (_ | _) <;> simp [FontStyle.toJson]
    · rintro (_ | _) _ <;> rfl
  have hfamily : Json.optional FontFamily.ofJson? (.ofOption FontFamily.toJson family)
      = some family := by
    refine Json.optional_ofOption ?_ ?_
    · rintro (_ | _) <;> simp [FontFamily.toJson]
    · rintro (_ | _) _ <;> rfl
  have hdecoration : Json.optional TextDecoration.ofJson?
      (.ofOption TextDecoration.toJson decoration) = some decoration := by
    refine Json.optional_ofOption ?_ ?_
    · rintro (_ | _ | _) <;> simp [TextDecoration.toJson]
    · rintro (_ | _ | _) _ <;> rfl
  rw [toJson, ofJson?]
  simp only [Json.optional_ofInt?, hweight, hslant, hfamily, hdecoration]
  rfl

theorem writableIn (h : s.IsUnitless) (hshort : ∀ n ∈ s.numbers, Text.IsShort n) :
    WritableIn 2 s.toJson := by
  refine .obj (show ["color", "background", "font_size", "font_weight", "font_style",
    "font_family", "text_decoration"].Nodup by decide) ?_
  simp only [List.forall_mem_cons]
  refine ⟨?_, ?_, ?_, ?_, ?_, ?_, ?_, List.forall_mem_nil _⟩
  · exact .ofInt? fun n hn => hshort n (List.mem_append_left _ (Option.mem_toList.mpr hn))
  · exact .ofInt? fun n hn => hshort n (List.mem_append_right _ (Option.mem_toList.mpr hn))
  · rw [show s.fontSize = none from h]
    exact .null
  · exact .ofOption fun weight _ => by cases weight <;> exact .int (by decide)
  · exact .ofOption fun slant _ => by cases slant <;> exact .str _
  · exact .ofOption fun family _ => by cases family <;> exact .str _
  · exact .ofOption fun decoration _ => by cases decoration <;> exact .str _

/-- A look without a length is nested no more than its members. -/
theorem nesting_toJson_le (h : s.IsUnitless) : s.toJson.nesting ≤ 1 := by
  rw [toJson, Json.nesting]
  refine Nat.succ_le_succ (Json.nestingMembers_le_iff.mpr ?_)
  simp only [List.forall_mem_cons]
  refine ⟨?_, ?_, ?_, ?_, ?_, ?_, ?_, List.forall_mem_nil _⟩
  · exact Nat.le_of_eq (Json.nesting_ofInt? _)
  · exact Nat.le_of_eq (Json.nesting_ofInt? _)
  · rw [show s.fontSize = none from h]
    exact Nat.le_refl 0
  · exact Json.nesting_ofOption_le fun weight _ => by cases weight <;> exact Nat.le_refl 0
  · exact Json.nesting_ofOption_le fun slant _ => by cases slant <;> exact Nat.le_refl 0
  · exact Json.nesting_ofOption_le fun family _ => by cases family <;> exact Nat.le_refl 0
  · exact Json.nesting_ofOption_le fun decoration _ => by cases decoration <;> exact Nat.le_refl 0

/-- The colours of a look are written with it. -/
theorem mem_numbers_toJson (s : RunStyle) : ∀ n ∈ s.numbers, n ∈ s.toJson.numbers := by
  intro n hn
  rw [toJson, Json.numbers, Json.numbersOfMembers, Json.numbersOfMembers, Json.numbers_ofInt?,
    Json.numbers_ofInt?, ← List.append_assoc]
  exact List.mem_append_left _ hn

end RunStyle

namespace LinkStyles

/-- The look of a link without a length. -/
def IsUnitless (s : LinkStyles) : Prop :=
  ∀ look ∈ s.style, look.IsUnitless

/-- The whole numbers of a link. -/
def numbers (s : LinkStyles) : List Int :=
  s.style.toList.flatMap RunStyle.numbers

variable {s : LinkStyles}

theorem hasFields (h : s.IsUnitless) : HasFields LinkStyles.fields s.toJson := by
  refine ⟨_, rfl, show ["style"].Nodup by decide, .cons ⟨rfl, ?_⟩ .nil⟩
  exact Shape.keeps_option (Shape.keeps_record_null _) fun look hlook =>
    Shape.keeps_record (RunStyle.hasFields (h look hlook))

theorem ofJson?_toJson (h : s.IsUnitless) : ofJson? s.toJson = some s := by
  have hstyle : Json.optional RunStyle.ofJson? (.ofOption RunStyle.toJson s.style)
      = some s.style :=
    Json.optional_ofOption (fun look => by simp [RunStyle.toJson])
      fun look hlook => RunStyle.ofJson?_toJson (h look hlook)
  rw [toJson, ofJson?]
  simp only [hstyle]
  rfl

theorem writableIn (h : s.IsUnitless) (hshort : ∀ n ∈ s.numbers, Text.IsShort n) :
    WritableIn 3 s.toJson := by
  refine .obj (show ["style"].Nodup by decide) (List.forall_mem_singleton.mpr ?_)
  exact .ofOption fun look hlook => RunStyle.writableIn (h look hlook) fun n hn =>
    hshort n (List.mem_flatMap.mpr ⟨look, Option.mem_toList.mpr hlook, hn⟩)

theorem nesting_toJson_le (h : s.IsUnitless) : s.toJson.nesting ≤ 2 := by
  rw [toJson, Json.nesting]
  refine Nat.succ_le_succ (Json.nestingMembers_le_iff.mpr (List.forall_mem_singleton.mpr ?_))
  exact Json.nesting_ofOption_le fun look hlook => RunStyle.nesting_toJson_le (h look hlook)

theorem mem_numbers_toJson (s : LinkStyles) : ∀ n ∈ s.numbers, n ∈ s.toJson.numbers := by
  intro n hn
  rw [toJson, Json.numbers, Json.numbersOfMembers]
  exact List.mem_append_left _ (Json.mem_numbers_ofOption RunStyle.mem_numbers_toJson hn)

end LinkStyles

/-! ## Directives -/

namespace Directive

/-- A directive without a length, and not one that is kept as it was stored. -/
def IsUnitless : Directive → Prop
  | .run style => style.IsUnitless
  | .paragraph style => style.lineHeight = none ∧ style.indent = none
  | .url _ styles => ∀ s ∈ styles, s.IsUnitless
  | .clickable _ _ styles => ∀ s ∈ styles, s.IsUnitless
  | .stored _ _ => False

/-- The whole numbers of a directive. -/
def numbers : Directive → List Int
  | .run style => style.numbers
  | .url _ styles | .clickable _ _ styles => styles.toList.flatMap LinkStyles.numbers
  | .paragraph _ | .stored _ _ => []

theorem hasFields {d : Directive} (h : d.IsUnitless) (hkind : d.kind ≠ .clickable) :
    HasFields d.kind.fields d.toJson := by
  cases d with
  | run style => exact RunStyle.hasFields h
  | paragraph style =>
      obtain ⟨lineHeight, indent⟩ := style
      obtain ⟨rfl, rfl⟩ := h
      exact ⟨_, rfl, show ["line_height", "text_indent"].Nodup by decide,
        .cons ⟨rfl, Shape.keeps_record_null _⟩ <| .cons ⟨rfl, Shape.keeps_record_null _⟩ .nil⟩
  | url address styles =>
      refine ⟨_, rfl, show ["url", "styles"].Nodup by decide,
        .cons ⟨rfl, Shape.keeps_text address⟩ <| .cons ⟨rfl, ?_⟩ .nil⟩
      exact Shape.keeps_option (Shape.keeps_record_null _) fun s hs =>
        Shape.keeps_record (LinkStyles.hasFields (h s hs))
  | clickable tag target styles => exact absurd rfl hkind
  | stored kind value => exact h.elim

theorem ofJson?_toJson {d : Directive} (h : d.IsUnitless) (hkind : d.kind ≠ .clickable) :
    ofJson? d.kind d.toJson = some d := by
  cases d with
  | run style =>
      show (RunStyle.ofJson? style.toJson).map Directive.run = _
      rw [RunStyle.ofJson?_toJson h]
      rfl
  | paragraph style =>
      obtain ⟨lineHeight, indent⟩ := style
      obtain ⟨rfl, rfl⟩ := h
      rfl
  | url address styles =>
      have hstyles : Json.optional LinkStyles.ofJson? (.ofOption LinkStyles.toJson styles)
          = some styles :=
        Json.optional_ofOption (fun s => by simp [LinkStyles.toJson])
          fun s hs => LinkStyles.ofJson?_toJson (h s hs)
      show (Json.optional LinkStyles.ofJson? (.ofOption LinkStyles.toJson styles)).map
        (Directive.url address) = _
      rw [hstyles]
      rfl
  | clickable tag target styles => exact absurd rfl hkind
  | stored kind value => exact h.elim

/-- A directive is read back from its stored value. -/
theorem read_toJson {d : Directive} (h : d.IsUnitless) (hkind : d.kind ≠ .clickable) :
    read d.kind d.toJson.sortKeys = .ok d := by
  rw [read, (hasFields h hkind).readRecord]
  show Except.ok ((ofJson? d.kind d.toJson).getD _) = _
  rw [ofJson?_toJson h hkind]
  rfl

theorem writableIn {d : Directive} (h : d.IsUnitless) (hshort : ∀ n ∈ d.numbers, Text.IsShort n) :
    WritableIn 4 d.toJson := by
  have hstyles : ∀ styles : Option LinkStyles, (∀ s ∈ styles, s.IsUnitless) →
      (∀ n ∈ styles.toList.flatMap LinkStyles.numbers, Text.IsShort n) →
      WritableIn 3 (.ofOption LinkStyles.toJson styles) := fun styles hunit hshort =>
    .ofOption fun s hs => LinkStyles.writableIn (hunit s hs) fun n hn =>
      hshort n (List.mem_flatMap.mpr ⟨s, Option.mem_toList.mpr hs, hn⟩)
  cases d with
  | run style => exact (RunStyle.writableIn h hshort).mono (by decide)
  | paragraph style =>
      obtain ⟨lineHeight, indent⟩ := style
      obtain ⟨rfl, rfl⟩ := h
      refine .obj (show ["line_height", "text_indent"].Nodup by decide) ?_
      simp only [List.forall_mem_cons]
      exact ⟨.null, .null, List.forall_mem_nil _⟩
  | url address styles =>
      refine .obj (show ["url", "styles"].Nodup by decide) ?_
      simp only [List.forall_mem_cons]
      exact ⟨.str address, hstyles styles h hshort, List.forall_mem_nil _⟩
  | clickable tag target styles =>
      refine .obj (show ["tag", "styles"].Nodup by decide) ?_
      simp only [List.forall_mem_cons]
      exact ⟨.str tag, hstyles styles h hshort, List.forall_mem_nil _⟩
  | stored kind value => exact h.elim

/-- A directive without a length is not nested too deeply to be stored. -/
theorem nesting_toJson_le {d : Directive} (h : d.IsUnitless) : d.toJson.nesting ≤ 3 := by
  have hstyles : ∀ styles : Option LinkStyles, (∀ s ∈ styles, s.IsUnitless) →
      (Json.ofOption LinkStyles.toJson styles).nesting ≤ 2 := fun styles hunit =>
    Json.nesting_ofOption_le fun s hs => LinkStyles.nesting_toJson_le (hunit s hs)
  cases d with
  | run style => exact Nat.le_trans (RunStyle.nesting_toJson_le h) (by decide)
  | paragraph style =>
      obtain ⟨lineHeight, indent⟩ := style
      obtain ⟨rfl, rfl⟩ := h
      decide
  | url address styles =>
      refine Nat.succ_le_succ (Json.nestingMembers_le_iff.mpr ?_)
      simp only [List.forall_mem_cons]
      exact ⟨Nat.zero_le _, hstyles styles h, List.forall_mem_nil _⟩
  | clickable tag target styles =>
      refine Nat.succ_le_succ (Json.nestingMembers_le_iff.mpr ?_)
      simp only [List.forall_mem_cons]
      exact ⟨Nat.zero_le _, hstyles styles h, List.forall_mem_nil _⟩
  | stored kind value => exact h.elim

/-- The numbers of a directive are written with it. -/
theorem mem_numbers_toJson (d : Directive) : ∀ n ∈ d.numbers, n ∈ d.toJson.numbers := by
  have hstyles : ∀ (key : String) (text : String) (styles : Option LinkStyles),
      ∀ n ∈ styles.toList.flatMap LinkStyles.numbers,
        n ∈ (Json.obj [(key, .str text), ("styles", .ofOption LinkStyles.toJson styles)]).numbers := by
    intro key text styles n hn
    rw [Json.numbers, Json.numbersOfMembers, Json.numbers, List.nil_append, Json.numbersOfMembers]
    exact List.mem_append_left _ (Json.mem_numbers_ofOption LinkStyles.mem_numbers_toJson hn)
  cases d with
  | run style => exact style.mem_numbers_toJson
  | url address styles => exact hstyles "url" address styles
  | clickable tag target styles => exact hstyles "tag" tag styles
  | paragraph style => exact nofun
  | stored kind value => exact nofun

end Directive

/-! ## Images -/

namespace ImageInfo

/-- The whole numbers of an image. -/
def numbers (i : ImageInfo) : List Int :=
  i.width.toList ++ i.height.toList

theorem hasFields (i : ImageInfo) : HasFields ImageInfo.fields i.toJson := by
  refine ⟨_, rfl, show ["uri", "is_emote", "width", "height", "title", "alt"].Nodup by decide, ?_⟩
  exact .cons ⟨rfl, Shape.keeps_text _⟩ <| .cons ⟨rfl, rfl⟩ <|
    .cons ⟨rfl, Shape.keeps_whole _⟩ <| .cons ⟨rfl, Shape.keeps_whole _⟩ <|
    .cons ⟨rfl, Shape.keeps_text? _⟩ <| .cons ⟨rfl, Shape.keeps_text? _⟩ .nil

/-- An image is read back from its stored value. -/
theorem readImage_toJson (key : String) (i : ImageInfo) :
    Storage.readImage (key, i.toJson.sortKeys) = .ok (key, i.toJson) := by
  rw [Storage.readImage, i.hasFields.readRecord]
  rfl

theorem ofJson?_toJson (i : ImageInfo) : ofJson? i.toJson = some i := by
  rw [toJson, ofJson?]
  simp only [Json.optional_ofInt?, Json.optional_ofText?]
  rfl

theorem writableIn {i : ImageInfo} (hshort : ∀ n ∈ i.numbers, Text.IsShort n) :
    WritableIn 1 i.toJson := by
  refine .obj (show ["uri", "is_emote", "width", "height", "title", "alt"].Nodup by decide) ?_
  simp only [List.forall_mem_cons]
  refine ⟨.str _, .bool _, .ofInt? fun n hn => ?_, .ofInt? fun n hn => ?_, .ofText? _, .ofText? _,
    List.forall_mem_nil _⟩
  · exact hshort n (List.mem_append_left _ (Option.mem_toList.mpr hn))
  · exact hshort n (List.mem_append_right _ (Option.mem_toList.mpr hn))

/-- The size of an image is written with it. -/
theorem mem_numbers_toJson (i : ImageInfo) : ∀ n ∈ i.numbers, n ∈ i.toJson.numbers := by
  intro n hn
  have hsize : n ∈ i.width.toList ∨ n ∈ i.height.toList := List.mem_append.mp hn
  rw [toJson, Json.numbers]
  simp only [Json.numbersOfMembers, Json.numbers, Json.numbers_ofInt?, List.nil_append,
    List.mem_append]
  exact hsize.imp_right Or.inl

end ImageInfo

end MessageBody
