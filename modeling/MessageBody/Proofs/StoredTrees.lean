import MessageBody.Proofs.Display
import MessageBody.Proofs.Identifiers
import MessageBody.Proofs.StoredBodies

/-! # Bodies of trees can be stored

    The body of a tree holds no length: its only directives are those of plain
    emphasis.  Its whole numbers are positions in its text, ids among them, and the
    sizes of images, which are read within 32 bits.  So it can be stored as far as
    positions are numbers of 31 bits. -/

namespace MessageBody

open Fragment

/-! ## The images of content -/

namespace Content

mutual

/-- The images in a piece of content, in document order. -/
def images : Content → List ImageInfo
  | .text _ => []
  | .emphasis _ children => imagesOf children
  | .code children => imagesOf children
  | .span _ children => imagesOf children
  | .anchor _ children => imagesOf children
  | .lineBreak => []
  | .image info => [info]
  | .foreignImage children => imagesOf children
  | .heading _ children => imagesOf children
  | .paragraph _ children => imagesOf children
  | .quote children => imagesOf children
  | .preformatted children => imagesOf children
  | .rule => []
  | .details before summary after => imagesOf before ++ imagesOf summary ++ imagesOf after
  | .unorderedList children => imagesOf children
  | .orderedList _ children => imagesOf children
  | .listItem _ children => imagesOf children
  | .unsupported _ children => imagesOf children

/-- The images in pieces of content, in document order. -/
def imagesOf : List Content → List ImageInfo
  | [] => []
  | c :: cs => c.images ++ imagesOf cs

end

theorem imagesOf_append (cs ds : List Content) :
    imagesOf (cs ++ ds) = imagesOf cs ++ imagesOf ds := by
  induction cs with
  | nil => rfl
  | cons c cs ih => rw [List.cons_append, imagesOf, imagesOf, ih, List.append_assoc]

theorem images_detailsOf (cs : List Content) : (detailsOf cs).images = imagesOf cs := by
  rcases detailsOf_cases cs with h | ⟨before, summary, after, rfl, h⟩
  · rw [h, images]
  · rw [h, images, imagesOf_append, imagesOf_append]

theorem imagesOf_withoutFirstBreak (cs : List Content) :
    imagesOf (withoutFirstBreak cs) = imagesOf cs := by
  unfold withoutFirstBreak
  split
  · split <;> rfl
  · rfl

/-- An element has the images that are inside it, or it is one. -/
theorem images_ofElement {name : String} {attributes : List (String × String)} {cs : List Content}
    {info : ImageInfo} (h : info ∈ (ofElement name attributes cs).images) :
    info ∈ imagesOf cs ∨ imageInfo? attributes = some info := by
  unfold ofElement at h
  split at h
  case h_19 =>
    rw [images, imagesOf_withoutFirstBreak] at h
    exact Or.inl h
  case h_20 => exact absurd h List.not_mem_nil
  case h_21 =>
    rw [images_detailsOf] at h
    exact Or.inl h
  case h_22 => exact absurd h List.not_mem_nil
  case h_24 =>
    split at h
    · rename_i info' hinfo
      rw [images, List.mem_singleton] at h
      exact Or.inr (h ▸ hinfo)
    · exact Or.inl h
  all_goals exact Or.inl h

theorem isInt32_of_numberAttribute? {name : String} {attributes : List (String × String)} {n : Int}
    (h : numberAttribute? name attributes = some n) : Text.isInt32 n = true := by
  obtain ⟨value, -, hvalue⟩ := Option.bind_eq_some_iff.mp h
  cases hnumber : Text.wholeNumber value.toList with
  | ok n? =>
      rw [Text.wholeNumber?_of_ok hnumber] at hvalue
      exact Text.isInt32_of_wholeNumber (hvalue ▸ hnumber)
  | error refusal =>
      rw [Text.wholeNumber?_of_error hnumber] at hvalue
      exact nomatch hvalue

/-- The size of an image was read as numbers of 32 bits. -/
theorem isInt32_of_imageInfo? {attributes : List (String × String)} {info : ImageInfo}
    (h : imageInfo? attributes = some info) : ∀ n ∈ info.numbers, Text.isInt32 n = true := by
  unfold imageInfo? at h
  extract_lets uri at h
  split at h
  · cases h
    intro n hn
    rcases List.mem_append.mp hn with hn | hn
    · exact isInt32_of_numberAttribute? (Option.mem_toList.mp hn)
    · exact isInt32_of_numberAttribute? (Option.mem_toList.mp hn)
  · exact nomatch h

mutual

/-- The size of an image is read within 32 bits. -/
theorem isInt32_images_ofNode : (node : Markup.Node) → ∀ info ∈ (ofNode node).images,
    ∀ n ∈ info.numbers, Text.isInt32 n = true
  | .text data, info, hinfo => nomatch hinfo
  | .element name attributes children, info, hinfo => by
      rw [ofNode] at hinfo
      rcases images_ofElement hinfo with hinfo | hinfo
      · exact isInt32_images_ofNodes children info hinfo
      · exact isInt32_of_imageInfo? hinfo

theorem isInt32_images_ofNodes : (nodes : List Markup.Node) → ∀ info ∈ imagesOf (ofNodes nodes),
    ∀ n ∈ info.numbers, Text.isInt32 n = true
  | [], info, hinfo => nomatch hinfo
  | node :: nodes, info, hinfo => by
      rw [ofNodes, imagesOf] at hinfo
      rcases List.mem_append.mp hinfo with hinfo | hinfo
      · exact isInt32_images_ofNode node info hinfo
      · exact isInt32_images_ofNodes nodes info hinfo

end

end Content

/-! ## The images of a rendering -/

theorem images_closeParagraph (ctx : Context) (isDivision : Bool) (ahead : List Content)
    (body : Rendered) :
    (closeParagraph ctx isDivision ahead body).fragment.images = body.fragment.images := by
  rw [closeParagraph]
  split
  · rfl
  · exact List.append_nil _

theorem images_closePreformatted (ctx : Context) (ahead : List Content) (position : Cursor)
    (body : Rendered) :
    (closePreformatted ctx ahead position body).fragment.images = body.fragment.images := by
  rw [closePreformatted]
  split
  · rfl
  · exact List.append_nil _

/-- A link has the images of its content, whatever it shows. -/
theorem images_closeAnchor (ctx : Context) (address : String) (link? : Option DeepLink)
    (body : Rendered) :
    (closeAnchor ctx address link? body).fragment.images = body.fragment.images := by
  cases link? <;> rfl

theorem images_hideContent {id : String} {content : List Content} {next : Int} {body : Rendered}
    (h : body.fragment.images.map Prod.snd = Content.imagesOf content) :
    (hideContent id content next body).fragment.images.map Prod.snd = Content.imagesOf content := by
  rw [hideContent]
  split
  · rename_i hempty
    rw [List.isEmpty_iff.mp hempty]
    rfl
  · exact h

theorem images_closeDetails (position : Cursor) (before label after : Rendered) :
    (closeDetails position before label after).fragment.images
      = before.fragment.images ++ label.fragment.images ++ after.fragment.images :=
  rfl

mutual

/-- What the walk makes of a piece of content has the images of the content. -/
theorem images_renderOne : (c : Content) → (ctx : Context) → (ahead : List Content) →
    (previous : Option Trace) → (position : Cursor) → (next : Int) →
    (renderOne c ctx ahead previous position next).fragment.images.map Prod.snd = c.images
  | .text data, ctx, ahead, previous, position, next => by
      rw [renderOne]
      split <;> rfl
  | .emphasis e children, ctx, _, _, position, next => by
      rw [renderOne]
      exact images_renderAll children ctx none position next
  | .code children, ctx, _, _, position, next => by
      rw [renderOne]
      split <;> exact images_renderAll children ctx none position next
  | .span look children, ctx, _, _, position, next => by
      rw [renderOne]
      exact images_renderAll children ctx none position next
  | .anchor address children, ctx, _, _, position, next => by
      rw [renderOne, images_closeAnchor]
      exact images_renderAll children { ctx with isLinked := true } none _ next
  | .lineBreak, ctx, ahead, previous, position, next => by
      rw [renderOne]
      rfl
  | .image info, ctx, _, _, position, next => by
      rw [renderOne]
      rfl
  | .foreignImage children, ctx, _, _, position, next => by
      rw [renderOne]
      exact images_renderAll children ctx none position next
  | .heading level children, ctx, _, _, position, next => by
      rw [renderOne]
      exact images_renderAll children ctx none position next
  | .paragraph isDivision children, ctx, ahead, previous, position, next => by
      rw [renderOne, Rendered.fragment_after, images_append, images_closeParagraph]
      exact images_renderAll children ctx none _ next
  | .quote children, ctx, _, _, position, next => by
      rw [renderOne]
      exact images_renderAll children { ctx with depth := ctx.depth + 1 } none position next
  | .preformatted children, ctx, ahead, previous, position, next => by
      rw [renderOne, Rendered.fragment_after, images_append, images_closePreformatted]
      exact images_renderAll children { ctx with isPreformatted := true } none _ next
  | .rule, ctx, ahead, _, position, next => by
      rw [renderOne]
      rfl
  | .details before summary after, ctx, _, previous, position, next => by
      rw [renderOne, images_closeDetails, List.map_append, List.map_append,
        images_hideContent (images_renderAll before ctx previous position next),
        images_hideContent (images_renderAll after ctx (some .block) _ _), Rendered.fragment_marked,
        images_marked, Rendered.fragment_after, images_append, List.map_append,
        images_renderAll summary ctx none _ _, Content.images]
      rfl
  | .unorderedList children, ctx, _, _, position, next => by
      rw [renderOne]
      exact images_renderAll children
        { ctx with scope := .unordered (ctx.style.bullet ctx.depth) } none position next
  | .orderedList start children, ctx, _, _, position, next => by
      rw [renderOne]
      exact images_renderAll children { ctx with scope := .ordered } none position _
  | .listItem value children, ctx, _, _, position, next => by
      rw [renderOne]
      split
      · exact images_renderAll children ctx none position next
      · extract_lets inner
        split <;> exact images_renderAll children inner none _ _
  | .unsupported _ children, ctx, _, _, position, next => by
      rw [renderOne]
      exact images_renderAll children ctx none position next

/-- Rendering collects the images of content in their order. -/
theorem images_renderAll : (cs : List Content) → (ctx : Context) → (previous : Option Trace) →
    (position : Cursor) → (next : Int) →
    (renderAll cs ctx previous position next).fragment.images.map Prod.snd = Content.imagesOf cs
  | [], ctx, previous, position, next => by
      rw [renderAll]
      rfl
  | c :: cs, ctx, previous, position, next => by
      rw [renderAll, Content.imagesOf]
      simp only
      rw [images_append, List.map_append,
        images_renderOne c ctx cs previous position next, images_renderAll cs ctx _ _ _]

end

/-! ## Bodies -/

namespace Fragment

variable {style : RenderStyle} {limit o : Nat} {f : Fragment}

theorem mem_reveals_hidden {f? : Option Fragment} {id : Nat} (h : id ∈ (hidden o f?).reveals) :
    ∃ f, f? = some f ∧ id ∈ f.reveals := by
  cases f? with
  | none => exact nomatch h
  | some f => exact ⟨f, rfl, h⟩

/-- What can be revealed is identified by positions in the text. -/
theorem Composed.reveals_le (h : Composed style limit o f) :
    ∀ id ∈ f.reveals, id ≤ o + f.text.length := by
  induction h with
  | chars | linked | image => exact fun _ hid => nomatch hid
  | @append o f g _ _ hf hg =>
      have hsum : (f ++ g).text.length = f.text.length + g.text.length :=
        AnnotatedText.length_append ..
      intro id hid
      rcases List.mem_append.mp hid with hid | hid
      · have := hf id hid
        omega
      · have := hg id hid
        omega
  | marked _ _ hf => exact hf
  | @span o f look _ hf =>
      intro id hid
      rcases List.mem_append.mp hid with hid | hid
      · split at hid
        · rw [List.mem_singleton.mp hid]
          exact Nat.le_add_right ..
        · exact nomatch hid
      · exact hf id hid
  | @details o before after label summary hlabel _ _ _ hbefore hsummary hafter =>
      have hsum := length_asDetails o before after label
      have hshown : label.text.length
          = style.summaryPlaceholder.toList.length + summary.text.length := by
        rw [hlabel]
        exact AnnotatedText.length_append ..
      -- the element has its own position for its id, and its parts lie inside it
      intro id hid
      rcases List.mem_cons.mp hid with rfl | hid
      · exact Nat.le_add_right ..
      · rcases List.mem_append.mp hid with hid | hid
        · rcases List.mem_append.mp hid with hid | hid
          · obtain ⟨f, rfl, hid⟩ := mem_reveals_hidden hid
            rw [length_hidden] at hsum
            have := hbefore f rfl id hid
            omega
          · rw [reveals_marked, hlabel] at hid
            have := hsummary id hid
            omega
        · obtain ⟨f, rfl, hid⟩ := mem_reveals_hidden hid
          rw [length_hidden] at hsum
          have := hafter f rfl id hid
          omega

end Fragment

/-- Numbers of 32 bits have not too many digits. -/
theorem isShort_of_isInt32 {n : Int} (h : Text.isInt32 n = true) : Text.IsShort n := by
  simp only [Text.isInt32, Bool.and_eq_true, decide_eq_true_eq] at h
  exact digits_le_limit (by omega)

theorem isShort_of_lt {n : Nat} (h : n < 4294967296) : Text.IsShort n :=
  digits_le_limit h

namespace Body

theorem mem_setImage {key : String} {info : ImageInfo} {images : List (String × ImageInfo)}
    {i : String × ImageInfo} (h : i ∈ setImage key info images) : i = (key, info) ∨ i ∈ images := by
  induction images with
  | nil => exact Or.inl (List.mem_singleton.mp h)
  | cons image images ih =>
      rw [setImage] at h
      split at h
      · exact (List.mem_cons.mp h).imp_right (List.mem_cons_of_mem _)
      · rcases List.mem_cons.mp h with rfl | h
        · exact Or.inr (List.mem_cons_self ..)
        · exact (ih h).imp_right (List.mem_cons_of_mem _)

/-- Keys stay different when an image is put in its place. -/
theorem nodup_setImage {key : String} {info : ImageInfo} {images : List (String × ImageInfo)}
    (h : (images.map Prod.fst).Nodup) : ((setImage key info images).map Prod.fst).Nodup := by
  induction images with
  | nil => simp [setImage]
  | cons image images ih =>
      obtain ⟨hkey, hrest⟩ := List.nodup_cons.mp h
      rw [setImage]
      split
      · rename_i heq
        rw [List.map_cons, List.nodup_cons, ← heq]
        exact ⟨hkey, hrest⟩
      · rename_i hne
        rw [List.map_cons, List.nodup_cons]
        refine ⟨fun hmem => ?_, ih hrest⟩
        rcases mem_keys_setImage.mp hmem with heq | hmem
        · exact hne heq
        · exact hkey hmem

/-- The images of a body are among those of the fragment that makes it up, each key
    once. -/
theorem images_ofFragment (f : Fragment) :
    ((ofFragment f).images.map Prod.fst).Nodup ∧ ∀ i ∈ (ofFragment f).images, i ∈ f.images := by
  -- said of any images that are there before, as each step adds to what it finds
  have hfold : ∀ images acc : List (String × ImageInfo), (acc.map Prod.fst).Nodup →
      ((images.foldl (fun acc image => setImage image.1 image.2 acc) acc).map Prod.fst).Nodup
        ∧ ∀ i ∈ images.foldl (fun acc image => setImage image.1 image.2 acc) acc,
          i ∈ acc ∨ i ∈ images := by
    intro images
    induction images with
    | nil => exact fun acc hacc => ⟨hacc, fun i hi => Or.inl hi⟩
    | cons image images ih =>
        intro acc hacc
        obtain ⟨hnodup, hmem⟩ := ih (setImage image.1 image.2 acc) (nodup_setImage hacc)
        refine ⟨hnodup, fun i hi => ?_⟩
        rcases hmem i hi with hi | hi
        · rcases mem_setImage hi with rfl | hi
          · exact Or.inr (List.mem_cons_self ..)
          · exact Or.inl hi
        · exact Or.inr (List.mem_cons_of_mem _ hi)
  obtain ⟨hnodup, hmem⟩ := hfold f.images [] .nil
  exact ⟨hnodup, fun i hi => (hmem i hi).resolve_left List.not_mem_nil⟩

/-- A body that is read from a tree is made up by a composed fragment whose images
    have sizes of 32 bits. -/
theorem ofNodes_composed_images {settings : Settings} (hstyle : settings.style.KeepsLinkContent)
    {nodes : List Markup.Node} {body : Body} {log : List LogRecord}
    (h : ofNodes settings nodes = .ok (body, log)) :
    ∃ f, Composed settings.style Obstacle.depthLimit 0 f ∧ body = ofFragment f
      ∧ ∀ i ∈ body.images, ∀ n ∈ i.2.numbers, Text.isInt32 n = true := by
  obtain ⟨f, hf, hbody⟩ := ofNodes_composed hstyle h
  refine ⟨f, hf, hbody, ?_⟩
  rw [ofNodes] at h
  -- a tree that is shown as plain text has no images
  split at h
  · cases h
    intro i hi
    have hmem := List.mem_map_of_mem (f := Prod.snd) ((images_ofFragment _).2 i hi)
    rw [render, images_renderAll] at hmem
    exact Content.isInt32_images_ofNodes nodes i.2 hmem
  · cases h
  · cases h
    exact fun i hi => absurd hi List.not_mem_nil

/-- The body of a tree can be stored. -/
theorem isStorable_of_nodes {settings : Settings} (hstyle : settings.style.KeepsLinkContent)
    {nodes : List Markup.Node} {body : Body} {log : List LogRecord}
    (h : ofNodes settings nodes = .ok (body, log)) (hlength : body.text.length < 2147483648) :
    body.IsStorable := by
  obtain ⟨f, hf, rfl, himages⟩ := ofNodes_composed_images hstyle h
  have hwell : f.text.WellFormed := hf.bracketed.wellFormed
  refine ⟨⟨hwell, (images_ofFragment f).1, ?_⟩, ?_⟩
  · intro r hr d hd
    obtain ⟨e, rfl⟩ := hf.onlyEmphasizes r hr d hd
    cases e <;> rfl
  · intro n hn
    rcases List.mem_append.mp hn with hn | hn
    · rcases List.mem_append.mp hn with hn | hn
      · obtain ⟨r, hr, hn⟩ := List.mem_flatMap.mp hn
        replace hr := (List.mem_filter.mp hr).1
        obtain ⟨hstart, hstop⟩ := hwell r hr
        have hlength : f.text.length < 2147483648 := hlength
        rcases List.mem_cons.mp hn with rfl | hn
        · exact isShort_of_lt (by omega)
        · rcases List.mem_cons.mp hn with rfl | hn
          · exact isShort_of_lt (by omega)
          · -- an emphasis has no colour
            split at hn
            · exact absurd hn List.not_mem_nil
            · rename_i d hd
              obtain ⟨e, rfl⟩ := hf.onlyEmphasizes r hr d hd
              cases e <;> exact absurd hn List.not_mem_nil
      · obtain ⟨i, hi, hn⟩ := List.mem_flatMap.mp hn
        exact isShort_of_isInt32 (himages i hi n hn)
    · obtain ⟨id, hid, rfl⟩ := List.mem_map.mp (IdSet.mem_ofList.mp hn)
      have hlength : f.text.length < 2147483648 := hlength
      have := hf.reveals_le id hid
      exact isShort_of_lt (by omega)

end Body

end MessageBody
