import Mathlib.Data.List.Forall2
import MessageBody.Proofs.RunningLinks
import MessageBody.Proofs.StoredTrees
import MessageBody.Proofs.WellFormedTrees

/-! # Images and what is known of them

    Every image of a tree is shown by a text of its own, in document order, and the
    annotation on that text names a key under which the body keeps what is known of the
    image.  The key is made of the address alone.  Images of one address therefore share
    a key, and what is kept under it is what is known of the last of them:
    `illustrated_of_nodes`. -/

namespace MessageBody

open Fragment AnnotatedText

/-! ## The images of trees -/

namespace Markup.Node

mutual

/-- What is known of the images from the media store in a node, in document order. -/
def images : Node → List ImageInfo
  | .text _ => []
  | .element name attributes children =>
      (if name = "img" then (Content.imageInfo? attributes).toList else []) ++ imagesOf children

/-- What is known of the images from the media store in nodes, in document order. -/
def imagesOf : List Node → List ImageInfo
  | [] => []
  | node :: nodes => node.images ++ imagesOf nodes

end

/-- An element is an image, or it has the images inside it. -/
theorem images_ofElement {name : String} (attributes : List (String × String))
    {cs : List Content} (hvoid : isVoid name = true → cs = []) :
    (Content.ofElement name attributes cs).images
      = (if name = "img" then (Content.imageInfo? attributes).toList else [])
        ++ Content.imagesOf cs := by
  unfold Content.ofElement
  split
  -- these elements do more with their content than wrap it
  case h_19 => rw [Content.images, Content.imagesOf_withoutFirstBreak]; rfl
  case h_20 => rw [hvoid (by decide)]; rfl
  case h_21 => rw [Content.images_detailsOf]; rfl
  case h_22 => rw [hvoid (by decide)]; rfl
  case h_24 =>
    rw [hvoid (by decide), if_pos rfl]
    cases Content.imageInfo? attributes <;> rfl
  case h_28 =>
    rename_i himg _ _ _
    rw [if_neg himg]
    rfl
  all_goals rfl

mutual

/-- Understanding a tree keeps its images. -/
theorem images_ofNode : (node : Node) → node.isWellFormed = true →
    (Content.ofNode node).images = node.images
  | .text data, _ => rfl
  | .element name attributes children, h => by
      obtain ⟨hvoid, hchildren⟩ := isWellFormed_element_iff.mp h
      rw [Content.ofNode, images, ← imagesOf_ofNodes children hchildren]
      refine images_ofElement attributes fun hname => ?_
      rw [hvoid hname, Content.ofNodes]

/-- The images of a tree are those that its elements name. -/
theorem imagesOf_ofNodes : (nodes : List Node) → (∀ node ∈ nodes, node.isWellFormed = true) →
    Content.imagesOf (Content.ofNodes nodes) = imagesOf nodes
  | [], _ => rfl
  | node :: nodes, h => by
      obtain ⟨hnode, hnodes⟩ := List.forall_mem_cons.mp h
      rw [Content.ofNodes, Content.imagesOf, imagesOf, images_ofNode node hnode,
        imagesOf_ofNodes nodes hnodes]

end

end Markup.Node

/-! ## The text of images -/

/-- The item is the annotation of an image. -/
def Item.isImage (item : Item) : Bool :=
  item.tag? == some .inlineImage

/-- The range `r` of a document is the annotation of an image: it names its key and covers
    the text that stands for it. -/
def Range.ShowsImage (style : RenderStyle) (doc : List Char) (info : ImageInfo) (r : Range) :
    Prop :=
  r.item = .note .inlineImage (imageKey info) ∧ r.slice doc = (style.imageText info).toList

/-- The images of a fragment, in the order in which they are entered under their keys, are
    those that the ranges `rs` of the document show. -/
def Fragment.ImagesShownBy (style : RenderStyle) (doc : List Char) (f : Fragment)
    (rs : List Range) : Prop :=
  List.Forall₂ (fun (image : String × ImageInfo) (r : Range) =>
    image.1 = imageKey image.2 ∧ r.ShowsImage style doc image.2) f.images rs

/-- Content is not enclosed in images. -/
theorem Item.Encloses.isImage_eq {limit : Nat} {item : Item} (h : item.Encloses limit) :
    item.isImage = false := by
  cases h with
  | emphasis | webLink | heading => rfl
  | deepLink link => cases link <;> rfl
  | bare tag h | counted tag h =>
      simp only [List.mem_cons, List.not_mem_nil, or_false] at h
      rcases h with rfl | rfl | rfl | rfl | h <;> first | rfl | (subst h; rfl)

/-- A link is no image. -/
theorem isImage_eq_of_isLink {item : Item} (h : item.isLink = true) : item.isImage = false := by
  refine beq_eq_false_iff_ne.mpr fun htag => ?_
  rw [Item.isLink, htag] at h
  exact absurd h (by decide)

namespace Fragment

variable {style : RenderStyle} {doc : List Char} {limit o : Nat} {f : Fragment}

/-- What a details element hides has the images that it has where it is shown. -/
theorem imagesShownBy_hidden (id : Nat) {f? : Option Fragment}
    (h : ∀ f, f? = some f → StandsAt doc o f.text.text →
      f.ImagesShownBy style doc (f.text.selected Item.isImage o))
    (hstands : StandsAt doc o (hidden id f?).text.text) :
    (hidden id f?).ImagesShownBy style doc ((hidden id f?).text.selected Item.isImage o) := by
  cases f? with
  | none => exact .nil
  | some f =>
      rw [hidden, text_marked, selected_marked_of_not rfl]
      exact h f rfl hstands

/-- Wherever a fragment stands in a document, its images are shown there in order. -/
theorem Composed.imagesShownBy (h : Composed style limit o f)
    (hstands : StandsAt doc o f.text.text) :
    f.ImagesShownBy style doc (f.text.selected Item.isImage o) := by
  induction h with
  | chars s => exact .nil
  | @linked o s =>
      have hnone : (linkedText true s).selected Item.isImage o = [] :=
        selected_eq_nil fun r hr => isImage_eq_of_isLink (isLink_of_mem_linkedText hr)
      rw [ofText, hnone]
      exact .nil
  | image info => exact .cons ⟨rfl, rfl, hstands.slice_eq⟩ .nil
  | append _ _ hf hg =>
      rw [text_append, selected_append]
      exact List.rel_append (hf hstands.left) (hg hstands.right)
  | marked hitem _ hf =>
      rw [text_marked, selected_marked_of_not hitem.isImage_eq]
      exact hf hstands
  | span look _ hf =>
      rw [asSpan, text_marked, selected_marked_of_not rfl]
      exact hf hstands
  | @details o before after label summary hlabel _ _ _ hbefore hsummary hafter =>
      -- the three parts stand one after the other
      have hparts : StandsAt doc o ((hidden o before).text.text ++ label.text.text
        ++ (hidden o after).text.text) := hstands
      have hbeside := hparts.left
      have hopening := imagesShownBy_hidden o hbefore hbeside.left
      have hclosing := imagesShownBy_hidden o hafter (by
        have := hparts.right
        rwa [List.length_append, ← Nat.add_assoc] at this)
      have hinside : label.ImagesShownBy style doc
          (label.text.selected Item.isImage (o + (hidden o before).text.length)) := by
        have hstands := hbeside.right
        subst hlabel
        rw [text_append, selected_append]
        exact hsummary hstands.right
      have hbody := List.rel_append (List.rel_append hopening hinside) hclosing
      have hselected : (asDetails o before label after).text.selected Item.isImage o
          = (hidden o before).text.selected Item.isImage o
            ++ label.text.selected Item.isImage (o + (hidden o before).text.length)
            ++ (hidden o after).text.selected Item.isImage
              (o + (hidden o before).text.length + label.text.length) := by
        show ((hidden o before).text ++ label.text.marked _ ++ (hidden o after).text).selected
          Item.isImage o = _
        rw [selected_append, selected_append, selected_marked_of_not rfl, length_append,
          length_marked, ← Nat.add_assoc]
      rw [hselected]
      exact hbody

end Fragment

/-! ## The images of bodies -/

namespace Body

theorem lookup_cons_image (key : String) (image : String × ImageInfo)
    (images : List (String × ImageInfo)) : (image :: images).lookup key
      = if key = image.1 then some image.2 else images.lookup key := by
  rw [List.lookup_cons]
  by_cases hkey : key = image.1
  · rw [if_pos hkey, beq_iff_eq.mpr hkey]
  · rw [if_neg hkey, beq_eq_false_iff_ne.mpr hkey]

/-- An image that was put is found by its key, and the others as before. -/
theorem lookup_setImage (key k : String) (info : ImageInfo) (images : List (String × ImageInfo)) :
    (setImage k info images).lookup key = if key = k then some info else images.lookup key := by
  induction images with
  | nil => rw [setImage, lookup_cons_image]
  | cons image images ih =>
      rw [setImage, lookup_cons_image key image]
      split
      · rename_i hk
        rw [lookup_cons_image, hk]
        exact ite_congr rfl (fun _ => rfl) fun hkey => (if_neg hkey).symm
      · rename_i hk
        rw [lookup_cons_image, ih]
        by_cases hkey : key = image.1
        · rw [if_pos hkey, if_pos hkey, if_neg (hkey ▸ hk)]
        · rw [if_neg hkey, if_neg hkey]

/-- Under a key the body has the last image of the fragment that has it. -/
theorem lookup_ofFragment (key : String) (f : Fragment) :
    (ofFragment f).images.lookup key = f.images.reverse.lookup key := by
  -- said of any images that are already there, as each step adds to what it finds
  have hfold : ∀ images acc : List (String × ImageInfo),
      (images.foldl (fun acc image => setImage image.1 image.2 acc) acc).lookup key
        = (images.reverse.lookup key).or (acc.lookup key) := by
    intro images
    induction images with
    | nil => exact fun acc => rfl
    | cons image images ih =>
        intro acc
        rw [List.foldl_cons, ih, lookup_setImage, List.reverse_cons, List.lookup_append,
          Option.or_assoc, lookup_cons_image]
        by_cases hkey : key = image.1
        · rw [if_pos hkey, if_pos hkey, Option.some_or]
        · rw [if_neg hkey, if_neg hkey]
          rfl
  exact (hfold f.images []).trans Option.or_none

end Body

/-- Images share a key only if they share their address. -/
theorem imageKey_inj {info info' : ImageInfo} : imageKey info = imageKey info' ↔
    info.uri = info'.uri := by
  rw [imageKey, imageKey, String.append_right_inj]

/-- Images that are entered under their keys are found by their addresses. -/
theorem lookup_imageKey (info : ImageInfo) (images : List (String × ImageInfo))
    (h : ∀ image ∈ images, image.1 = imageKey image.2) :
    images.lookup (imageKey info) = (images.map Prod.snd).find? fun i => i.uri == info.uri := by
  induction images with
  | nil => rfl
  | cons image images ih =>
      obtain ⟨himage, himages⟩ := List.forall_mem_cons.mp h
      have hkey : (imageKey info == image.1) = (image.2.uri == info.uri) := by
        rw [himage, Bool.eq_iff_iff, beq_iff_eq, beq_iff_eq, imageKey_inj, eq_comm]
      rw [List.lookup_cons, List.map_cons, List.find?_cons, hkey, ih himages]

/-- The images of a tree are those that a body shows and knows of. -/
structure Body.Illustrated (style : RenderStyle) (infos : List ImageInfo) (body : Body) :
    Prop where
  /-- The annotations of images stand for the images of the tree, one for each, on the text
      that stands for it. -/
  shown : List.Forall₂ (Range.ShowsImage style body.text.text) infos
    (body.text.tagged .inlineImage)
  /-- The key of an image is that of what is known of the last image of its address. -/
  known : ∀ info ∈ infos, body.images.lookup (imageKey info)
    = infos.reverse.find? fun i => i.uri == info.uri

/-- **The images of message bodies**: whatever tree a body is read from, each image in it
    is annotated with its key, and under this key the body has what is known of the last
    image of the same address.  So every image finds what is known of itself, rather than
    of another image, just in case images of one address do not differ in anything.  Every
    tree that is read from markup is well-formed. -/
theorem illustrated_of_nodes (settings : Settings) (hstyle : settings.style.KeepsLinkContent)
    (nodes : List Markup.Node) (h : Markup.Node.areWellFormed nodes = true) :
    (Body.ofContent settings (Content.ofNodes nodes)).Illustrated settings.style
        (Markup.Node.imagesOf nodes)
      ∧ ((∀ info ∈ Markup.Node.imagesOf nodes,
          (Body.ofContent settings (Content.ofNodes nodes)).images.lookup (imageKey info)
            = some info)
        ↔ ∀ info ∈ Markup.Node.imagesOf nodes, ∀ info' ∈ Markup.Node.imagesOf nodes,
          info.uri = info'.uri → info = info')
      ∧ ∀ source, Markup.Node.areWellFormed (Markup.parse source) = true := by
  have himages : (Body.render settings (Content.ofNodes nodes)).images.map Prod.snd
      = Markup.Node.imagesOf nodes := by
    rw [Body.render, images_renderAll,
      Markup.Node.imagesOf_ofNodes nodes (Markup.Node.areWellFormed_iff.mp h)]
  obtain ⟨hkeys, hshown⟩ := (List.forall₂_and_left _ _).mp
    ((Body.render_composed hstyle (Content.ofNodes nodes)).imagesShownBy (StandsAt.refl _))
  rw [selected_zero] at hshown
  have hknown : ∀ info ∈ Markup.Node.imagesOf nodes,
      (Body.ofContent settings (Content.ofNodes nodes)).images.lookup (imageKey info)
        = (Markup.Node.imagesOf nodes).reverse.find? fun i => i.uri == info.uri := by
    intro info _
    rw [Body.ofContent, Body.lookup_ofFragment, lookup_imageKey info _ fun image himage =>
      hkeys image (List.mem_reverse.mp himage), List.map_reverse, himages]
  refine ⟨⟨?_, hknown⟩, ⟨?_, ?_⟩, Markup.areWellFormed_parse⟩
  · rw [← himages, List.forall₂_map_left_iff]
    exact hshown
  · -- two images of one address find the same
    intro hown info hinfo info' hinfo' huri
    have hlookup := hown info' hinfo'
    rw [← imageKey_inj.mpr huri, hown info hinfo] at hlookup
    exact Option.some.inj hlookup
  · intro hsame info hinfo
    rw [hknown info hinfo]
    cases hlast : (Markup.Node.imagesOf nodes).reverse.find? fun i => i.uri == info.uri with
    | none =>
        have hne := List.find?_eq_none.mp hlast info (List.mem_reverse.mpr hinfo)
        exact absurd (beq_self_eq_true info.uri) hne
    | some last =>
        have hmem := List.mem_reverse.mp (List.mem_of_find?_eq_some hlast)
        have huri := beq_iff_eq.mp (List.find?_some (p := fun i : ImageInfo => i.uri == info.uri) hlast)
        rw [hsame last hmem info hinfo huri]

/-- Two images of one address, the second of them in a deep link, and one of another
    address in the label of details, behind an image from elsewhere. -/
def sharedAddresses : List Markup.Node :=
  [.element "img" [("src", "mxc://s/i"), ("title", "a"), ("width", "16")] [],
   .element "details" []
    [.element "summary" [] [.element "img" [("src", "http://s/i")] [],
      .element "img" [("src", "mxc://s/j")] []],
     .element "a" [("href", "https://matrix.to/#/@u:s")]
      [.element "img" [("src", "mxc://s/i"), ("alt", "b"), ("data-mx-emoticon", "")] []]]]

/-- The first image finds what is known of the last. -/
theorem illustrated_sharedAddresses :
    (Body.ofContent {} (Content.ofNodes sharedAddresses)).Illustrated .standard
        (Markup.Node.imagesOf sharedAddresses)
      ∧ Markup.Node.imagesOf sharedAddresses
        = [⟨"mxc://s/i", false, some 16, none, some "a", none⟩,
          ⟨"mxc://s/j", false, none, none, none, none⟩,
          ⟨"mxc://s/i", true, none, none, none, some "b"⟩]
      ∧ (Body.ofContent {} (Content.ofNodes sharedAddresses)).images
        = [("mx:IMG:mxc://s/i", ⟨"mxc://s/i", true, none, none, none, some "b"⟩),
          ("mx:IMG:mxc://s/j", ⟨"mxc://s/j", false, none, none, none, none⟩)] :=
  ⟨(illustrated_of_nodes {} RenderStyle.standard_keepsLinkContent sharedAddresses
    (by decide)).1, by decide +kernel, by decide +kernel⟩

end MessageBody
