import MessageBody.IdSet
import MessageBody.Log
import MessageBody.Markup.Tree
import MessageBody.Render.Walk

/-! # Message bodies

    A body is what a message shows: annotated text, the images in it, and the ids
    of what can be revealed.  It is read from markup or from plain text.  Markup
    that cannot be rendered as such shows as plain text, with a warning in the
    log; only a number of too many digits in an attribute is refused. -/

namespace MessageBody

/-- What a message shows. -/
structure Body where
  text : AnnotatedText
  /-- The images by their keys, each key once. -/
  images : List (String × ImageInfo)
  /-- The ids of spoilers and details. -/
  revealable : IdSet

/-- How a body is read. -/
structure Settings where
  style : RenderStyle := .standard
  /-- Whether the mention of the whole room is replaced. -/
  allowMention : Bool := true
  /-- Whether line breaks are made visible. -/
  labelled : Bool := false

/-- The context at the outermost level. -/
def Settings.context (s : Settings) : Context where
  style := s.style
  allowMention := s.allowMention
  labelled := s.labelled

/-! ## What keeps markup from being rendered -/

/-- Why a tree cannot be rendered. -/
inductive Obstacle where
  /-- An attribute holds a number of too many digits. -/
  | tooManyDigits (refusal : Text.TooManyDigits)
  /-- Elements are nested too deeply. -/
  | tooDeep
  deriving DecidableEq

namespace Obstacle

/-- How deeply elements may be nested. -/
def depthLimit : Nat := 490

/-- The obstacle in an attribute that is read as a number. -/
def inNumber? (name : String) (attributes : List (String × String)) : Option Obstacle :=
  (Content.attribute? name attributes).bind fun value =>
    match Text.wholeNumber value.toList with
    | .error refusal => some (.tooManyDigits refusal)
    | .ok _ => none

/-- The obstacle in the attributes of an element; `inOrdered` tells whether the
    list around it is ordered. -/
def inAttributes? (inOrdered : Bool) (name : String) (attributes : List (String × String)) :
    Option Obstacle :=
  match name with
  | "ol" => inNumber? "start" attributes
  | "li" => if inOrdered then inNumber? "value" attributes else none
  | "img" =>
      if (Content.imageInfo? attributes).isSome then
        (inNumber? "width" attributes).or (inNumber? "height" attributes)
      else none
  | _ => none

/-- Whether the list around the children of an element is ordered. -/
def insideOrdered (inOrdered : Bool) (name : String) : Bool :=
  name == "ol" || (inOrdered && name != "ul")

mutual

/-- The first obstacle in a node; `depth` more levels may be nested. -/
def inNode? (inOrdered : Bool) (depth : Nat) : Markup.Node → Option Obstacle
  | .text _ => none
  | .element name attributes children =>
      match depth with
      | 0 => some .tooDeep
      | depth + 1 =>
          (inAttributes? inOrdered name attributes).or
            (inNodes? (insideOrdered inOrdered name) depth children)

/-- The first obstacle in nodes. -/
def inNodes? (inOrdered : Bool) (depth : Nat) : List Markup.Node → Option Obstacle
  | [] => none
  | node :: nodes =>
      (inNode? inOrdered depth node).or (inNodes? inOrdered depth nodes)

end

end Obstacle

/-! ## Reading bodies -/

namespace Body

/-- Nothing to show. -/
def empty : Body := ⟨.empty, [], .empty⟩

/-- Images with one more, in the place of one of the same key. -/
def setImage (key : String) (info : ImageInfo) :
    List (String × ImageInfo) → List (String × ImageInfo)
  | [] => [(key, info)]
  | (k, i) :: rest => if k = key then (key, info) :: rest else (k, i) :: setImage key info rest

/-- The body that a fragment makes up.  Of two images with one key the later
    counts. -/
def ofFragment (f : Fragment) : Body where
  text := f.text
  images := f.images.foldl (fun images (key, info) => setImage key info images) []
  revealable := .ofList (f.reveals.map Int.ofNat)

/-- The body of a plain text: its mentions and addresses are understood, nothing
    else. -/
def ofPlain (settings : Settings) (s : List Char) : Body :=
  ofFragment (.ofText (settings.context.richText s))

/-- The fragment that content makes up. -/
def render (settings : Settings) (content : List Content) : Fragment :=
  (renderAll content settings.context none (.startAt 0) 1).fragment

/-- The body of content. -/
def ofContent (settings : Settings) (content : List Content) : Body :=
  ofFragment (render settings content)

/-- The body of a tree, and the log.  Where elements are nested too deeply, only
    the text of the tree shows. -/
def ofNodes (settings : Settings) (nodes : List Markup.Node) :
    Except Text.TooManyDigits (Body × List LogRecord) :=
  match Obstacle.inNodes? false Obstacle.depthLimit nodes with
  | none => .ok (ofContent settings (Content.ofNodes nodes), [])
  | some (.tooManyDigits refusal) => .error refusal
  | some .tooDeep =>
      .ok (ofPlain settings (Markup.Node.shownText nodes),
        [.warning ("formatted body is nested too deeply to render, "
          ++ "rendering its text as plain text")])

/-- The body of markup, and the log, with `build` to build the tree.  Where there
    is no tree, the markup itself shows. -/
def ofMarkup (build : List Char → Except String (List Markup.Node)) (settings : Settings)
    (source : List Char) : Except Text.TooManyDigits (Body × List LogRecord) :=
  if source.all Text.isBlank then .ok (empty, [])
  else
    match build source with
    | .error reason =>
        .ok (ofPlain settings source,
          [.warning ("could not parse formatted body, rendering it as plain text: " ++ reason)])
    | .ok nodes => ofNodes settings nodes

/-- The body of markup, and the log. -/
def parse (settings : Settings) (source : List Char) :
    Except Text.TooManyDigits (Body × List LogRecord) :=
  ofMarkup (fun s => .ok (Markup.parse s)) settings source

end Body

end MessageBody
