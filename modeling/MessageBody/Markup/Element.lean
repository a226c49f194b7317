/-! # Kinds of element

    What the reading of markup has to know of an element's name: whether it has
    content at all, how its content is read, which other elements it ends, and
    how far an end tag reaches. -/

namespace MessageBody.Markup

/-- The elements that never have content. -/
def isVoid (name : String) : Bool :=
  ["area", "base", "basefont", "br", "col", "frame", "hr", "img", "input", "isindex", "link",
    "meta", "param"].contains name

/-- How the content of an element is read. -/
inductive ContentKind where
  /-- As markup. -/
  | markup
  /-- As text up to the end tag. -/
  | raw
  /-- As text up to the end tag that is not hidden in it. -/
  | script
  /-- As text with references up to the end tag. -/
  | escapable
  /-- As text up to the end of the document. -/
  | plain
  deriving DecidableEq

/-- How the content of the element `name` is read. -/
def ContentKind.ofName (name : String) : ContentKind :=
  if name = "script" then .script
  else if ["style", "xmp", "iframe", "noembed", "noframes"].contains name then .raw
  else if ["textarea", "title"].contains name then .escapable
  else if name = "plaintext" then .plain
  else .markup

/-- How hard an element is to close from outside: an end tag does not reach past
    an element of higher priority. -/
def priority (name : String) : Nat :=
  if name = "div" then 150
  else if ["td", "th"].contains name then 160
  else if name = "tr" then 170
  else if ["thead", "tbody", "tfoot"].contains name then 180
  else if name = "table" then 190
  else if ["head", "body"].contains name then 200
  else if name = "html" then 220
  else 100

/-- The elements whose start ends the open element `name`. -/
def endedBy (name : String) : List String :=
  match name with
  | "a" => ["a", "fieldset", "table", "td", "th"]
  | "address" => ["dd", "dl", "dt", "form", "li", "ul"]
  | "b" => ["center", "p", "td", "th"]
  | "big" => ["p"]
  | "caption" => ["col", "colgroup", "tbody", "tfoot", "thead", "tr"]
  | "colgroup" => ["colgroup", "tbody", "tfoot", "thead", "tr"]
  | "dd" => ["dt"]
  | "dir" => ["dd", "dl", "dt", "form", "ul"]
  | "dl" => ["form", "li"]
  | "dt" => ["dd", "dl"]
  | "font" => ["center", "td", "th"]
  | "form" => ["form"]
  | "h1" | "h2" | "h3" | "h4" | "h5" | "h6" => ["fieldset", "form", "li", "p", "table"]
  | "i" => ["center", "p", "td", "th"]
  | "legend" => ["fieldset"]
  | "li" => ["li"]
  | "listing" => ["dd", "dl", "dt", "fieldset", "form", "li", "table", "ul"]
  | "menu" => ["dd", "dl", "dt", "form", "ul"]
  | "ol" => ["form"]
  | "option" => ["optgroup", "option"]
  | "p" =>
      ["body", "head", "address", "blockquote", "caption", "center", "col", "colgroup", "dd",
        "dir", "div", "dl", "dt", "fieldset", "form", "frameset", "h1", "h2", "h3", "h4", "h5",
        "h6", "hr", "li", "listing", "menu", "ol", "p", "pre", "table", "tbody", "td", "tfoot",
        "th", "title", "tr", "ul", "xmp"]
  | "pre" => ["dd", "dl", "dt", "fieldset", "form", "li", "table", "ul"]
  | "s" => ["p"]
  | "small" => ["p"]
  | "span" => ["td", "th"]
  | "strike" => ["p"]
  | "tbody" => ["tbody", "tfoot"]
  | "td" => ["tbody", "td", "tfoot", "th", "tr"]
  | "tfoot" => ["tbody"]
  | "th" => ["tbody", "td", "tfoot", "th", "tr"]
  | "thead" => ["tbody", "tfoot"]
  | "tr" => ["tbody", "tfoot", "tr"]
  | "tt" => ["p"]
  | "u" => ["p", "td", "th"]
  | "ul" => ["address", "form", "menu", "pre"]
  | _ => []

end MessageBody.Markup
