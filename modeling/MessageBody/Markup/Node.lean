import MessageBody.Text.Blank
import MessageBody.Text.Spacing

/-! # The tree of a document

    A node is a run of text or an element with attributes and child nodes. -/

namespace MessageBody.Markup

/-- A node of the tree. -/
inductive Node where
  | text (data : List Char)
  | element (name : String) (attributes : List (String × String)) (children : List Node)

namespace Node

mutual

/-- All text in the node, in document order. -/
def data : Node → List Char
  | .text data => data
  | .element _ _ children => dataOf children

/-- All text in the nodes, in document order. -/
def dataOf : List Node → List Char
  | [] => []
  | node :: nodes => node.data ++ dataOf nodes

end

/-- The text in nodes as it is shown, without spaces at its ends. -/
def shownText (nodes : List Node) : List Char :=
  Text.trim (· == ' ') (Text.shown (dataOf nodes))

/-- The child nodes of an element. -/
def children : Node → List Node
  | .text _ => []
  | .element _ _ children => children

/-- The name of an element; text goes by the name `#text`. -/
def name : Node → String
  | .text _ => "#text"
  | .element name _ _ => name

/-- A run of text that holds nothing but white space of markup. -/
def isBlankText : Node → Bool
  | .text data => data.all Text.isMarkupBlank
  | .element _ _ _ => false

/-- The first node that is not blank text. -/
def firstVisible? (nodes : List Node) : Option Node :=
  nodes.find? fun node => !node.isBlankText

end Node

end MessageBody.Markup
