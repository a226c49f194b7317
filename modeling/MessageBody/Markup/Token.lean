import MessageBody.Markup.Reference
import MessageBody.Text.Blank
import MessageBody.Text.Search

/-! # Tokens of markup

    Source is read as a sequence of tokens: start tags, end tags, runs of text,
    and stretches that mean nothing (comments, declarations).  A tag that is not
    closed before the end of the source ends the reading. -/

namespace MessageBody.Markup

open Text

/-- A start tag. -/
structure StartTag where
  name : String
  attributes : List (String × String)
  /-- Whether it ends in `/>`. -/
  selfClosing : Bool
  deriving DecidableEq

/-- A piece of markup source. -/
inductive Token where
  | start (tag : StartTag)
  | stop (name : String)
  | text (data : List Char)
  | nothing
  deriving DecidableEq

/-- The bytes that a name may take. -/
def nameRoom : Nat := 100

/-- The characters of `s` that fit into `room` bytes.  One that does not fit is
    left out, and a shorter one after it may still fit. -/
def fitting : (room : Nat) → List Char → List Char
  | _, [] => []
  | room, c :: cs =>
      if c.utf8Size ≤ room then c :: fitting (room - c.utf8Size) cs else fitting room cs

/-- A name in lower case, as far as there is room for it. -/
def nameOf (s : List Char) : String :=
  String.ofList (fitting nameRoom (s.map asciiLower))

/-- Whether `c` ends the name of a tag. -/
def endsTagName (c : Char) : Bool :=
  isMarkupBlank c || c == '/' || c == '>'

/-- Whether `c` ends the name of an attribute. -/
def endsAttributeName (c : Char) : Bool :=
  endsTagName c || c == '='

/-- `s` from the next attribute or the end of the tag: white space is skipped,
    and slashes that do not end the tag. -/
def skipGap : List Char → List Char
  | [] => []
  | c :: cs =>
      if isMarkupBlank c then skipGap cs
      else if c == '/' && cs.head? != some '>' then skipGap cs
      else c :: cs

/-- The value of an attribute at the start of `s`, and the rest; nothing when a
    quotation mark is not closed. -/
def attributeValue? : List Char → Option (List Char × List Char)
  | [] => some ([], [])
  | c :: cs =>
      if c == '\x22' || c == '\x27' then cutAt? c cs
      else some ((c :: cs).span fun c => !(isMarkupBlank c || c == '>'))

/-- The attributes that say what they say by being there: without a value, they
    have their own name for one. -/
def isSwitch (name : String) : Bool :=
  ["checked", "compact", "declare", "defer", "disabled", "ismap", "multiple", "nohref",
    "noresize", "noshade", "nowrap", "readonly", "selected"].contains name

/-- The value of an attribute that is given none. -/
def impliedValue (name : String) : String :=
  if isSwitch name then name else ""

/-- The attributes with one more at the end, unless its name is taken. -/
def addAttribute (name value : String) (attributes : List (String × String)) :
    List (String × String) :=
  if (attributes.lookup name).isSome then attributes else attributes ++ [(name, value)]

/-- The rest of a tag after its name: its attributes, whether it ends in `/>`, and
    what follows it; nothing when the source ends first.  `fuel` bounds the
    number of attributes. -/
def attributesFrom : Nat → List (String × String) → List Char →
    Option (List (String × String) × Bool × List Char)
  | 0, _, _ => none
  | fuel + 1, attributes, s =>
      match skipGap s with
      | [] => none
      | '>' :: rest => some (attributes, false, rest)
      | '/' :: '>' :: rest => some (attributes, true, rest)
      | c :: cs =>
          let (tail, afterName) := cs.span fun c => !endsAttributeName c
          let name := nameOf (c :: tail)
          match afterName.dropWhile isMarkupBlank with
          | '=' :: rest =>
              match attributeValue? (rest.dropWhile isMarkupBlank) with
              | none => none
              | some (value, rest) =>
                  let value := String.ofList (decodeAttribute value)
                  attributesFrom fuel (addAttribute name value attributes) rest
          | rest =>
              attributesFrom fuel (addAttribute name (impliedValue name) attributes) rest

/-- The tag at the start of `s`, from its name on, and the rest. -/
def tag? (s : List Char) : Option (StartTag × List Char) :=
  let (name, rest) := s.span fun c => !endsTagName c
  (attributesFrom (rest.length + 1) [] rest).map fun (attributes, selfClosing, rest) =>
    (⟨nameOf name, attributes, selfClosing⟩, rest)

/-- `s` after its first `>`; nothing of it when there is none. -/
def afterBracket (s : List Char) : List Char :=
  (s.dropWhile (· != '>')).drop 1

/-- `s` after its first `-->` or `--!>`; nothing of it when there is none. -/
def afterDashes : List Char → List Char
  | [] => []
  | '-' :: '-' :: '>' :: rest => rest
  | '-' :: '-' :: '!' :: '>' :: rest => rest
  | _ :: cs => afterDashes cs

/-- What follows a comment, where `s` follows its `<!--`.  The dashes that open it
    may be among those that close it, so that `<!-->` and `<!--->` are whole. -/
def afterComment : List Char → List Char
  | '>' :: rest => rest
  | '-' :: '>' :: rest => rest
  | s => afterDashes s

/-- The text at the start of `s`, which is not empty, up to the next `<`. -/
def textToken (s : List Char) : Token × List Char :=
  match s with
  | [] => (.nothing, [])
  | c :: cs =>
      let (data, rest) := cs.span (· != '<')
      (.text (decodeText (c :: data)), rest)

/-- The token at the start of `s`, and the rest; nothing at the end of the source
    and when it ends within a tag. -/
def token? (s : List Char) : Option (Token × List Char) :=
  match s with
  | [] => none
  | '<' :: '!' :: rest =>
      match rest with
      | '-' :: '-' :: rest => some (.nothing, afterComment rest)
      | _ => some (.nothing, afterBracket rest)
  | '<' :: '?' :: rest => some (.nothing, afterBracket rest)
  | '<' :: '/' :: rest =>
      match rest with
      | '>' :: rest => some (.nothing, rest)
      | c :: _ =>
          if isAsciiLetter c then (tag? rest).map fun (tag, rest) => (.stop tag.name, rest)
          else some (.nothing, afterBracket rest)
      | [] => some (.nothing, [])
  | '<' :: c :: rest =>
      if isAsciiLetter c then (tag? (c :: rest)).map fun (tag, rest) => (.start tag, rest)
      else some (textToken s)
  | _ => some (textToken s)

/-! ## Raw content -/

/-- Whether `s` goes on with `name`, in letters of either case, and then with a
    character that ends the name of a tag. -/
def startsWithName (name s : List Char) : Bool :=
  (s.take name.length).map asciiLower = name
    && ((s.drop name.length).head?.map endsTagName).getD false

/-- The raw content at the start of `s` up to the end tag of the element `name`,
    and the rest. -/
def rawContent (name : List Char) : List Char → List Char × List Char
  | [] => ([], [])
  | c :: cs =>
      if c == '<' && startsWithName ('/' :: name) cs then ([], c :: cs)
      else
        let (data, rest) := rawContent name cs
        (c :: data, rest)

/-- How far a script hides its tags behind `<!--`. -/
inductive Hiding where
  /-- An end tag ends the script. -/
  | plain
  /-- An end tag still ends the script, but a start tag hides the next one. -/
  | comment
  /-- An end tag only ends the script that started inside the comment. -/
  | script
  deriving DecidableEq

/-- How tags are hidden from the second character of `s` on, when they are hidden
    as given before it; nothing when the script ends at `s`. -/
def Hiding.after? : Hiding → List Char → Option Hiding
  | .plain, '<' :: rest =>
      if ['!', '-', '-'].isPrefixOf rest then some .comment
      else if startsWithName "/script".toList rest then none
      else some .plain
  | .comment, '<' :: rest =>
      if startsWithName "/script".toList rest then none
      else if startsWithName "script".toList rest then some .script
      else some .comment
  | .script, '<' :: rest =>
      if startsWithName "/script".toList rest then some .comment else some .script
  | _, '-' :: '-' :: '>' :: _ => some .plain
  | state, _ => some state

/-- The content of a script at the start of `s` up to its end tag, and the
    rest. -/
def scriptContent : Hiding → List Char → List Char × List Char
  | _, [] => ([], [])
  | state, c :: cs =>
      match state.after? (c :: cs) with
      | none => ([], c :: cs)
      | some state =>
          let (data, rest) := scriptContent state cs
          (c :: data, rest)

end MessageBody.Markup
