import MessageBody.Link.Address

/-! # Deep links

    A deep link is a web address of a fixed form that points to a user, a room or
    a message.  `DeepLink.ofUrl?` tells which; an address of any other shape is
    an ordinary web link. -/

namespace MessageBody

/-- A deep link and the address it was read from. -/
inductive DeepLink where
  /-- A link to a user. -/
  | user (userId url : String)
  /-- A link to a room by its id or alias; `via` lists servers that know it. -/
  | room (roomId : String) (via : List String) (url : String)
  /-- A link to one message in a room. -/
  | message (roomId messageId : String) (via : List String) (url : String)
  deriving DecidableEq

namespace Link

/-- The part that every deep link begins with. -/
def deepLinkStart : List Char :=
  "https://matrix.to/#/".toList

/-- The parts that the address of a stored image begins with. -/
def mediaStarts : List (List Char) :=
  ["mxc://".toList, "localmxc://".toList]

/-- The address of an image in the media store. -/
def isMedia (url : List Char) : Bool :=
  mediaStarts.any (·.isPrefixOf url)

/-- At least one character, and no line break among them. -/
def isPlain (s : List Char) : Bool :=
  !s.isEmpty && !s.contains '\n'

/-- A colon with something after it, and no line break. -/
def hasServer (s : List Char) : Bool :=
  s.dropLast.contains ':' && !s.contains '\n'

/-- The shape of a user id: `@`, and later a colon with something after it. -/
def isUserId : List Char → Bool
  | '@' :: s => hasServer s
  | _ => false

/-- The shape of a room id, `!` and something after it, or of a room alias, `#`
    and later a colon with something after it. -/
def isRoomId : List Char → Bool
  | '!' :: s => isPlain s
  | '#' :: s => hasServer s
  | _ => false

/-- The shape of a message id: `$` and something after it. -/
def isMessageId : List Char → Bool
  | '$' :: s => isPlain s
  | _ => false

/-- `s` with every number sign escaped. -/
def escapeNumberSigns (s : List Char) : List Char :=
  s.flatMap fun c => if c = '#' then ['%', '2', '3'] else [c]

end Link

namespace DeepLink

open Link

/-- The address that the link was read from. -/
def url : DeepLink → String
  | .user _ url => url
  | .room _ _ url => url
  | .message _ _ _ url => url

/-- The link that the segments of a path write, if they have the shape of
    one. -/
def ofSegments? (url : String) (via : List String) : List (List Char) → Option DeepLink
  | [target] =>
      if isUserId target then some (.user (String.ofList target) url)
      else if isRoomId target then some (.room (String.ofList target) via url)
      else none
  | [place, event] =>
      if isRoomId place && isMessageId event then
        some (.message (String.ofList place) (String.ofList event) via url)
      else none
  | _ => none

/-- The servers that an address names, in order. -/
def servers (a : Address) : List String :=
  a.fields.filterMap fun (key, value) =>
    if key = ['v', 'i', 'a'] then some (String.ofList value) else none

/-- The deep link that an address is, nothing when it is an ordinary one.  A
    number sign after the start belongs to a room alias. -/
def ofUrl? (url : List Char) : Option DeepLink :=
  if deepLinkStart.isPrefixOf url then
    let target := escapeNumberSigns (url.drop deepLinkStart.length)
    match Address.parse? ('/' :: target) with
    | none => none
    | some a => ofSegments? (String.ofList url) (servers a) a.segments
  else none

end DeepLink

end MessageBody
