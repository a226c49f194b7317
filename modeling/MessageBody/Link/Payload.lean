import MessageBody.Json.Description
import MessageBody.Json.Printer
import MessageBody.Json.Reader
import MessageBody.Link.DeepLink

/-! # Links and spans as payloads

    A deep link and the attributes of a span travel in annotations as JSON
    objects.  Reading them back either gives the value, or tells that the
    payload cannot be decoded, or fails outright. -/

namespace MessageBody

/-- What a payload was expected to hold. -/
inductive PayloadKind where
  | link
  | span
  deriving DecidableEq

/-- The word for the kind in messages. -/
def PayloadKind.word : PayloadKind → String
  | .link => "link"
  | .span => "span"

/-- Why a payload cannot be decoded. -/
inductive DecodeError where
  /-- It is not JSON. -/
  | notJson (kind : PayloadKind) (payload : String)
  /-- It is JSON but not an object. -/
  | notObject (kind : PayloadKind) (payload : String)
  /-- It names no kind of link. -/
  | unknownType (type : Json) (payload : String)
  /-- A field is missing or of the wrong kind. -/
  | mistyped (kind : PayloadKind) (payload : String)
  /-- Its list of servers is not a list of texts. -/
  | malformedVia (payload : String)
  /-- It is not a whole number. -/
  | notInt (payload : String)
  /-- It is a link, but not to a user. -/
  | notUser (payload : String)

/-- The text of the error. -/
def DecodeError.message : DecodeError → String
  | .notJson kind p => kind.word ++ " payload is not valid JSON: " ++ Text.quote p
  | .notObject kind p => kind.word ++ " payload is not a JSON object: " ++ Text.quote p
  | .unknownType type p =>
      "unknown link type " ++ type.description ++ " in payload: " ++ Text.quote p
  | .mistyped kind p =>
      kind.word ++ " payload has missing or mistyped fields: " ++ Text.quote p
  | .malformedVia p => "link payload has a malformed via list: " ++ Text.quote p
  | .notInt p => "not an int: " ++ Text.quote p
  | .notUser p => "not a user mention: " ++ Text.quote p

/-- Why a payload gives no value. -/
inductive PayloadError where
  /-- It cannot be decoded; whoever reads it goes on without. -/
  | undecodable (error : DecodeError)
  /-- A field that has to be there is missing. -/
  | missingField (name : String)
  /-- The kind of link is given by a list or an object. -/
  | compoundType
  /-- Brackets are nested too deeply. -/
  | tooDeep
  /-- A whole number has too many digits. -/
  | tooManyDigits (refusal : Text.TooManyDigits)

/-- The text of the error, empty where the cause says it all. -/
def PayloadError.message : PayloadError → String
  | .undecodable e => e.message
  | .missingField name => Text.quote name
  | .compoundType | .tooDeep => ""
  | .tooManyDigits refusal => refusal.message

/-- The members of the object that a payload writes. -/
def readObject (kind : PayloadKind) (payload : String) :
    Except PayloadError (List (String × Json)) :=
  match Json.parse payload.toList with
  | .error .tooDeep => .error .tooDeep
  | .error _ => .error (.undecodable (.notJson kind payload))
  | .ok (.obj members) => .ok members
  | .ok _ => .error (.undecodable (.notObject kind payload))

namespace DeepLink

/-- The list of texts as JSON. -/
def viaJson (via : List String) : Json :=
  .arr (via.map Json.str)

/-- The link as a JSON object. -/
def toJson : DeepLink → Json
  | .user userId url =>
      .obj [("type", .str "user_mention"), ("user_id", .str userId), ("raw_url", .str url)]
  | .room roomId via url =>
      .obj [("type", .str "room_link"), ("room_id", .str roomId), ("via", viaJson via),
        ("raw_url", .str url)]
  | .message roomId messageId via url =>
      .obj [("type", .str "message_link"), ("room_id", .str roomId),
        ("message_id", .str messageId), ("via", viaJson via), ("raw_url", .str url)]

/-- The payload that holds the link. -/
def payload (link : DeepLink) : String :=
  Json.write .payload link.toJson

/-- The texts of a list, nothing unless all items are texts. -/
def texts? : List Json → Option (List String)
  | [] => some []
  | .str s :: items => (texts? items).map (s :: ·)
  | _ => none

/-- The text of the member `key`. -/
def textMember? (key : String) (members : List (String × Json)) : Option String :=
  match Json.member? key members with
  | some (.str s) => some s
  | _ => none

/-- The list of servers among the members; none stands for an empty list. -/
def viaMember? (members : List (String × Json)) : Option (List String) :=
  match Json.member? "via" members with
  | none | some .null => some []
  | some (.arr items) => texts? items
  | _ => none

/-- The link that a payload holds. -/
def ofPayload (payload : String) : Except PayloadError DeepLink := do
  let members ← readObject .link payload
  let mistyped : PayloadError := .undecodable (.mistyped .link payload)
  let malformedVia : PayloadError := .undecodable (.malformedVia payload)
  match Json.member? "type" members with
  | some (.str "user_mention") =>
      match textMember? "user_id" members, textMember? "raw_url" members with
      | some userId, some url => .ok (.user userId url)
      | _, _ => .error mistyped
  | some (.str "room_link") =>
      match textMember? "room_id" members, textMember? "raw_url" members with
      | some roomId, some url =>
          match viaMember? members with
          | some via => .ok (.room roomId via url)
          | none => .error malformedVia
      | _, _ => .error mistyped
  | some (.str "message_link") =>
      match textMember? "room_id" members, textMember? "message_id" members,
          textMember? "raw_url" members with
      | some roomId, some messageId, some url =>
          match viaMember? members with
          | some via => .ok (.message roomId messageId via url)
          | none => .error malformedVia
      | _, _, _ => .error mistyped
  | some (.arr _) | some (.obj _) => .error .compoundType
  | some type => .error (.undecodable (.unknownType type payload))
  | none => .error (.undecodable (.unknownType .null payload))

end DeepLink

/-- The attributes of a span. -/
structure SpanAttributes where
  /-- Text colour. -/
  foreground : Option Int
  /-- Background colour. -/
  background : Option Int
  /-- Whether the text is covered until the reader uncovers it. -/
  isSpoiler : Bool
  /-- Where the span starts, which identifies it. -/
  revealId : Int
  deriving DecidableEq

namespace SpanAttributes

/-- The attributes as a JSON object. -/
def toJson (a : SpanAttributes) : Json :=
  .obj [("fg_color", .ofInt? a.foreground), ("bg_color", .ofInt? a.background),
    ("is_spoiler", .bool a.isSpoiler), ("reveal_id", .int a.revealId)]

/-- The payload that holds the attributes. -/
def payload (a : SpanAttributes) : String :=
  Json.write .payload a.toJson

/-- A colour among the members: whether it is there, and its value; nothing when
    it is of the wrong kind. -/
def colorMember? (key : String) (members : List (String × Json)) :
    Option (Bool × Option Int) :=
  match Json.member? key members with
  | none => some (false, none)
  | some .null => some (true, none)
  | some (.int n) => some (true, some n)
  | _ => none

/-- The attributes that a payload holds. -/
def ofPayload (payload : String) : Except PayloadError SpanAttributes := do
  let members ← readObject .span payload
  match colorMember? "fg_color" members, colorMember? "bg_color" members,
      Json.member? "is_spoiler" members, Json.member? "reveal_id" members with
  | some (hasForeground, foreground), some (hasBackground, background),
      some (.bool isSpoiler), some (.int revealId) =>
      if !hasForeground then .error (.missingField "fg_color")
      else if !hasBackground then .error (.missingField "bg_color")
      else .ok ⟨foreground, background, isSpoiler, revealId⟩
  | _, _, _, _ => .error (.undecodable (.mistyped .span payload))

end SpanAttributes

end MessageBody
