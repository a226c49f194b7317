import MessageBody.Link.Host
import MessageBody.Link.Percent
import MessageBody.Text.Search

/-! # Paths and queries

    The part of a deep link after its prefix is read as an address relative to a
    server: a path, and after the first `?` a query.  Tabs and line breaks in it
    count for nothing.  A path that starts with two slashes names a server of
    its own first, which is left out; where that name is malformed, so is the
    address. -/

namespace MessageBody.Link

/-- The characters outside ASCII whose compatibility form holds one of
    `/ ? # @ :`. -/
def disguisedDelimiters : List Nat :=
  [0x2047, 0x2048, 0x2049, 0x2100, 0x2101, 0x2105, 0x2106, 0x2A74, 0xFE13, 0xFE16,
   0xFE55, 0xFE56, 0xFE5F, 0xFE6B, 0xFF03, 0xFF0F, 0xFF1A, 0xFF1F, 0xFF20]

/-- The name of a server is malformed when it has one kind of square bracket
    without the other, brackets without a numeric host in them, or a disguised
    delimiter. -/
def isMalformedServer (name : List Char) : Bool :=
  name.contains '[' != name.contains ']' ||
    (name.contains '[' && !bracketsNumericHost name) ||
    name.any fun c => disguisedDelimiters.contains c.toNat

/-- A path and a query. -/
structure Address where
  path : List Char
  query : List Char
  deriving DecidableEq

/-- `s` up to its first `?`, and what follows it. -/
def Address.ofPath (s : List Char) : Address :=
  match Text.cutAt? '?' s with
  | some (path, query) => ⟨path, query⟩
  | none => ⟨s, []⟩

/-- The address that `s` writes, which starts with a slash; nothing when it is
    malformed. -/
def Address.parse? (s : List Char) : Option Address :=
  let s := s.filter fun c => c != '\t' && c != '\n' && c != '\r'
  match s with
  | '/' :: '/' :: rest =>
      let isEnd := fun c : Char => c == '/' || c == '?' || c == '#'
      if isMalformedServer (rest.takeWhile (!isEnd ·)) then none
      else some (ofPath (rest.dropWhile (!isEnd ·)))
  | _ => some (ofPath s)

/-- The segments of the path, decoded.  What is before the first slash is not
    one. -/
def Address.segments (a : Address) : List (List Char) :=
  ((Text.splitAtChar '/' a.path).drop 1).map percentDecode

/-- A piece of a query decoded, where `+` stands for a space. -/
def decodeField (s : List Char) : List Char :=
  percentDecode (s.map fun c => if c = '+' then ' ' else c)

/-- The fields of the query that have a value, in order. -/
def Address.fields (a : Address) : List (List Char × List Char) :=
  (Text.splitAtChar '&' a.query).filterMap fun piece =>
    match Text.cutAt? '=' piece with
    | some (key, value) =>
        if value.isEmpty then none else some (decodeField key, decodeField value)
    | none => none

end MessageBody.Link
