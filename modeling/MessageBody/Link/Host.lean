import MessageBody.Text.Hex
import MessageBody.Text.Search
import MessageBody.Text.WholeNumber

/-! # Numeric hosts

    A server may be given by a number instead of a name.  An address of version 4
    is four bytes with dots between them.  An address of version 6 is eight groups
    of hexadecimal digits with colons between them, where one gap `::` stands for
    groups that are zero, and the last two groups may be written as an address of
    version 4.  Later versions begin with a `v`.  Where such a host takes part in
    a longer address it stands in square brackets, so that its colons are not
    taken for the one before the port. -/

namespace MessageBody.Link

/-- A byte in decimal digits, without needless zeros in front. -/
def isDecimalByte (s : List Char) : Bool :=
  !s.isEmpty && s.length ≤ 3 && s.all Char.isDigit && (s.length == 1 || s.head? != some '0') &&
    Text.ofDigits (s.map fun c => c.toNat - 0x30) ≤ 255

/-- An address of version 4. -/
def isVersion4 (s : List Char) : Bool :=
  let bytes := Text.splitAtChar '.' s
  bytes.length == 4 && bytes.all isDecimalByte

/-- Hexadecimal digits, at least one. -/
def isHexadecimal (s : List Char) : Bool :=
  !s.isEmpty && s.all fun c => (Text.hexValue? c).isSome

/-- A group of an address of version 6. -/
def isHexGroup (s : List Char) : Bool :=
  isHexadecimal s && s.length ≤ 4

/-- The pieces of `s` between its colons, none when it is empty. -/
def colonPieces (s : List Char) : List (List Char) :=
  if s.isEmpty then [] else Text.splitAtChar ':' s

/-- How many groups pieces stand for, nothing when one of them is malformed.  The
    last one stands for two when it is an address of version 4. -/
def groupCount? : List (List Char) → Option Nat
  | [] => some 0
  | [piece] =>
      if isHexGroup piece then some 1 else if isVersion4 piece then some 2 else none
  | piece :: pieces => if isHexGroup piece then (groupCount? pieces).map (· + 1) else none

/-- `s` before and after its first gap, or nothing when there is none. -/
def cutAtGap? : List Char → Option (List Char × List Char)
  | [] => none
  | ':' :: ':' :: rest => some ([], rest)
  | c :: cs => (cutAtGap? cs).map fun (before, after) => (c :: before, after)

/-- An address of version 6.  A gap stands for one group at least. -/
def isVersion6 (s : List Char) : Bool :=
  match cutAtGap? s with
  | none => groupCount? (colonPieces s) == some 8
  | some (before, after) =>
      let groups := colonPieces before
      match groupCount? (colonPieces after) with
      | some n => groups.all isHexGroup && groups.length + n < 8
      | none => false

/-- An address of version 6, perhaps with its zone after a percent sign. -/
def isZonedVersion6 (s : List Char) : Bool :=
  match Text.cutAt? '%' s with
  | none => isVersion6 s
  | some (address, zone) => isVersion6 address && !zone.isEmpty && !zone.contains '%'

/-- An address of a version to come: a `v`, the number of the version, a dot, and
    something after it. -/
def isLaterVersion : List Char → Bool
  | 'v' :: s =>
      match Text.cutAt? '.' s with
      | some (version, address) => isHexadecimal version && !address.isEmpty
      | none => false
  | _ => false

/-- What may stand in square brackets. -/
def isNumericHost (s : List Char) : Bool :=
  isLaterVersion s || isZonedVersion6 s

/-- `s` after its last `sep`, all of it when there is none. -/
def afterLast (sep : Char) (s : List Char) : List Char :=
  (s.reverse.takeWhile (· != sep)).reverse

/-- Whether a server that has square brackets has a numeric host in them.  In
    front of it there is nothing but a user, who ends in `@`, and behind it nothing
    but a port, which starts with a colon.  Where it is the user that has the
    brackets, the host is numeric all the same. -/
def bracketsNumericHost (server : List Char) : Bool :=
  let host := afterLast '@' server
  match Text.cutAt? '[' host with
  | none => isNumericHost (host.takeWhile (· != ':'))
  | some (before, rest) =>
      let (inside, port) := (Text.cutAt? ']' rest).getD (rest, [])
      before.isEmpty && (port.isEmpty || port.head? == some ':') && isNumericHost inside

example : isNumericHost "1:2:3:4:5::1.2.3.4".toList = true := by decide

example : isNumericHost "1::2::3".toList = false := by decide

example : bracketsNumericHost "a@[::1%eth0]:80".toList = true := by decide

end MessageBody.Link
