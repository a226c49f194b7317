import MessageBody.Text.Hex

/-! # Percent-encoding

    `%` and two hexadecimal digits stand for a byte.  Bytes that follow each
    other, written so or as ASCII characters, are read as UTF-8, and every
    maximal part of them that is not valid becomes one replacement character.
    A `%` without two digits stands for itself. -/

namespace MessageBody.Link

/-- What a stretch of encoded text stands for: a byte, or a character outside
    ASCII as it is. -/
inductive EncodedUnit where
  | byte (n : Nat)
  | char (c : Char)
  deriving DecidableEq

/-- The unit that a character stands for on its own. -/
def EncodedUnit.ofChar (c : Char) : EncodedUnit :=
  if c.toNat < 0x80 then .byte c.toNat else .char c

/-- The units of an encoded text. -/
def units : List Char → List EncodedUnit
  | [] => []
  | '%' :: a :: b :: rest =>
      match Text.hexValue? a, Text.hexValue? b with
      | some x, some y => .byte (16 * x + y) :: units rest
      | _, _ => .byte 0x25 :: units (a :: b :: rest)
  | c :: rest => EncodedUnit.ofChar c :: units rest

/-- Where the reading of a UTF-8 sequence stands. -/
inductive Pending where
  /-- Between two characters. -/
  | idle
  /-- `more` bytes are to come after the next one, which lies from `low` to
      `high`; `code` holds the bits so far. -/
  | within (code more low high : Nat)
  deriving DecidableEq

/-- The character that stands for what is not valid. -/
def replacement : Char := '\ufffd'

/-- A byte between two characters: what it completes, and the state after it. -/
def leadByte (b : Nat) : List Char × Pending :=
  if b < 0x80 then ([Char.ofNat b], .idle)
  else if 0xC2 ≤ b ∧ b ≤ 0xDF then ([], .within (b - 0xC0) 0 0x80 0xBF)
  else if 0xE0 ≤ b ∧ b ≤ 0xEF then
    ([], .within (b - 0xE0) 1 (if b = 0xE0 then 0xA0 else 0x80) (if b = 0xED then 0x9F else 0xBF))
  else if 0xF0 ≤ b ∧ b ≤ 0xF4 then
    ([], .within (b - 0xF0) 2 (if b = 0xF0 then 0x90 else 0x80) (if b = 0xF4 then 0x8F else 0xBF))
  else ([replacement], .idle)

/-- A byte in any state: what it completes, and the state after it. -/
def nextByte (state : Pending) (b : Nat) : List Char × Pending :=
  match state with
  | .idle => leadByte b
  | .within code more low high =>
      if low ≤ b ∧ b ≤ high then
        let code := code * 64 + (b - 0x80)
        match more with
        | 0 => ([Char.ofNat code], .idle)
        | more + 1 => ([], .within code more 0x80 0xBF)
      else
        let (cs, state) := leadByte b
        (replacement :: cs, state)

/-- The replacement for a sequence that breaks off. -/
def Pending.flush : Pending → List Char
  | .idle => []
  | .within _ _ _ _ => [replacement]

/-- The text of units, read from the given state. -/
def textFrom : Pending → List EncodedUnit → List Char
  | state, [] => state.flush
  | state, .byte b :: rest =>
      let (cs, state) := nextByte state b
      cs ++ textFrom state rest
  | state, .char c :: rest => state.flush ++ c :: textFrom .idle rest

/-- The text that an encoded text stands for. -/
def percentDecode (s : List Char) : List Char :=
  textFrom .idle (units s)

/-- The UTF-8 bytes of a character. -/
def utf8 (c : Char) : List Nat :=
  let n := c.toNat
  if n < 0x80 then [n]
  else if n < 0x800 then [0xC0 + n / 64, 0x80 + n % 64]
  else if n < 0x10000 then [0xE0 + n / 4096, 0x80 + n / 64 % 64, 0x80 + n % 64]
  else [0xF0 + n / 262144, 0x80 + n / 4096 % 64, 0x80 + n / 64 % 64, 0x80 + n % 64]

/-- The characters that need no encoding: ASCII letters and digits and `_.-~`. -/
def isUnreserved (c : Char) : Bool :=
  ('a' ≤ c && c ≤ 'z') || ('A' ≤ c && c ≤ 'Z') || ('0' ≤ c && c ≤ '9') ||
    c == '_' || c == '.' || c == '-' || c == '~'

/-- A byte as `%` and two upper-case digits. -/
def escapedByte (b : Nat) : List Char :=
  '%' :: (Text.hexDigits 2 b).map Char.toUpper

/-- The encoding of a text: every byte of a character that is not unreserved is
    escaped. -/
def percentEncode (s : List Char) : List Char :=
  s.flatMap fun c => if isUnreserved c then [c] else (utf8 c).flatMap escapedByte

example : percentDecode (percentEncode "a/é😀".toList) = "a/é😀".toList := by decide

example : percentDecode "%E2%82x%zz".toList = "\ufffdx%zz".toList := by decide

end MessageBody.Link
