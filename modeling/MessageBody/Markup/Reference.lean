import MessageBody.Markup.ReferenceNames
import MessageBody.Text.CaseFold
import MessageBody.Text.Hex
import MessageBody.Text.WholeNumber

/-! # Character references

    `&#` and a number, or `&` and a name, stand for a character.  The longest
    name that fits counts.  In an attribute an old name without its semicolon is
    left alone when it could be the start of a longer word. -/

namespace MessageBody.Markup

open Text

/-- The characters of the code points 128 to 159 in the encoding that numeric
    references to them mean; the others stand for themselves. -/
def westernCodes : List (Nat × Nat) :=
  [(0x80, 0x20AC), (0x82, 0x201A), (0x83, 0x0192), (0x84, 0x201E), (0x85, 0x2026),
   (0x86, 0x2020), (0x87, 0x2021), (0x88, 0x02C6), (0x89, 0x2030), (0x8A, 0x0160),
   (0x8B, 0x2039), (0x8C, 0x0152), (0x8E, 0x017D), (0x91, 0x2018), (0x92, 0x2019),
   (0x93, 0x201C), (0x94, 0x201D), (0x95, 0x2022), (0x96, 0x2013), (0x97, 0x2014),
   (0x98, 0x02DC), (0x99, 0x2122), (0x9A, 0x0161), (0x9B, 0x203A), (0x9C, 0x0153),
   (0x9E, 0x017E), (0x9F, 0x0178)]

/-- The character that the number of a reference means. -/
def referencedChar (n : Nat) : Char :=
  if n = 0 ∨ (0xD800 ≤ n ∧ n ≤ 0xDFFF) ∨ 0x10FFFF < n then '\ufffd'
  else Char.ofNat ((westernCodes.lookup n).getD n)

/-- An ASCII letter or digit. -/
def isAsciiAlphanumeric (c : Char) : Bool :=
  isAsciiLetter c || ('0' ≤ c && c ≤ '9')

/-- One more than the length when `s` goes on with a semicolon. -/
def withSemicolon (n : Nat) (s : List Char) : Nat :=
  if s.head? = some ';' then n + 1 else n

/-- The reference by number at the start of `s`, after `&#`: its character and
    its length. -/
def numericReference? (s : List Char) : Option (Char × Nat) :=
  let (prefixLength, isDigit, base) :=
    match s with
    | c :: _ =>
        if c == 'x' || c == 'X' then (1, fun c => (hexValue? c).isSome, 16)
        else (0, fun c => '0' ≤ c && c ≤ '9', 10)
    | [] => (0, fun _ => false, 10)
  let digits := (s.drop prefixLength).takeWhile isDigit
  if digits.isEmpty then none
  else
    let n := digits.foldl (fun n c => base * n + (hexValue? c).getD 0) 0
    let length := prefixLength + digits.length
    some (referencedChar n, withSemicolon length (s.drop length))

/-- The longest name at the start of `s`, after `&`. -/
def longestName? (s : List Char) : Option (List Char × List Char) :=
  referenceNames.foldl (fun best entry =>
    if entry.1.isPrefixOf s && (best.map fun b => decide (b.1.length < entry.1.length)).getD true
    then some entry else best) none

/-- The reference by name at the start of `s`, after `&`: its characters and its
    length. -/
def namedReference? (inAttribute : Bool) (s : List Char) : Option (List Char × Nat) :=
  match longestName? s with
  | none => none
  | some (name, chars) =>
      let next := (s.drop name.length).head?
      let goesOn := (next.map fun c => c == '=' || isAsciiAlphanumeric c).getD false
      if inAttribute && name.getLast? != some ';' && goesOn then none
      else some (chars, name.length)

/-- The reference that `s` begins with: its characters and its length. -/
def reference? (inAttribute : Bool) : List Char → Option (List Char × Nat)
  | '&' :: '#' :: s => (numericReference? s).map fun (c, n) => ([c], n + 2)
  | '&' :: s =>
      match s with
      | c :: _ =>
          if isAsciiAlphanumeric c then
            (namedReference? inAttribute s).map fun (cs, n) => (cs, n + 1)
          else none
      | [] => none
  | _ => none

/-- `s` with its references decoded; `skip` characters belong to a reference
    before. -/
def decodeFrom (inAttribute : Bool) : (skip : Nat) → List Char → List Char
  | _, [] => []
  | skip + 1, _ :: cs => decodeFrom inAttribute skip cs
  | 0, c :: cs =>
      match reference? inAttribute (c :: cs) with
      | some (chars, n) => chars ++ decodeFrom inAttribute (n - 1) cs
      | none => c :: decodeFrom inAttribute 0 cs

/-- Text with its references decoded. -/
def decodeText (s : List Char) : List Char :=
  decodeFrom false 0 s

/-- The value of an attribute with its references decoded. -/
def decodeAttribute (s : List Char) : List Char :=
  decodeFrom true 0 s

end MessageBody.Markup
