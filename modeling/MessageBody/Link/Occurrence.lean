import MessageBody.Text.CaseFold
import MessageBody.Text.WordChar

/-! # Web addresses in running text

    An address in running text starts at a word boundary with one of four
    schemes and `://`, and goes on as long as its characters are allowed; the
    punctuation that ends a sentence is left off its end.  Addresses are taken
    from left to right and do not overlap. -/

namespace MessageBody.Link

/-- The schemes, with what separates them from the rest of the address. -/
def schemes : List (List Char) :=
  ["https://".toList, "http://".toList, "ftp://".toList, "file://".toList]

/-- The signs that may end an address. -/
def isClosingSign (c : Char) : Bool :=
  "-+&@#/%=~_|".toList.contains c

/-- The signs that an address may hold but not end with. -/
def isInnerSign (c : Char) : Bool :=
  "?!:,.;".toList.contains c

/-- The characters that may end an address. -/
def mayEnd (c : Char) : Bool :=
  let f := Text.folded c
  ('a' ≤ f && f ≤ 'z') || ('0' ≤ c && c ≤ '9') || isClosingSign c

/-- The characters of an address after its scheme. -/
def mayOccur (c : Char) : Bool :=
  mayEnd c || isInnerSign c

/-- The rest of the allowed characters of `s` up to the last that may end an
    address. -/
def addressTail (s : List Char) : List Char :=
  ((s.takeWhile mayOccur).reverse.dropWhile fun c => !mayEnd c).reverse

/-- The length of the address that `s` begins with. -/
def addressLength? (s : List Char) : Option Nat :=
  schemes.findSome? fun scheme =>
    match Text.afterWord? scheme s with
    | some rest =>
        let tail := addressTail rest
        if tail.isEmpty then none else some (scheme.length + tail.length)
    | none => none

/-- Where an address lies in a text. -/
structure Occurrence where
  start : Nat
  stop : Nat
  deriving DecidableEq

/-- The addresses in `s`, which stands at position `at`: `skip` characters belong
    to the address before, and `inWord` tells whether the character before is a
    word character. -/
def occurrencesFrom (position : Nat) : (skip : Nat) → (inWord : Bool) → List Char → List Occurrence
  | _, _, [] => []
  | skip + 1, _, c :: cs => occurrencesFrom (position + 1) skip (Text.isWordChar c) cs
  | 0, inWord, c :: cs =>
      match if inWord then none else addressLength? (c :: cs) with
      | some n => ⟨position, position + n⟩ :: occurrencesFrom (position + 1) (n - 1) (Text.isWordChar c) cs
      | none => occurrencesFrom (position + 1) 0 (Text.isWordChar c) cs

/-- The addresses in a text, from left to right. -/
def occurrences (s : List Char) : List Occurrence :=
  occurrencesFrom 0 0 false s

/-- The part of `s` where the address lies. -/
def Occurrence.slice (o : Occurrence) (s : List Char) : List Char :=
  (s.drop o.start).take (o.stop - o.start)

end MessageBody.Link
