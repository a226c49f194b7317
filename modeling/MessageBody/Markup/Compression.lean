import MessageBody.Text.Blank
import MessageBody.Text.CaseFold
import MessageBody.Text.Search
import MessageBody.Text.Spacing
import MessageBody.Text.WordChar

/-! # Compressed markup

    White space that only lays out the markup source is reduced before the
    markup is read: control characters and comments go, each run of white space
    becomes one space, and a tag loses the white space before its end.  What is
    inside `pre`, `textarea`, `script` and `style` elements is kept as it is.
    Last, one space directly after `<br>`, `<br/>` and `<p>` goes, wherever it
    stands. -/

namespace MessageBody.Markup

open Text

/-- The control characters that a document may not hold. -/
def isForbidden (c : Char) : Bool :=
  c.toNat < 0x20 && c != '\t' && c != '\n' && c != '\r'

/-- The number of characters up to the end of the first `mark` in `s`. -/
def lengthThrough? (mark : List Char) : List Char → Option Nat
  | [] => none
  | c :: cs =>
      if mark.isPrefixOf (c :: cs) then some mark.length
      else (lengthThrough? mark cs).map (· + 1)

/-- The length of the comment that `s` begins with. -/
def commentLength? (s : List Char) : Option Nat :=
  let opening := "<!--".toList
  if opening.isPrefixOf s then
    (lengthThrough? "-->".toList (s.drop opening.length)).map (opening.length + ·)
  else none

/-- `s` without its comments; `skip` characters belong to a comment before. -/
def dropCommentsFrom : (skip : Nat) → List Char → List Char
  | _, [] => []
  | skip + 1, _ :: cs => dropCommentsFrom skip cs
  | 0, c :: cs =>
      match commentLength? (c :: cs) with
      | some n => dropCommentsFrom (n - 1) cs
      | none => c :: dropCommentsFrom 0 cs

/-- `s` without its comments.  One that is not closed stays. -/
def dropComments (s : List Char) : List Char :=
  dropCommentsFrom 0 s

/-- The names of the elements whose content is kept as it is. -/
def keptNames : List (List Char) :=
  ["pre".toList, "textarea".toList, "script".toList, "style".toList]

/-- The name of a kept element at the start of `s`, as it is written there, and
    the rest. -/
def keptName? (s : List Char) : Option (List Char × List Char) :=
  keptNames.findSome? fun name =>
    match afterWord? name s with
    | some rest =>
        if (rest.head?.map isWordChar).getD false then none
        else some (s.take name.length, rest)
    | none => none

/-- The length of the end tag of the element `name` that `s` begins with. -/
def endTagLength? (name s : List Char) : Option Nat :=
  match s with
  | '<' :: '/' :: rest =>
      if (rest.take name.length).map lowered = name.map lowered then
        let afterName := rest.drop name.length
        match afterName.dropWhile isBlank with
        | '>' :: _ => some (name.length + (afterName.takeWhile isBlank).length + 3)
        | _ => none
      else none
  | _ => none

/-- The number of characters of `s` through the first end tag of the element
    `name`. -/
def throughEndTag? (name : List Char) : List Char → Option Nat
  | [] => none
  | c :: cs =>
      match endTagLength? name (c :: cs) with
      | some n => some n
      | none => (throughEndTag? name cs).map (· + 1)

/-- The length of the kept element that `s` begins with: its start tag, its
    content and the first end tag of its name. -/
def keptLength? : List Char → Option Nat
  | '<' :: s =>
      match keptName? s with
      | none => none
      | some (name, rest) =>
          match cutAt? '>' rest with
          | none => none
          | some (inTag, content) =>
              (throughEndTag? name content).map fun n => name.length + inTag.length + 2 + n
  | _ => none

/-- A stretch of markup source. -/
inductive Stretch where
  /-- Source that is compressed. -/
  | loose (source : List Char)
  /-- An element that is kept as it is. -/
  | kept (source : List Char)
  deriving DecidableEq

/-- The stretches of `s`: `skip` characters belong to the kept element before,
    and `cur` holds the loose characters before, last one first. -/
def stretchesOf : (skip : Nat) → (cur : List Char) → List Char → List Stretch
  | _, cur, [] => [.loose cur.reverse]
  | skip + 1, cur, _ :: cs => stretchesOf skip cur cs
  | 0, cur, c :: cs =>
      match keptLength? (c :: cs) with
      | some n => .loose cur.reverse :: .kept ((c :: cs).take n) :: stretchesOf (n - 1) [] cs
      | none => stretchesOf 0 (c :: cur) cs

/-- The inside of the tag that `s` begins with, nothing when it begins with
    none. -/
def tagInside? : List Char → Option (List Char)
  | '<' :: s =>
      let name := match s with
        | '/' :: rest => rest
        | _ => s
      match name with
      | c :: _ =>
          if isAsciiLetter c then
            match s.dropWhile fun c => c != '<' && c != '>' with
            | '>' :: _ => some (s.takeWhile fun c => c != '<' && c != '>')
            | _ => none
          else none
      | [] => none
  | _ => none

/-- The inside of a tag without the white space at its end, and without that
    before a slash at its end. -/
def tidyInside (inside : List Char) : List Char :=
  let body := trimEnd isSourceBlank inside
  if body.getLast? = some '/' then trimEnd isSourceBlank body.dropLast ++ ['/'] else body

/-- `s` with its tags tidied; `skip` characters belong to a tag before. -/
def tidyTagsFrom : (skip : Nat) → List Char → List Char
  | _, [] => []
  | skip + 1, _ :: cs => tidyTagsFrom skip cs
  | 0, c :: cs =>
      match tagInside? (c :: cs) with
      | some inside => '<' :: tidyInside inside ++ '>' :: tidyTagsFrom (inside.length + 1) cs
      | none => c :: tidyTagsFrom 0 cs

/-- Loose source with its white space reduced and its tags tidied. -/
def compressLoose (s : List Char) : List Char :=
  tidyTagsFrom 0 (squeeze isSourceBlank false s)

/-- A stretch after compression. -/
def Stretch.compressed : Stretch → List Char
  | .loose s => compressLoose s
  | .kept s => s

/-- The tags after which one space goes. -/
def spacelessTags : List (List Char) :=
  ["<br>".toList, "<br/>".toList, "<p>".toList]

/-- Markup source in compressed form. -/
def compress (s : List Char) : List Char :=
  let source := dropComments (s.filter fun c => !isForbidden c)
  let joined := (stretchesOf 0 [] source).flatMap Stretch.compressed
  spacelessTags.foldl (fun s tag => replace (tag ++ [' ']) tag s) (trim (· == ' ') joined)

end MessageBody.Markup
