/-! # Occurrences of a fixed text

    `stretches pat s` cuts `s` at the leftmost, non-overlapping occurrences of
    `pat` and gives the stretches between them; `replace` puts another text in
    their place. -/

namespace MessageBody.Text

/-- The cuts of `stretches`: `skip` characters of an occurrence are still to be
    passed over and `cur` holds the current stretch, last character first. -/
def stretchesFrom (pat : List Char) : Nat → List Char → List Char → List (List Char)
  | _, cur, [] => [cur.reverse]
  | skip + 1, cur, _ :: cs => stretchesFrom pat skip cur cs
  | 0, cur, c :: cs =>
      if pat.isPrefixOf (c :: cs) then
        cur.reverse :: stretchesFrom pat (pat.length - 1) [] cs
      else stretchesFrom pat 0 (c :: cur) cs

/-- The stretches of `s` before, between and after the leftmost, non-overlapping
    occurrences of the non-empty text `pat`. -/
def stretches (pat s : List Char) : List (List Char) :=
  stretchesFrom pat 0 [] s

/-- `s` with every leftmost, non-overlapping occurrence of `pat` replaced. -/
def replace (pat new s : List Char) : List Char :=
  List.intercalate new (stretches pat s)

/-- The pieces of `s` between the characters equal to `sep`. -/
def splitAtChar (sep : Char) : List Char → List (List Char)
  | [] => [[]]
  | c :: cs =>
      if c = sep then [] :: splitAtChar sep cs
      else
        match splitAtChar sep cs with
        | [] => [[c]]
        | piece :: pieces => (c :: piece) :: pieces

/-- `s` before and after its first `sep`, or nothing when there is none. -/
def cutAt? (sep : Char) : List Char → Option (List Char × List Char)
  | [] => none
  | c :: cs =>
      if c = sep then some ([], cs)
      else (cutAt? sep cs).map fun (before, after) => (c :: before, after)

@[simp] theorem stretches_nil (pat : List Char) : stretches pat [] = [[]] := rfl

end MessageBody.Text
