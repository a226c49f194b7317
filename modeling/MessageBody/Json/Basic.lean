import MessageBody.Order.Insertion

/-! # JSON values

    Whole numbers and floating-point numbers are told apart, and the members of
    an object keep their order. -/

namespace MessageBody

/-- A JSON value. -/
inductive Json where
  | null
  | bool (b : Bool)
  | int (n : Int)
  | float (x : Float)
  | str (s : String)
  | arr (items : List Json)
  | obj (members : List (String × Json))
  deriving Inhabited

namespace Json

/-- The value of the member `key`, when there is one. -/
def member? (key : String) (members : List (String × Json)) : Option Json :=
  members.lookup key

/-- The members with `key` set to `value`: in its place when it is there, at the
    end otherwise. -/
def setMember (key : String) (value : Json) :
    List (String × Json) → List (String × Json)
  | [] => [(key, value)]
  | (k, v) :: rest =>
      if k = key then (key, value) :: rest else (k, v) :: setMember key value rest

/-- A text, or null when there is none. -/
def ofText? : Option String → Json
  | none => .null
  | some s => .str s

/-- A whole number, or null when there is none. -/
def ofInt? : Option Int → Json
  | none => .null
  | some n => .int n

/-- Members in the order of their keys. -/
def sortMembers (members : List (String × Json)) : List (String × Json) :=
  Order.sort (fun a b => a.1 < b.1 || a.1 == b.1) members

mutual

/-- The value with the members of every object in the order of their keys. -/
def sortKeys : Json → Json
  | .arr items => .arr (sortKeysList items)
  | .obj members => .obj (sortMembers (sortKeysMembers members))
  | .null => .null
  | .bool b => .bool b
  | .int n => .int n
  | .float x => .float x
  | .str s => .str s

/-- `sortKeys` for each item. -/
def sortKeysList : List Json → List Json
  | [] => []
  | item :: items => sortKeys item :: sortKeysList items

/-- `sortKeys` for the value of each member. -/
def sortKeysMembers : List (String × Json) → List (String × Json)
  | [] => []
  | (key, value) :: members => (key, sortKeys value) :: sortKeysMembers members

end

mutual

/-- The whole numbers in a value, in their order. -/
def numbers : Json → List Int
  | .int n => [n]
  | .arr items => numbersOfItems items
  | .obj members => numbersOfMembers members
  | .null | .bool _ | .float _ | .str _ => []

/-- The whole numbers in items. -/
def numbersOfItems : List Json → List Int
  | [] => []
  | item :: items => numbers item ++ numbersOfItems items

/-- The whole numbers in the values of members. -/
def numbersOfMembers : List (String × Json) → List Int
  | [] => []
  | (_, value) :: members => numbers value ++ numbersOfMembers members

end

mutual

/-- How many brackets stand around the innermost part of a value: none for a
    value without items, and one more than its deepest item for a list or an
    object. -/
def nesting : Json → Nat
  | .arr items => nestingList items + 1
  | .obj members => nestingMembers members + 1
  | .null | .bool _ | .int _ | .float _ | .str _ => 0

/-- The nesting of the deepest item. -/
def nestingList : List Json → Nat
  | [] => 0
  | item :: items => max (nesting item) (nestingList items)

/-- The nesting of the deepest member. -/
def nestingMembers : List (String × Json) → Nat
  | [] => 0
  | (_, value) :: members => max (nesting value) (nestingMembers members)

end

end Json

end MessageBody
