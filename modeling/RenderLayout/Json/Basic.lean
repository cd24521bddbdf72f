import RenderLayout.Table

/-!
JSON values.

A whole number that fits 64 bits, with or without a sign, is kept as such; every other number is
a float. The members of an object stand in the order of their keys.
-/

namespace RenderLayout

inductive Json where
  | null
  | bool (value : Bool)
  | int (value : Int)
  | float (value : Float)
  | str (value : String)
  | arr (items : List Json)
  | obj (members : List (String × Json))
  deriving Inhabited

namespace Json

/-- The object of these members; a later one replaces an earlier one of the same key. -/
def object (members : List (String × Json)) : Json :=
  .obj (members.foldl (fun sorted m => insertPair m.1 m.2 sorted) [])

def ofTable (f : α → Json) (t : Table α) : Json := .obj (t.map f).pairs

/-- The value of a key; nothing outside objects. -/
def find? (key : String) : Json → Option Json
  | .obj members => findPair key members
  | _ => none

/-- A member that is written only if it is there. -/
def optional (key : String) (f : α → Json) : Option α → List (String × Json)
  | some value => [(key, f value)]
  | none => []

end Json

end RenderLayout
