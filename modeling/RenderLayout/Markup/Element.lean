import RenderLayout.Markup.Entity

/-!
Writing elements as markup.

Every element has a start tag and an end tag; its text stands before the elements in it, and no
blanks are added. Values and texts are written with the five named characters as entities.
-/

namespace RenderLayout.Markup

/-- A character of a name that has no meaning of its own in a tag. -/
def isNameChar (c : Char) : Bool := c.isAlpha || c = '-'

/-- The name of an element or of an attribute. -/
structure Name where
  text : String
  ne_nil : text.toList ≠ [] := by decide
  all_isNameChar : text.toList.all isNameChar = true := by decide

theorem Name.isNameChar_of_mem (name : Name) {c : Char} (h : c ∈ name.text.toList) :
    isNameChar c = true := List.all_eq_true.1 name.all_isNameChar c h

/-- A start tag: the name of an element and its attributes, no two of the same name. -/
structure Opening where
  name : Name
  attributes : List (Name × String) := []
  nodup : (attributes.map (·.1.text)).Nodup := by simp

/-- An element: its start tag, its text and the elements in it. -/
inductive Element where
  | mk (opening : Opening) (text : String) (children : List Element)

/-- An attribute behind a blank, its value in quotation marks. -/
def attributeChars (a : Name × String) : List Char :=
  ' ' :: a.1.text.toList ++ '=' :: '"' :: a.2.toList.flatMap escapeChar ++ ['"']

/-- What stands behind the name in a start tag. -/
def Opening.rest (opening : Opening) : List Char := opening.attributes.flatMap attributeChars

/-- What stands between the brackets of a start tag. -/
def Opening.content (opening : Opening) : List Char := opening.name.text.toList ++ opening.rest

mutual

def Element.chars : Element → List Char
  | .mk opening text children =>
    '<' :: opening.content ++ '>' :: text.toList.flatMap escapeChar ++ charsOf children ++
      '<' :: '/' :: opening.name.text.toList ++ ['>']

def Element.charsOf : List Element → List Char
  | [] => []
  | element :: elements => element.chars ++ charsOf elements

end

def Element.markup (element : Element) : String := String.ofList element.chars

end RenderLayout.Markup
