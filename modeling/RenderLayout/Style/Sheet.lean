import RenderLayout.Style.Declarations
import RenderLayout.Text.Blank

/-!
Style sheets: rules that give a class its declarations, such as `.wide { stroke-width:3 }`.

The style of a class belongs to the page of its sheet, and so does the name it goes by. A later rule
replaces an earlier one of the same class.
-/

namespace RenderLayout

/-- The style of a class, or of a component, with a number that cannot be read. -/
structure BadStyle where
  name : String
  number : BadNumber
  deriving DecidableEq, Repr

namespace Sheet

open Text

structure Rule where
  className : String
  body : String
  deriving DecidableEq, Repr

/-- A character of the name of a class. -/
def isNameChar (c : Char) : Bool := c.isAlphanum || c = '_' || c = '-'

/-- The rule at the start of a text, and how many characters it has: a point, the name, blanks and
the body in braces, up to the first closing brace. -/
def rule? : List Char → Option (Rule × Nat)
  | '.' :: s =>
    let name := s.takeWhile isNameChar
    let rest := s.dropWhile isNameChar
    let blanks := rest.takeWhile isBlank
    match name, rest.dropWhile isBlank with
    | [], _ => none
    | _, '\x7b' :: rest =>
      let body := rest.takeWhile (· ≠ '\x7d')
      match rest.dropWhile (· ≠ '\x7d') with
      | [] => none
      | _ :: _ =>
        some (⟨String.ofList name, String.ofList body⟩,
          name.length + blanks.length + body.length + 3)
    | _, _ => none
  | _ => none

def rules (sheet : String) : List Rule := allMatches rule? sheet.toList

end Sheet

/-- What the style of a class of a page goes by. -/
def classStyleName (page className : String) : String := page ++ "-" ++ className

namespace Sheet

/-- The style of a rule under its name. -/
def styleOf (page : String) (rule : Rule) : Except BadStyle (String × Style) :=
  let name := classStyleName page rule.className
  match Style.ofDeclarations rule.body with
  | .ok style => .ok (name, style)
  | .error number => .error ⟨name, number⟩

/-- The class styles of the sheets of a page, the rules taken in order. -/
def classStyles (page : String) (sheets : List String) : Except BadStyle (Table Style) :=
  return .ofList (← (sheets.flatMap rules).mapM (styleOf page))

end Sheet

end RenderLayout
