import RenderLayout.Table
import RenderLayout.Text.Blank

/-!
Bindings: lines such as `visible:$isOn(lamp)` that tie a property of a component to an expression.

A line is trimmed first. Then it is a property of small letters and digits, a colon, and the
expression: a dollar sign, the name of a function and something in brackets, which go up to the end
of the line. Other lines say nothing, and of two lines for a property the later one counts.
-/

namespace RenderLayout.Binding

open Text

def isPropertyChar (c : Char) : Bool := c.isLower || c.isDigit

/-- Whether a text is `$name(…)`, with something in the brackets. -/
def isExpression : List Char → Bool
  | '$' :: s =>
    match s.takeWhile Char.isAlphanum, s.dropWhile Char.isAlphanum with
    | [], _ => false
    | _, '(' :: inner => inner.getLast? = some ')' && 2 ≤ inner.length
    | _, _ => false
  | _ => false

/-- The property and the expression of a trimmed line. -/
def ofLine? (line : List Char) : Option (String × String) :=
  match line.takeWhile isPropertyChar, line.dropWhile isPropertyChar with
  | [], _ => none
  | property, ':' :: expression =>
    if isExpression expression then some (String.ofList property, String.ofList expression)
    else none
  | _, _ => none

/-- The lines of a text. -/
def lines (text : String) : List (List Char) := split (· = '\n') text.toList

/-- The expressions of a text under their properties. -/
def ofText (text : String) : Table String :=
  .ofList ((lines text).filterMap fun line => ofLine? (trim line))

end RenderLayout.Binding
