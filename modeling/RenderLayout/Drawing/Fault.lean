import RenderLayout.Canvas
import RenderLayout.Markup.Node
import RenderLayout.Number.Format
import RenderLayout.Style.Declarations

/-!
What can be wrong with a page: its markup, its numbers, its size, its texts and its class lists.
-/

namespace RenderLayout

/-- What can be wrong with the markup of a drawing. -/
inductive MarkupFault where
  /-- A fault of the markup itself, with its place. -/
  | malformed (place : Nat) (fault : Markup.Fault)
  /-- An element that is passed over does not come to its end. -/
  | unterminated (element : String) (fault : Markup.Fault)
  | unexpectedEnd (within : String)
  | rootMissing
  | wrongRoot (found : String)
  | unsupported (element : String)
  | badTag (fault : Markup.TagFault)
  | badText (fault : Markup.EntityFault)
  deriving DecidableEq, Repr

def MarkupFault.message : MarkupFault → String
  | .malformed place fault => s!"XML parse error at position {place}: {fault.message}"
  | .unterminated element fault => s!"unterminated <{element}>: {fault.message}"
  | .unexpectedEnd within => s!"unexpected EOF in {within}"
  | .rootMissing => "no <svg> element found"
  | .wrongRoot found => s!"expected <svg> root, found <{found}>"
  | .unsupported element => s!"unsupported element: <{element}>"
  | .badTag fault => s!"attribute error: {fault.message}"
  | .badText fault => s!"text error: {fault.message}"

inductive PageFault where
  | markup (fault : MarkupFault)
  /-- A text that is no number, in a style or in an element. -/
  | badNumber (context : String) (number : BadNumber)
  | wrongCanvas (found expected : Canvas)
  | spanCount (layer index count : Nat)
  | nestedSpan (layer index : Nat)
  | unknownStyle (name : String)

def Canvas.text (canvas : Canvas) : String :=
  Number.plain canvas.width ++ "x" ++ Number.plain canvas.height

/-- What is said of a page with a fault. -/
def PageFault.message (page : String) : PageFault → String
  | .markup fault => s!"Markup error in '{page}': {fault.message}"
  | .badNumber context number =>
    s!"Page '{page}': cannot parse '{number.text}' as a number for {number.field} in {context}"
  | .wrongCanvas found expected =>
    s!"Page '{page}': dimensions must be {expected.text}, image is {found.text}"
  | .spanCount layer index count =>
    s!"Page '{page}', layer {layer}, shape {index}: " ++
      s!"only a single span may exist in a text, found {count}"
  | .nestedSpan layer index =>
    s!"Page '{page}', layer {layer}, shape {index}: nested text spans not supported"
  | .unknownStyle name => s!"Page '{page}': unknown referenced style: {name}"

end RenderLayout
