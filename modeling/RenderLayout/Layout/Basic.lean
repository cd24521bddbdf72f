import RenderLayout.Font.Book
import RenderLayout.Style.Basic

/-!
Layouts: the fonts, the styles and the pages that are drawn.

A page is a list of components. A component names its style and its font, and it may bind some of
its properties to expressions; its own values stay beside them.
-/

namespace RenderLayout

structure Point where
  x : Float
  y : Float
  deriving Inhabited

/-- Both coordinates with three decimals. -/
def Point.text (point : Point) : String :=
  String.ofList ('(' :: Number.fixed 3 point.x ++ ',' :: Number.fixed 3 point.y ++ [')'])

inductive Kind where
  | box
  | circle
  | text
  deriving DecidableEq, Repr, Inhabited

def Kind.name : Kind → String
  | .box => "box"
  | .circle => "circle"
  | .text => "text"

structure Component where
  kind : Kind
  /-- Layers are counted from one. -/
  layer : Nat
  visible : Bool := true
  /-- The place, or the corner of a box that its drawing starts from. -/
  pos1 : Point
  /-- The opposite corner of a box. -/
  pos2 : Option Point := none
  cornerRadius : Option Float := none
  radius : Option Float := none
  style : Option String := none
  font : Option String := none
  text : Option String := none
  /-- Expressions under the properties that they are bound to. -/
  bindings : Table String := .empty
  deriving Inhabited

abbrev Page := List Component

structure Layout where
  fonts : Table Font := .empty
  styles : Table Style := .empty
  pages : Table Page := .empty
  deriving Inhabited

/-- The style names of components that have no style in the layout, with their pages. -/
def Layout.dangling (layout : Layout) : List (String × String) :=
  layout.pages.pairs.flatMap fun (name, page) =>
    (page.filterMap (·.style)).filterMap fun style =>
      if layout.styles.contains style then none else some (name, style)

end RenderLayout
