import RenderLayout.Canvas
import RenderLayout.Table
import RenderLayout.Text.Blank

/-!
Drawings: a canvas, style sheets, the radii of path effects, and layers of shapes.

Styles, class lists and descriptions are the raw texts of the drawing; what they mean is said where
they are read.
-/

namespace RenderLayout

structure Rect where
  x : Float := 0
  y : Float := 0
  width : Float := 0
  height : Float := 0
  style : String := ""
  classes : String := ""
  pathEffect : String := ""
  description : String := ""
  deriving Inhabited

structure Circle where
  cx : Float := 0
  cy : Float := 0
  r : Float := 0
  style : String := ""
  classes : String := ""
  description : String := ""
  deriving Inhabited

/-- A piece of a text with a place of its own; it may hold further pieces. -/
structure Span where
  x : Float := 0
  y : Float := 0
  style : String := ""
  text : String := ""
  description : String := ""
  spans : List Span := []
  deriving Inhabited

structure TextBox where
  x : Float := 0
  y : Float := 0
  style : String := ""
  classes : String := ""
  description : String := ""
  spans : List Span := []
  deriving Inhabited

inductive Shape where
  | rect (rect : Rect)
  | circle (circle : Circle)
  | text (text : TextBox)
  deriving Inhabited

abbrev Layer := List Shape

structure Drawing where
  canvas : Canvas := {}
  /-- The texts of the style sheets, in order. -/
  sheets : List String := []
  /-- The radii of the path effects under their names. -/
  pathEffects : Table Float := .empty
  layers : List Layer := []
  deriving Inhabited

/-- A shape with the number of its layer, counted from one, and its place in the layer, counted
from zero. -/
structure Placed where
  layer : Nat
  index : Nat
  shape : Shape

namespace Drawing

open Text

/-- The shapes of all layers in order. -/
def placed (drawing : Drawing) : List Placed :=
  drawing.layers.zipIdx.flatMap fun (layer, n) =>
    layer.zipIdx.map fun (shape, index) => ⟨n + 1, index, shape⟩

/-- The name of a path effect in a reference: blanks around it and number signs before it do not
count. -/
def effectName (reference : String) : String :=
  String.ofList ((trim reference.toList).dropWhile (· = '#'))

/-- The corner radius that a reference to a path effect gives. -/
def cornerRadius? (drawing : Drawing) (reference : String) : Option Float :=
  drawing.pathEffects.find? (effectName reference)

end Drawing

end RenderLayout
