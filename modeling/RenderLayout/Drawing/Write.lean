import RenderLayout.Drawing.Basic
import RenderLayout.Markup.Element
import RenderLayout.Number.Format

/-!
Writing drawings as markup.

The root holds one `defs`, with a `style` for every sheet and a `path-effect` for every path effect,
and one `g` for every layer. Everything a shape has is written, its description as a `desc` element
and its spans as `tspan` elements within each other.
-/

namespace RenderLayout

open Markup

def descriptionElement (description : String) : Element :=
  .mk { name := .mk "desc" } description []

def spanOpening (x y : Float) (style : String) : Opening where
  name := .mk "tspan"
  attributes := [(.mk "x", Number.plain x), (.mk "y", Number.plain y), (.mk "style", style)]

mutual

def Span.element : Span → Element
  | ⟨x, y, style, text, description, spans⟩ =>
    .mk (spanOpening x y style) text (elements spans ++ [descriptionElement description])

def Span.elements : List Span → List Element
  | [] => []
  | span :: spans => span.element :: elements spans

end

example :
    (Span.element { x := 1.5, style := "fill:red", text := "a < b", spans := [{}] }).markup =
      "<tspan x=\"1.5\" y=\"0\" style=\"fill:red\">a &lt; b" ++
        "<tspan x=\"0\" y=\"0\" style=\"\"><desc></desc></tspan><desc></desc></tspan>" := by
  decide +kernel

def Rect.opening (rect : Rect) : Opening where
  name := .mk "rect"
  attributes :=
    [(.mk "x", Number.plain rect.x), (.mk "y", Number.plain rect.y),
      (.mk "width", Number.plain rect.width), (.mk "height", Number.plain rect.height),
      (.mk "style", rect.style), (.mk "class", rect.classes), (.mk "path-effect", rect.pathEffect)]

def Circle.opening (circle : Circle) : Opening where
  name := .mk "circle"
  attributes :=
    [(.mk "cx", Number.plain circle.cx), (.mk "cy", Number.plain circle.cy),
      (.mk "r", Number.plain circle.r), (.mk "style", circle.style), (.mk "class", circle.classes)]

def TextBox.opening (text : TextBox) : Opening where
  name := .mk "text"
  attributes :=
    [(.mk "x", Number.plain text.x), (.mk "y", Number.plain text.y), (.mk "style", text.style),
      (.mk "class", text.classes)]

def Shape.element : Shape → Element
  | .rect r => .mk r.opening "" [descriptionElement r.description]
  | .circle c => .mk c.opening "" [descriptionElement c.description]
  | .text t => .mk t.opening "" (descriptionElement t.description :: Span.elements t.spans)

def Layer.element (layer : Layer) : Element := .mk { name := .mk "g" } "" (layer.map Shape.element)

def sheetElement (sheet : String) : Element := .mk { name := .mk "style" } sheet []

def pathEffectOpening (pathEffect : String × Float) : Opening where
  name := .mk "path-effect"
  attributes := [(.mk "id", pathEffect.1), (.mk "radius", Number.plain pathEffect.2)]

namespace Drawing

def definitions (drawing : Drawing) : Element :=
  .mk { name := .mk "defs" } ""
    (drawing.sheets.map sheetElement ++
      drawing.pathEffects.pairs.map fun pathEffect => .mk (pathEffectOpening pathEffect) "" [])

def opening (drawing : Drawing) : Opening where
  name := .mk "svg"
  attributes :=
    [(.mk "width", Number.plain drawing.canvas.width),
      (.mk "height", Number.plain drawing.canvas.height)]

/-- The markup of a drawing. -/
def markup (drawing : Drawing) : String :=
  (Element.mk drawing.opening "" (drawing.definitions :: drawing.layers.map Layer.element)).markup

end Drawing

/-! ### Drawings of finite numbers -/

mutual

def Span.isFinite : Span → Bool
  | ⟨x, y, _, _, _, spans⟩ => x.isFinite && y.isFinite && Span.areFinite spans

def Span.areFinite : List Span → Bool
  | [] => true
  | span :: spans => span.isFinite && Span.areFinite spans

end

def Rect.isFinite (rect : Rect) : Bool :=
  rect.x.isFinite && rect.y.isFinite && rect.width.isFinite && rect.height.isFinite

def Circle.isFinite (circle : Circle) : Bool :=
  circle.cx.isFinite && circle.cy.isFinite && circle.r.isFinite

def TextBox.isFinite (text : TextBox) : Bool :=
  text.x.isFinite && text.y.isFinite && Span.areFinite text.spans

def Shape.isFinite : Shape → Bool
  | .rect r => r.isFinite
  | .circle c => c.isFinite
  | .text t => t.isFinite

/-- No number of the drawing is infinite or NaN. -/
def Drawing.isFinite (drawing : Drawing) : Bool :=
  drawing.canvas.width.isFinite && drawing.canvas.height.isFinite &&
    drawing.pathEffects.pairs.all (·.2.isFinite) &&
    drawing.layers.all fun layer => layer.all Shape.isFinite

end RenderLayout
