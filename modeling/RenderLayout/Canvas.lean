import RenderLayout.Json.Decoder

/-!
The canvas: how wide and how high a drawing is. All drawings of a layout have the same canvas.
-/

namespace RenderLayout

structure Canvas where
  width : Float := 1024
  height : Float := 613
  deriving BEq, Inhabited

namespace Canvas

def json (canvas : Canvas) : Json :=
  .object [("width", .float canvas.width), ("height", .float canvas.height)]

/-- Reads a canvas; a side that is not given is that of the default canvas. -/
def decoder : Json.Decoder Canvas :=
  .record "struct CanvasSize"
    [Json.Decoder.field "width" false .float fun canvas width => { canvas with width },
      Json.Decoder.field "height" false .float fun canvas height => { canvas with height }]
    {}

end Canvas

end RenderLayout
