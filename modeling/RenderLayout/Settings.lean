import RenderLayout.Canvas
import RenderLayout.Failure

/-!
Settings of a run, which may stand in a JSON file. What is not set there has its default.
-/

namespace RenderLayout

structure Settings where
  canvas : Canvas := {}
  deriving BEq, Inhabited

namespace Settings

def json (settings : Settings) : Json := .object [("canvas", settings.canvas.json)]

def decoder : Json.Decoder Settings :=
  .record "struct ConverterConfig"
    [Json.Decoder.field "canvas" false Canvas.decoder fun settings canvas =>
      { settings with canvas }]
    {}

def load (read : FileReader) (path : OsText) : Except Failure Settings := do
  let text ← (read path).mapError .file
  (decoder.decode text).mapError (.badSettings path.shown)

end Settings

end RenderLayout
