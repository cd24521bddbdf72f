import RenderLayout.Json.Decoder
import RenderLayout.Number.Format
import RenderLayout.Number.Reader
import RenderLayout.Text.Digit
import RenderLayout.Text.Search

/-!
Colors and their text form, `r0.500,g0.500,b0.500,a1.000`.

A channel has three decimals, whichever way a color comes about. The text form is read with any
number of decimals.
-/

namespace RenderLayout

structure Color where
  red : Float
  green : Float
  blue : Float
  alpha : Float
  deriving BEq, Inhabited

namespace Color

open Number Text

/-- The color of channels that are rounded to three decimals. -/
def ofChannels (red green blue alpha : Float) : Color :=
  ⟨roundTo 3 red, roundTo 3 green, roundTo 3 blue, roundTo 3 alpha⟩

/-- The color of channels that are counted in 255 steps, and an opacity. -/
def ofBytes (red green blue : UInt8) (alpha : Float) : Color :=
  ofChannels (share red) (share green) (share blue) alpha
where
  share (step : UInt8) : Float := ofRatio false step.toNat 1 / 255

def text (color : Color) : String :=
  String.ofList <|
    'r' :: fixed 3 color.red ++ ",g".toList ++ fixed 3 color.green ++ ",b".toList ++
      fixed 3 color.blue ++ ",a".toList ++ fixed 3 color.alpha

/-- The number behind a mark, and the text behind the number. -/
def readChannel (mark s : List Char) : Option (Float × List Char) := do
  let rest ← after? mark s
  let numeral := takeNumeral rest
  let value ← readFloat? numeral
  return (value, rest.drop numeral.length)

/-- Reads a text form from its first to its last character. -/
def ofText? (s : String) : Option Color := do
  let (red, s) ← readChannel ['r'] s.toList
  let (green, s) ← readChannel [',', 'g'] s
  let (blue, s) ← readChannel [',', 'b'] s
  let (alpha, s) ← readChannel [',', 'a'] s
  guard s.isEmpty
  return ofChannels red green blue alpha

/-- What is said of a text that is not the form of a color. -/
def refusal (s : String) : String := "Cannot turn string into color: " ++ s

def json (color : Color) : Json := .str color.text

def decoder : Json.Decoder Color :=
  .parsed fun s =>
    match ofText? s with
    | some color => .ok color
    | none => .error (refusal s)

end Color

end RenderLayout
