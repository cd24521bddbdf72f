import RenderLayout.Style.Color

/-!
Styles: how a component is drawn.

Every field of a style may be left open. `Style.orElse` closes the open fields with those of another
style; what a style says itself it keeps. Two styles are equal if they leave the same fields open
and agree on the others.
-/

namespace RenderLayout

/-- A color and how far it reaches: the width of a stroke, the distance of a shadow. -/
structure Edge where
  color : Color
  distance : Float
  deriving BEq, Inhabited

structure Style where
  align : Option String := none
  stroke : Option Edge := none
  fill : Option Color := none
  rotation : Option Float := none
  shadow : Option Edge := none
  deriving BEq, Inhabited

open Json (optional)
open Json.Decoder (field)

namespace Edge

def json (edge : Edge) : Json :=
  .object [("color", edge.color.json), ("distance", .float edge.distance)]

def decoder : Json.Decoder Edge :=
  .record "struct ColorAndDistance"
    [field "color" true Color.decoder fun edge color => { edge with color },
      field "distance" true .float fun edge distance => { edge with distance }]
    default

end Edge

namespace Style

/-- The style, with its open fields as in `base`. -/
def orElse (style base : Style) : Style where
  align := style.align <|> base.align
  stroke := style.stroke <|> base.stroke
  fill := style.fill <|> base.fill
  rotation := style.rotation <|> base.rotation
  shadow := style.shadow <|> base.shadow

/-- Open fields are left out. -/
def json (style : Style) : Json :=
  .object <|
    optional "align" .str style.align ++ optional "stroke" Edge.json style.stroke ++
      optional "fill" Color.json style.fill ++ optional "rotation" .float style.rotation ++
      optional "shadow" Edge.json style.shadow

def decoder : Json.Decoder Style :=
  .record "struct Style"
    [field "align" false (.optional .text) fun style align => { style with align },
      field "stroke" false (.optional Edge.decoder) fun style stroke => { style with stroke },
      field "fill" false (.optional Color.decoder) fun style fill => { style with fill },
      field "rotation" false (.optional .float) fun style rotation => { style with rotation },
      field "shadow" false (.optional Edge.decoder) fun style shadow => { style with shadow }]
    default

theorem orElse_self (style : Style) : style.orElse style = style := by
  simp [orElse]

theorem orElse_orElse_self (style base : Style) :
    (style.orElse base).orElse base = style.orElse base := by
  simp only [orElse, mk.injEq]
  refine ⟨?_, ?_, ?_, ?_, ?_⟩
  · cases style.align <;> cases base.align <;> rfl
  · cases style.stroke <;> cases base.stroke <;> rfl
  · cases style.fill <;> cases base.fill <;> rfl
  · cases style.rotation <;> cases base.rotation <;> rfl
  · cases style.shadow <;> cases base.shadow <;> rfl

end Style

end RenderLayout
