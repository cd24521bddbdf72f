import RenderLayout.Drawing.Basic
import RenderLayout.Drawing.Fault

/-!
What a drawing has to satisfy before it becomes a page: it has the right canvas, and every text
holds one span, which holds no further ones.
-/

namespace RenderLayout

def Drawing.checkCanvas (expected : Canvas) (drawing : Drawing) : Except PageFault Unit :=
  if drawing.canvas == expected then .ok () else .error (.wrongCanvas drawing.canvas expected)

/-- The only span of a text at a place. Spans within spans are told before their number. -/
def TextBox.singleSpan (layer index : Nat) (text : TextBox) : Except PageFault Span :=
  if text.spans.any (!·.spans.isEmpty) then .error (.nestedSpan layer index)
  else
    match text.spans with
    | [span] => .ok span
    | spans => .error (.spanCount layer index spans.length)

/-- A shape that is not a text holds. -/
def Placed.check (placed : Placed) : Except PageFault Unit :=
  match placed.shape with
  | .text text => do let _ ← text.singleSpan placed.layer placed.index
  | _ => .ok ()

def Drawing.checkTexts (drawing : Drawing) : Except PageFault Unit :=
  drawing.placed.forM Placed.check

def Drawing.check (canvas : Canvas) (drawing : Drawing) : Except PageFault Unit := do
  drawing.checkCanvas canvas
  drawing.checkTexts

end RenderLayout
