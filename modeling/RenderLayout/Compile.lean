import RenderLayout.Draft
import RenderLayout.Failure
import RenderLayout.Layout.Json

/-!
From drawings to a layout: the pages are checked and added in the order of their names, and then
equal styles get one name.
-/

namespace RenderLayout

namespace Draft

/-- The draft with one more page. -/
def addChecked (canvas : Canvas) (draft : Draft) (page : String) (drawing : Drawing) :
    Except PageFault Draft := do
  drawing.check canvas
  match draft.addDrawing page drawing with
  | (.ok (), draft) => return draft
  | (.error fault, _) => throw fault

/-- The draft of all drawings. -/
def ofDrawings (canvas : Canvas) (drawings : Table Drawing) : Except Failure Draft :=
  drawings.pairs.foldlM
    (fun draft p => (draft.addChecked canvas p.1 p.2).mapError (.page p.1)) {}

end Draft

/-- The layout whose pages are the drawings. -/
def compile (canvas : Canvas) (drawings : Table Drawing) : Except Failure Layout := do
  let draft ← Draft.ofDrawings canvas drawings
  return draft.layout.unify draft.classes

end RenderLayout
