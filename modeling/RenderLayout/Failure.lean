import RenderLayout.Drawing.Fault
import RenderLayout.Files.Tree
import RenderLayout.Json.Fault

/-!
Why there is no layout. Every failure ends the whole run.
-/

namespace RenderLayout

inductive Failure where
  | page (name : String) (fault : PageFault)
  | duplicatePage (name : String)
  /-- No page can be named after the path. -/
  | namelessPath (path : String)
  /-- The settings at the path cannot be read. -/
  | badSettings (path : String) (fault : Json.Fault)
  | file (fault : FileFault)

def Failure.message : Failure → String
  | .page name fault => fault.message name
  | .duplicatePage name => s!"Two inputs map to page '{name}'"
  | .namelessPath path => s!"Configuration error: no page name in path {path}"
  | .badSettings path fault => s!"Configuration error: {path}: {fault.message}"
  | .file fault => s!"I/O error: {fault.message}"

end RenderLayout
