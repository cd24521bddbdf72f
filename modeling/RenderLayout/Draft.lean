import RenderLayout.Binding
import RenderLayout.Drawing.Check
import RenderLayout.Layout.Unify
import RenderLayout.Style.Sheet

/-!
Drafts: layouts under way, to which pages are added one by one.

A draft holds the styles of all pages, of classes and of components, the names of those of classes,
the book of fonts and the pages. A drawing that cannot become a page leaves behind what was entered
before its fault, but no page.
-/

namespace RenderLayout

structure Draft where
  styles : Table Style := .empty
  /-- The names of the styles of classes. -/
  classes : Names := .empty
  fonts : FontBook := {}
  pages : Table Page := .empty
  deriving Inhabited

/-- Work on a draft; the draft is kept when the work fails. -/
abbrev Drafting := ExceptT PageFault (StateM Draft)

namespace Draft

def addStyle (name : String) (style : Style) (draft : Draft) : Draft :=
  { draft with styles := draft.styles.insert name style }

def addClass (draft : Draft) (name : String) (style : Style) : Draft :=
  { draft with classes := draft.classes.add name, styles := draft.styles.insert name style }

def addClasses (classes : Table Style) (draft : Draft) : Draft :=
  classes.pairs.foldl (fun draft p => draft.addClass p.1 p.2) draft

/-- Enters the font for declarations. -/
def resolveFont (declarations : String) (draft : Draft) : Draft :=
  { draft with fonts := (draft.fonts.resolve declarations).2 }

def useFont (key : String) (draft : Draft) : Draft :=
  { draft with fonts := draft.fonts.use key }

def addPage (name : String) (page : Page) (draft : Draft) : Draft :=
  { draft with pages := draft.pages.insert name page }

/-- The layout of a draft has the fonts that are used. -/
def layout (draft : Draft) : Layout := ⟨draft.fonts.used, draft.styles, draft.pages⟩

end Draft

/-- What the style of a component goes by: its page, its kind and its number on the page. -/
def componentStyleName (page : String) (kind : Kind) (number : Nat) : String :=
  s!"{page}-{kind.name}-{number}"

/-- The style with its open fields as in the classes of a list, an earlier class before a later
one. -/
def overClasses (page : String) (classes : Table Style) (style : Style) :
    List (List Char) → Except PageFault Style
  | [] => .ok style
  | word :: words =>
    let name := classStyleName page (String.ofList word)
    match classes.find? name with
    | some base => overClasses page classes (style.orElse base) words
    | none => .error (.unknownStyle name)

/-- The style of a component: its own declarations, then its classes. -/
def cascade (page : String) (classes : Table Style) (name declarations classList : String) :
    Except PageFault Style := do
  let own ← (Style.ofDeclarations declarations).mapError (.badNumber name)
  overClasses page classes own (Text.words classList.toList)

/-- The page that a component is for. -/
structure PageContext where
  page : String
  drawing : Drawing
  classes : Table Style

namespace PageContext

/-- Enters the style of a component, and gives its name. -/
def enterStyle (context : PageContext) (kind : Kind) (number : Nat)
    (declarations classList : String) : Drafting String := do
  let name := componentStyleName context.page kind number
  let style ← cascade context.page context.classes name declarations classList
  modify (Draft.addStyle name style)
  return name

def box (context : PageContext) (layer number : Nat) (rect : Rect) : Drafting Component := do
  let style ← context.enterStyle .box number rect.style rect.classes
  return {
    kind := .box
    layer
    pos1 := ⟨rect.x, rect.y⟩
    pos2 := some ⟨rect.x + rect.width, rect.y + rect.height⟩
    cornerRadius := context.drawing.cornerRadius? rect.pathEffect
    style := some style
    bindings := Binding.ofText rect.description }

def circle (context : PageContext) (layer number : Nat) (circle : Circle) : Drafting Component := do
  let style ← context.enterStyle .circle number circle.style circle.classes
  return {
    kind := .circle
    layer
    pos1 := ⟨circle.cx, circle.cy⟩
    radius := some circle.r
    style := some style
    bindings := Binding.ofText circle.description }

end PageContext

/-- The font of a text: that of its span, if the catalog has what the span asks for, and else that
of the text itself. -/
def fontOf (text : TextBox) (span : Span) : Font :=
  let outer := Font.choose text.style
  let inner := Font.choose span.style
  if inner.key ≠ outer.key ∧ !inner.substituted then inner.font else outer.font

namespace PageContext

/-- A text stands where its span does. -/
def text (context : PageContext) (layer index number : Nat) (text : TextBox) :
    Drafting Component := do
  let span ← text.singleSpan layer index
  modify (Draft.resolveFont text.style)
  modify (Draft.resolveFont span.style)
  let font := (fontOf text span).key
  modify (Draft.useFont font)
  let style ← context.enterStyle .text number text.style text.classes
  return {
    kind := .text
    layer
    pos1 := ⟨span.x, span.y⟩
    style := some style
    font := some font
    text := some span.text
    bindings := Binding.ofText text.description }

/-- The component of a shape that has a number on its page. -/
def component (context : PageContext) (placed : Placed) (number : Nat) : Drafting Component :=
  match placed.shape with
  | .rect rect => context.box placed.layer number rect
  | .circle circle => context.circle placed.layer number circle
  | .text text => context.text placed.layer placed.index number text

end PageContext

/-- The styles of the classes of a drawing. -/
def Drawing.classStyles (page : String) (drawing : Drawing) : Except PageFault (Table Style) :=
  (Sheet.classStyles page drawing.sheets).mapError fun bad => .badNumber bad.name bad.number

/-- Makes a drawing a page of the draft. -/
def Drafting.addDrawing (page : String) (drawing : Drawing) : Drafting Unit := do
  let classes ← drawing.classStyles page
  modify (Draft.addClasses classes)
  let context : PageContext := ⟨page, drawing, classes⟩
  let components ← drawing.placed.zipIdx.mapM fun (placed, number) =>
    context.component placed number
  modify (Draft.addPage page components)

/-- What comes of adding a drawing, and the draft after it. -/
def Draft.addDrawing (draft : Draft) (page : String) (drawing : Drawing) :
    Except PageFault Unit × Draft :=
  (Drafting.addDrawing page drawing).run.run draft

end RenderLayout
