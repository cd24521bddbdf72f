import RenderLayout.Json.Writer
import RenderLayout.Layout.Basic
import RenderLayout.Sha256

/-!
Layouts as JSON.

Parts of a layout that are empty, and values that a component does not have, are left out. A binding
stands in the place of the value of its property, if the property is one of the four that can be
bound. The text of a layout is the one with sorted keys and no blanks, and its digest is taken of
that text.
-/

namespace RenderLayout

open Json (optional)

def Kind.ofName? (name : String) : Option Kind := [Kind.box, .circle, .text].find? (·.name = name)

def Kind.decoder : Json.Decoder Kind := .name ofName? ["box", "circle", "text"]

def Kind.json (kind : Kind) : Json := .str kind.name

/-- The members of a component that has no bindings. -/
def Component.ownMembers (c : Component) : List (String × Json) :=
  [("type", c.kind.json), ("layer", .int c.layer), ("visible", .bool c.visible),
      ("pos1", .str c.pos1.text)] ++
    optional "pos2" (fun point => .str point.text) c.pos2 ++
    optional "corner_radius" .float c.cornerRadius ++ optional "radius" .float c.radius ++
    optional "style" .str c.style ++ optional "font" .str c.font ++ optional "text" .str c.text

/-- The properties that can be bound. -/
def boundProperties : List String := ["pos1", "pos2", "style", "text"]

/-- The members that bindings put in place of others. -/
def Component.boundMembers (c : Component) : List (String × Json) :=
  boundProperties.flatMap fun property => optional property .str (c.bindings.find? property)

def Component.json (c : Component) : Json := .object (c.ownMembers ++ c.boundMembers)

def Page.json (page : Page) : Json :=
  .object (if page.isEmpty then [] else [("components", .arr (page.map Component.json))])

/-- A table as a member, if there is anything in it. -/
def filled (key : String) (f : α → Json) (t : Table α) : List (String × Json) :=
  if t.pairs.isEmpty then [] else [(key, .ofTable f t)]

namespace Layout

def json (layout : Layout) : Json :=
  .object <|
    filled "fonts" Font.json layout.fonts ++ filled "styles" Style.json layout.styles ++
      filled "pages" Page.json layout.pages

def text (layout : Layout) : String := layout.json.render

def digest (layout : Layout) : String := Sha256.hexOfText layout.text

end Layout

end RenderLayout
