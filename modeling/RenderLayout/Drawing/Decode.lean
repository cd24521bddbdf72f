import RenderLayout.Drawing.Basic
import RenderLayout.Drawing.Fault

/-!
Drawings from markup.

The root is the first element, an `svg`. Below it `defs` holds the style sheets and the path
effects, and every `g` is a layer of `rect`, `circle` and `text` elements. A shape takes its
description from its `desc` and its spans from its `tspan` children. All other elements at these
places are passed over, except in a layer, where only `title` and `desc` are. Names count without
the part before their colon.
-/

namespace RenderLayout

open Markup Text

/-! ### Attributes -/

/-- The values of the attributes of a tag. -/
def attributesOf (tag : Tag) : Except PageFault (Table String) :=
  tag.attributes.mapError fun fault => .markup (.badTag fault)

def textAttribute (attributes : Table String) (key : String) : String :=
  (attributes.find? key).getD ""

/-- Drops the unit of pixels at the end. -/
def dropPixels (s : List Char) : List Char :=
  if ['p', 'x'].isSuffixOf s then s.take (s.length - 2) else s

/-- The number of an attribute, in pixels if there is a unit. Without the attribute it is zero. -/
def numberAttribute (element : String) (attributes : Table String) (key : String) :
    Except PageFault Float :=
  match attributes.find? key with
  | none => .ok 0
  | some raw =>
    match Number.readFloat? (dropPixels (trim raw.toList)) with
    | some value => .ok value
    | none => .error (.badNumber s!"<{element}>" ⟨key, raw⟩)

/-! ### Places where markup ends too early -/

mutual

/-- How the markup is cut off within a node, if it is. -/
def cutIn? : Node → Option Ending
  | .cut ending => some ending
  | .element _ children => cutAmong? children
  | _ => none

def cutAmong? : List Node → Option Ending
  | [] => none
  | node :: nodes => cutIn? node <|> cutAmong? nodes
termination_by structural nodes => nodes

end

/-- The fault of markup that is cut off within an element. -/
def cutFault (within : MarkupFault) : Ending → PageFault
  | .done => .markup within
  | .broken place fault => .markup (.malformed place fault)

/-- Passes over an element, which has to come to its end. -/
def passOver (tag : Tag) (children : List Node) : Except PageFault Unit :=
  match cutAmong? children with
  | none => .ok ()
  | some .done => .error (.markup (.unterminated tag.localName (.missingEnd tag.name)))
  | some (.broken _ fault) => .error (.markup (.unterminated tag.localName fault))

/-! ### Text -/

def unescapeText (raw : String) : Except PageFault String :=
  (unescape raw).mapError fun fault => .markup (.badText fault)

mutual

/-- The character data within a node, at any depth. -/
def textIn : Node → Except PageFault String
  | .text raw => unescapeText raw
  | .literal raw => .ok raw
  | .element _ children => textAmong children
  | .aside => .ok ""
  | .empty _ => .ok ""
  | .cut ending => .error (cutFault (.unexpectedEnd "text content") ending)

def textAmong : List Node → Except PageFault String
  | [] => .ok ""
  | node :: nodes => do
    let first ← textIn node
    let others ← textAmong nodes
    return first ++ others

end

/-! ### Spans -/

/-- A span with nothing but the attributes of its tag. -/
def Span.ofTag (tag : Tag) : Except PageFault Span := do
  let attributes ← attributesOf tag
  let x ← numberAttribute "tspan" attributes "x"
  let y ← numberAttribute "tspan" attributes "y"
  return { x, y, style := textAttribute attributes "style" }

mutual

/-- The span with what a node within it adds. -/
def Span.addNode (span : Span) : Node → Except PageFault Span
  | .text raw => return { span with text := span.text ++ (← unescapeText raw) }
  | .literal raw => .ok { span with text := span.text ++ raw }
  | .empty tag =>
    if tag.localName = "tspan" then
      return { span with spans := span.spans ++ [← Span.ofTag tag] }
    else .ok span
  | .element tag children =>
    if tag.localName = "tspan" then do
      let inner ← (← Span.ofTag tag).addNodes children
      return { span with spans := span.spans ++ [inner] }
    else if tag.localName = "desc" then
      return { span with description := ← textAmong children }
    else do
      passOver tag children
      return span
  | .aside => .ok span
  | .cut ending => .error (cutFault (.unexpectedEnd "<tspan>") ending)

def Span.addNodes (span : Span) : List Node → Except PageFault Span
  | [] => .ok span
  | node :: nodes => do (← span.addNode node).addNodes nodes

end

/-! ### Shapes -/

/-- What a shape takes from the nodes within it. -/
structure Content where
  description : String := ""
  spans : List Span := []

def Content.addNode (content : Content) : Node → Except PageFault Content
  | .empty tag =>
    if tag.localName = "tspan" then
      return { content with spans := content.spans ++ [← Span.ofTag tag] }
    else .ok content
  | .element tag children =>
    if tag.localName = "tspan" then do
      let span ← (← Span.ofTag tag).addNodes children
      return { content with spans := content.spans ++ [span] }
    else if tag.localName = "desc" then
      return { content with description := ← textAmong children }
    else do
      passOver tag children
      return content
  | .cut ending => .error (cutFault (.unexpectedEnd "shape") ending)
  | _ => .ok content

def Content.ofNodes (nodes : List Node) : Except PageFault Content := nodes.foldlM addNode {}

def Shape.rectOf (attributes : Table String) (content : Content) : Except PageFault Shape := do
  let x ← numberAttribute "rect" attributes "x"
  let y ← numberAttribute "rect" attributes "y"
  let width ← numberAttribute "rect" attributes "width"
  let height ← numberAttribute "rect" attributes "height"
  return .rect
    { x, y, width, height
      style := textAttribute attributes "style"
      classes := textAttribute attributes "class"
      pathEffect := textAttribute attributes "path-effect"
      description := content.description }

def Shape.circleOf (attributes : Table String) (content : Content) : Except PageFault Shape := do
  let cx ← numberAttribute "circle" attributes "cx"
  let cy ← numberAttribute "circle" attributes "cy"
  let r ← numberAttribute "circle" attributes "r"
  return .circle
    { cx, cy, r
      style := textAttribute attributes "style"
      classes := textAttribute attributes "class"
      description := content.description }

def Shape.textOf (attributes : Table String) (content : Content) : Except PageFault Shape := do
  let x ← numberAttribute "text" attributes "x"
  let y ← numberAttribute "text" attributes "y"
  return .text
    { x, y
      style := textAttribute attributes "style"
      classes := textAttribute attributes "class"
      description := content.description
      spans := content.spans }

/-- The shape of an element with this name. -/
def Shape.ofElement (tag : Tag) (children : List Node) : Except PageFault Shape := do
  let attributes ← attributesOf tag
  let content ← Content.ofNodes children
  match tag.localName with
  | "rect" => rectOf attributes content
  | "circle" => circleOf attributes content
  | "text" => textOf attributes content
  | other => throw (.markup (.unsupported other))

/-! ### Layers -/

/-- Whether an element only tells about the layer that it stands in. -/
def tellsAboutLayer (tag : Tag) : Bool := tag.localName = "title" || tag.localName = "desc"

/-- The shape of a node in a layer, if it is one. -/
def Shape.ofNode? : Node → Except PageFault (Option Shape)
  | .empty tag => if tellsAboutLayer tag then .ok none else some <$> ofElement tag []
  | .element tag children =>
    if tellsAboutLayer tag then do
      passOver tag children
      return none
    else some <$> ofElement tag children
  | .cut ending => .error (cutFault (.unexpectedEnd "layer") ending)
  | _ => .ok none

def Layer.ofNodes (nodes : List Node) : Except PageFault Layer :=
  return (← nodes.mapM Shape.ofNode?).filterMap id

/-! ### The drawing -/

namespace Drawing

/-- Adds the radius of a path effect that has a name. -/
def addPathEffect (drawing : Drawing) (tag : Tag) : Except PageFault Drawing := do
  let attributes ← attributesOf tag
  match attributes.find? "id" with
  | none => return drawing
  | some name =>
    let radius ← numberAttribute "path-effect" attributes "radius"
    return { drawing with pathEffects := drawing.pathEffects.insert name radius }

def addDefinition (drawing : Drawing) : Node → Except PageFault Drawing
  | .empty tag =>
    if tag.localName = "path-effect" then drawing.addPathEffect tag else .ok drawing
  | .element tag children =>
    if tag.localName = "style" then
      return { drawing with sheets := drawing.sheets ++ [← textAmong children] }
    else do
      let drawing ←
        if tag.localName = "path-effect" then drawing.addPathEffect tag else .ok drawing
      passOver tag children
      return drawing
  | .cut ending => .error (cutFault (.unexpectedEnd "<defs>") ending)
  | _ => .ok drawing

def addNode (drawing : Drawing) : Node → Except PageFault Drawing
  | .empty tag =>
    if tag.localName = "g" then .ok { drawing with layers := drawing.layers ++ [[]] }
    else .ok drawing
  | .element tag children =>
    if tag.localName = "defs" then children.foldlM addDefinition drawing
    else if tag.localName = "g" then
      return { drawing with layers := drawing.layers ++ [← Layer.ofNodes children] }
    else do
      passOver tag children
      return drawing
  | .cut ending => .error (cutFault (.unexpectedEnd "<svg>") ending)
  | _ => .ok drawing

/-- A drawing with nothing but the canvas of its root. -/
def ofTag (tag : Tag) : Except PageFault Drawing := do
  let attributes ← attributesOf tag
  let width ← numberAttribute "svg" attributes "width"
  let height ← numberAttribute "svg" attributes "height"
  return { canvas := { width, height } }

/-- The drawing whose root is the first element among nodes. -/
def ofNodes : List Node → Except PageFault Drawing
  | [] => .error (.markup .rootMissing)
  | .empty tag :: nodes => if tag.localName = "svg" then ofTag tag else ofNodes nodes
  | .element tag children :: _ =>
    if tag.localName = "svg" then do children.foldlM addNode (← ofTag tag)
    else .error (.markup (.wrongRoot tag.localName))
  | .cut ending :: _ => .error (cutFault .rootMissing ending)
  | _ :: nodes => ofNodes nodes

def ofMarkup (markup : String) : Except PageFault Drawing := ofNodes (nodes markup)

end Drawing

end RenderLayout
