import RenderLayout.Proofs.Cascade

/-!
The components of a page that is added to a draft.

Shapes are numbered through all layers, and each becomes the component of its number. Whatever the
draft holds before, the style under the name of a component is afterwards that of its shape: no other
component of the page has the name, and classes are entered before the components.
-/

namespace RenderLayout

/-! ### Fields of a cascade -/

/-- A field of a style is its own, or that of the first class which sets it. -/
structure Style.Cascades (own : Style) (bases : List Style) (style : Style) : Prop where
  align : style.align = (own.align <|> bases.findSome? (·.align))
  stroke : style.stroke = (own.stroke <|> bases.findSome? (·.stroke))
  fill : style.fill = (own.fill <|> bases.findSome? (·.fill))
  rotation : style.rotation = (own.rotation <|> bases.findSome? (·.rotation))
  shadow : style.shadow = (own.shadow <|> bases.findSome? (·.shadow))

/-- A field that each class in turn fills where it is open. -/
lemma field_foldl_orElse {α : Type} (field : Style → Option α)
    (horElse : ∀ style base, field (style.orElse base) = (field style <|> field base))
    (own : Style) (bases : List Style) :
    field (bases.foldl Style.orElse own) = (field own <|> bases.findSome? field) := by
  induction bases generalizing own with
  | nil => simp
  | cons base bases ih =>
    rw [List.foldl_cons, ih, horElse, List.findSome?_cons]
    cases field own <;> cases field base <;> rfl

lemma Style.cascades_foldl (own : Style) (bases : List Style) :
    Cascades own bases (bases.foldl orElse own) where
  align := field_foldl_orElse (·.align) (fun _ _ => rfl) own bases
  stroke := field_foldl_orElse (·.stroke) (fun _ _ => rfl) own bases
  fill := field_foldl_orElse (·.fill) (fun _ _ => rfl) own bases
  rotation := field_foldl_orElse (·.rotation) (fun _ _ => rfl) own bases
  shadow := field_foldl_orElse (·.shadow) (fun _ _ => rfl) own bases

namespace Drawing

variable {drawing : Drawing} {page : String} {classes : Table Style}

/-- The style is that of the shape: its declarations and the classes of its list can be read, and
each field is theirs in this order. -/
structure CascadeOf (drawing : Drawing) (shape : Shape) (own : Style) (bases : List Style)
    (style : Style) : Prop where
  declared : Style.ofDeclarations shape.declarations = .ok own
  classes : List.Forall₂ (fun word base => drawing.classStyle? (String.ofList word) = some base)
    (Text.words shape.classList.toList) bases
  fields : Style.Cascades own bases style

lemma overClasses?_eq_some {own style : Style} {words : List (List Char)}
    (h : drawing.overClasses? own words = some style) :
    ∃ bases, List.Forall₂ (fun word base => drawing.classStyle? (String.ofList word) = some base)
      words bases ∧ style = bases.foldl Style.orElse own := by
  unfold overClasses? at h
  induction words generalizing own with
  | nil => exact ⟨[], .nil, (Option.some.inj h).symm⟩
  | cons word words ih =>
    rw [List.foldlM_cons] at h
    obtain ⟨next, hnext, h⟩ := Option.bind_eq_some_iff.1 h
    obtain ⟨base, hbase, rfl⟩ := Option.map_eq_some_iff.1 hnext
    obtain ⟨bases, hbases, rfl⟩ := ih h
    exact ⟨base :: bases, .cons hbase hbases, rfl⟩

lemma cascadeOf_ownStyle? {shape : Shape} {style : Style}
    (h : drawing.ownStyle? shape = some style) :
    ∃ own bases, drawing.CascadeOf shape own bases style := by
  obtain ⟨own, hown, h⟩ := Option.bind_eq_some_iff.1 h
  obtain ⟨bases, hbases, rfl⟩ := overClasses?_eq_some h
  exact ⟨own, bases, toOption_eq_some_iff.1 hown, hbases, Style.cascades_foldl own bases⟩

/-! ### Numbers of shapes -/

/-- How many shapes stand in the layers before one. -/
def shapesBefore (drawing : Drawing) (n : Nat) : Nat :=
  ((drawing.layers.take n).map List.length).sum

/-- The shapes of layers that are numbered from `start` on. -/
def placedFrom (start : Nat) (layers : List Layer) : List Placed :=
  (layers.zipIdx start).flatMap fun (layer, n) =>
    layer.zipIdx.map fun (shape, index) => ⟨n + 1, index, shape⟩

lemma placedFrom_cons (start : Nat) (layer : Layer) (layers : List Layer) :
    placedFrom start (layer :: layers) =
      layer.zipIdx.map (fun (shape, index) => ⟨start + 1, index, shape⟩) ++
        placedFrom (start + 1) layers := by
  simp [placedFrom, List.zipIdx_cons]

lemma length_placedFrom (start : Nat) (layers : List Layer) :
    (placedFrom start layers).length = (layers.map List.length).sum := by
  induction layers generalizing start with
  | nil => rfl
  | cons layer layers ih => simp [placedFrom_cons, ih]

lemma getElem?_placedFrom {layers : List Layer} {layer : Layer} {shape : Shape} {n i : Nat}
    (hlayer : layers[n]? = some layer) (hshape : layer[i]? = some shape) (start : Nat) :
    (placedFrom start layers)[((layers.take n).map List.length).sum + i]? =
      some ⟨start + n + 1, i, shape⟩ := by
  induction layers generalizing n start with
  | nil => cases hlayer
  | cons first layers ih =>
    rw [placedFrom_cons]
    cases n with
    | zero =>
      obtain rfl : first = layer := Option.some.inj hlayer
      have hlt : i < first.length := (List.getElem?_eq_some_iff.1 hshape).1
      rw [List.getElem?_append_left (by simpa using hlt)]
      simp [List.getElem?_zipIdx, hshape]
    | succ n =>
      have hsum : (((first :: layers).take (n + 1)).map List.length).sum + i =
          first.length + (((layers.take n).map List.length).sum + i) := by
        simp [Nat.add_assoc]
      rw [hsum, List.getElem?_append_right (by simp)]
      have hrest := ih hlayer (start + 1)
      rw [show start + 1 + n + 1 = start + (n + 1) + 1 by omega] at hrest
      simpa using hrest

/-- The shape at a place of a layer has its number behind those of the layers before. -/
lemma getElem?_placed {layer : Layer} {shape : Shape} {n i : Nat}
    (hlayer : drawing.layers[n]? = some layer) (hshape : layer[i]? = some shape) :
    drawing.placed[drawing.shapesBefore n + i]? = some ⟨n + 1, i, shape⟩ := by
  have h := getElem?_placedFrom hlayer hshape 0
  rwa [Nat.zero_add] at h

lemma length_placed : drawing.placed.length = (drawing.layers.map List.length).sum :=
  length_placedFrom 0 drawing.layers

end Drawing

/-! ### Components -/

namespace Shape

def description : Shape → String
  | .rect r => r.description
  | .circle c => c.description
  | .text t => t.description

/-- The component stands where the shape does. A text stands where its only span does, with the text
of the span. -/
def PlacedAs (shape : Shape) (component : Component) : Prop :=
  match shape with
  | .rect r =>
    component.pos1 = ⟨r.x, r.y⟩ ∧ component.pos2 = some ⟨r.x + r.width, r.y + r.height⟩
  | .circle c => component.pos1 = ⟨c.cx, c.cy⟩ ∧ component.radius = some c.r
  | .text t =>
    ∃ span, t.spans = [span] ∧ component.pos1 = ⟨span.x, span.y⟩ ∧ component.text = some span.text

end Shape

/-- The component of a shape that has a number on its page. -/
structure Component.Draws (page : String) (layer number : Nat) (shape : Shape)
    (component : Component) : Prop where
  kind : component.kind = shape.kind
  layer : component.layer = layer
  visible : component.visible = true
  style : component.style = some (componentStyleName page shape.kind number)
  place : shape.PlacedAs component
  bindings : component.bindings = Binding.ofText shape.description

lemma PageContext.draws_made {context : PageContext} {placed : Placed} {number : Nat}
    {component : Component} (h : context.made placed number = .ok component) :
    component.Draws context.page placed.layer number placed.shape := by
  obtain ⟨hcheck, -, rfl⟩ := made_eq_ok_iff.1 h
  obtain ⟨layer, index, shape⟩ := placed
  cases shape with
  | rect r => exact ⟨rfl, rfl, rfl, rfl, ⟨rfl, rfl⟩, rfl⟩
  | circle c => exact ⟨rfl, rfl, rfl, rfl, ⟨rfl, rfl⟩, rfl⟩
  | text t =>
    obtain ⟨span, hspan, -⟩ := bind_eq_ok_iff.1 hcheck
    have hspans : t.spans = [span] := (TextBox.singleSpan_eq_ok_iff.1 hspan).1
    refine ⟨rfl, rfl, rfl, rfl, ⟨span, hspans, ?_, ?_⟩, rfl⟩
    · simp [Placed.drawn, hspans]
    · simp [Placed.drawn, hspans]

/-- A drawing without a fault becomes a page, which is entered. -/
lemma Draft.exists_toPage {draft : Draft} {page : String} {drawing : Drawing}
    (h : (draft.addDrawing page drawing).1 = .ok ()) :
    ∃ components, drawing.toPage page = .ok components ∧
      (draft.addDrawing page drawing).2 = draft.enterDrawing page drawing := by
  rw [addDrawing_eq] at h ⊢
  cases hresult : drawing.toPage page with
  | error fault =>
    rw [hresult] at h
    cases h
  | ok components => exact ⟨components, rfl, rfl⟩

/-- A page that is put in has the component of every shape at the number of the shape. -/
lemma Draft.exists_component {draft : Draft} {page : String} {drawing : Drawing}
    (h : (draft.addDrawing page drawing).1 = .ok ()) {n i : Nat} {layer : Layer} {shape : Shape}
    (hlayer : drawing.layers[n]? = some layer) (hshape : layer[i]? = some shape) :
    ∃ components classes component,
      (draft.addDrawing page drawing).2.pages.find? page = some components ∧
      drawing.classStyles page = .ok classes ∧
      components[drawing.shapesBefore n + i]? = some component ∧
      PageContext.made ⟨page, drawing, classes⟩ ⟨n + 1, i, shape⟩ (drawing.shapesBefore n + i) =
        .ok component := by
  obtain ⟨components, hresult, hentered⟩ := exists_toPage h
  obtain ⟨classes, hclasses, hcomponents⟩ := Drawing.toPage_eq_ok_iff.1 hresult
  have hnumbered : drawing.placed.zipIdx[drawing.shapesBefore n + i]? =
      some (⟨n + 1, i, shape⟩, drawing.shapesBefore n + i) := by
    rw [List.getElem?_zipIdx, Drawing.getElem?_placed hlayer hshape, Option.map_some,
      Nat.zero_add]
  obtain ⟨component, hcomponent, hmade⟩ :=
    forall₂_getElem?_left (mapM_eq_ok_iff.1 hcomponents) hnumbered
  refine ⟨components, classes, component, ?_, hclasses, hcomponent, hmade⟩
  rw [hentered, pages_enterDrawing hresult, Table.find?_insert, if_pos rfl]

/-- Under the name of its component every shape has the style of its declarations and classes. -/
lemma Draft.exists_cascadeOf {draft : Draft} {page : String} {drawing : Drawing}
    (h : (draft.addDrawing page drawing).1 = .ok ()) {n i : Nat} {layer : Layer} {shape : Shape}
    (hlayer : drawing.layers[n]? = some layer) (hshape : layer[i]? = some shape) :
    ∃ style own bases, (draft.addDrawing page drawing).2.styles.find?
        (componentStyleName page shape.kind (drawing.shapesBefore n + i)) = some style ∧
      drawing.CascadeOf shape own bases style := by
  obtain ⟨components, hresult, hentered⟩ := exists_toPage h
  obtain ⟨classes, style, hclasses, hstyle, hfind⟩ :=
    find?_enterDrawing_component hresult draft (Drawing.getElem?_placed hlayer hshape)
  obtain ⟨own, bases, hcascade⟩ :=
    Drawing.cascadeOf_ownStyle? ((Drawing.style_eq_ok_iff hclasses).1 hstyle)
  exact ⟨style, own, bases, hentered ▸ hfind, hcascade⟩

/-- **The components of a page**: a drawing that is added to any draft without a fault leaves a page
with one component for each shape, in the order of the layers. The component has the kind, the layer,
the place and the bindings of its shape, and the style under its name has its fields from the
declarations of the shape, or from the first class of its list that sets them. -/
theorem Draft.addDrawing_components (draft : Draft) (page : String) (drawing : Drawing)
    (h : (draft.addDrawing page drawing).1 = .ok ()) :
    ∃ components, (draft.addDrawing page drawing).2.pages.find? page = some components ∧
      components.length = (drawing.layers.map List.length).sum ∧
      ∀ n layer i shape, drawing.layers[n]? = some layer → layer[i]? = some shape →
        ∃ component style own bases,
          components[drawing.shapesBefore n + i]? = some component ∧
          component.Draws page (n + 1) (drawing.shapesBefore n + i) shape ∧
          (draft.addDrawing page drawing).2.styles.find?
            (componentStyleName page shape.kind (drawing.shapesBefore n + i)) = some style ∧
          drawing.CascadeOf shape own bases style := by
  rw [addDrawing_eq] at h ⊢
  obtain ⟨components, hpage⟩ : ∃ components, drawing.toPage page = .ok components := by
    cases hresult : drawing.toPage page with
    | error fault =>
      rw [hresult] at h
      cases h
    | ok components => exact ⟨components, rfl⟩
  obtain ⟨classes, -, hcomponents⟩ := Drawing.toPage_eq_ok_iff.1 hpage
  have hmade := mapM_eq_ok_iff.1 hcomponents
  refine ⟨components, ?_, ?_, ?_⟩
  · rw [pages_enterDrawing hpage, Table.find?_insert, if_pos rfl]
  · rw [← hmade.length_eq, List.length_zipIdx, Drawing.length_placed]
  · intro n layer i shape hlayer hshape
    have hplaced := Drawing.getElem?_placed hlayer hshape
    have hnumbered : drawing.placed.zipIdx[drawing.shapesBefore n + i]? =
        some (⟨n + 1, i, shape⟩, drawing.shapesBefore n + i) := by
      rw [List.getElem?_zipIdx, hplaced, Option.map_some, Nat.zero_add]
    obtain ⟨component, hcomponent, hdrawn⟩ := forall₂_getElem?_left hmade hnumbered
    obtain ⟨classes, style, hclasses, hstyle, hfind⟩ :=
      find?_enterDrawing_component hpage draft hplaced
    obtain ⟨own, bases, hcascade⟩ :=
      Drawing.cascadeOf_ownStyle? ((Drawing.style_eq_ok_iff hclasses).1 hstyle)
    exact ⟨component, style, own, bases, hcomponent, PageContext.draws_made hdrawn, hfind, hcascade⟩

/-- A box, and in a later layer a text of two classes, the first of which has two rules. -/
def placard : Drawing where
  sheets := [".x\x7bfill:#00ff00\x7d .x\x7bstroke:#0000ff\x7d", ".y\x7bfill:#ff0000\x7d"]
  layers := [[.rect {}], [], [.text { classes := " x  y", spans := [{ x := 3, text := "Exit" }] }]]

/-- The text is the second component and stands in the third layer. It has its fill from the second
class, as only an earlier rule of the first one sets it. -/
theorem addDrawing_components_placard :
    (({} : Draft).addDrawing "p" placard).1 = .ok () ∧
      ∃ components component style y,
        (({} : Draft).addDrawing "p" placard).2.pages.find? "p" = some components ∧
        components.length = 2 ∧ components[1]? = some component ∧ component.layer = 3 ∧
        component.style = some "p-text-1" ∧ component.text = some "Exit" ∧
        (({} : Draft).addDrawing "p" placard).2.styles.find? "p-text-1" = some style ∧
        placard.classStyle? "y" = some y ∧ y.fill.isSome = true ∧ style.fill = y.fill := by
  have hrun : (({} : Draft).addDrawing "p" placard).1.toOption = some () := by decide +kernel
  have h := toOption_eq_some_iff.1 hrun
  obtain ⟨components, hcomponents, hlength, hall⟩ := Draft.addDrawing_components {} "p" placard h
  obtain ⟨component, style, own, bases, hcomponent, hdraws, hstyle, hcascade⟩ :=
    hall 2 _ 0 _ rfl rfl
  obtain ⟨hdeclared, hclasses, hfields⟩ := hcascade
  have hwords : Text.words " x  y".toList = [['x'], ['y']] := by decide
  obtain ⟨span, hspan, -, htext⟩ := hdraws.place
  obtain rfl := List.singleton_inj.1 hspan
  dsimp only [Shape.classList] at hclasses
  rw [hwords] at hclasses
  rcases hclasses with _ | ⟨hx, _ | ⟨hy, _ | _⟩⟩
  have hown : own.fill = none := by
    have hrun : (Style.ofDeclarations "").toOption.all (·.fill.isNone) = true := by decide +kernel
    rw [toOption_eq_some_iff.2 (show Style.ofDeclarations "" = .ok own from hdeclared)] at hrun
    exact Option.isNone_iff_eq_none.1 hrun
  have hxfill : (placard.classStyle? "x").all (·.fill.isNone) = true := by decide +kernel
  have hyfill : (placard.classStyle? "y").all (·.fill.isSome) = true := by decide +kernel
  rw [show placard.classStyle? "x" = _ from hx] at hxfill
  rw [show placard.classStyle? "y" = _ from hy] at hyfill
  refine ⟨h, components, component, style, _, hcomponents, hlength, hcomponent, hdraws.layer,
    hdraws.style, htext, hstyle, hy, hyfill, ?_⟩
  rw [hfields.fill, hown, List.findSome?_cons, Option.isNone_iff_eq_none.1 hxfill]
  obtain ⟨fill, hfill⟩ := Option.isSome_iff_exists.1 hyfill
  simp [hfill]

end RenderLayout
