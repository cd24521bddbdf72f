import RenderLayout.Proofs.PageComponents
import RenderLayout.Proofs.SingleSpan

/-!
The corner radii of boxes, in terms of the markup.

The path effects of a drawing are the elements `path-effect` in its `defs`, the last one of a name
before the others. A rectangle that refers to one of them gets its radius. A rectangle that refers to
none is taken to refer to the one without a name, and of several number signs before a name none
counts; where this makes a difference is said exactly.
-/

namespace RenderLayout

open Markup Text

/-! ### Elements -/

namespace Markup

/-- The tag of an element. -/
def tag? : Node → Option Tag
  | .empty tag => some tag
  | .element tag _ => some tag
  | _ => none

/-- The tag of a node in a layer, if it is a shape. -/
def shapeTag? (node : Node) : Option Tag := (tag? node).filter (!tellsAboutLayer ·)

/-- The tags of the shapes in the layers of a markup text, in their order. -/
def shapeTags (markup : String) : List Tag :=
  (within "g" (root (nodes markup))).flatMap (·.filterMap shapeTag?)

/-- The value of an attribute of a tag. -/
def attribute? (tag : Tag) (key : String) : Option String :=
  tag.attributes.toOption.bind (·.find? key)

/-- The name and the radius of a path effect. -/
def effect? (tag : Tag) : Option (String × Float) :=
  if tag.localName = "path-effect" then do
    let attributes ← tag.attributes.toOption
    let name ← attributes.find? "id"
    let radius ← (numberAttribute "path-effect" attributes "radius").toOption
    return (name, radius)
  else none

def effectsAmong (nodes : List Node) : List (String × Float) :=
  nodes.filterMap fun node => (tag? node).bind effect?

/-- The path effects that stand in the `defs` of a markup text, in their order. -/
def effects (markup : String) : List (String × Float) :=
  (within "defs" (root (nodes markup))).flatMap effectsAmong

lemma attribute?_eq {tag : Tag} {attributes : Table String} (h : attributesOf tag = .ok attributes)
    (key : String) : attribute? tag key = attributes.find? key := by
  rw [attribute?, mapError_eq_ok_iff.1 h]
  rfl

end Markup

/-! ### Path effects -/

namespace Drawing

variable {drawing drawing' : Drawing} {nodes : List Node}

lemma insertAll_append {α : Type} (t : Table α) (pairs more : List (String × α)) :
    t.insertAll (pairs ++ more) = (t.insertAll pairs).insertAll more := List.foldl_append

lemma pathEffects_addPathEffect {tag : Tag} (htag : tag.localName = "path-effect")
    (h : drawing.addPathEffect tag = .ok drawing') :
    drawing'.pathEffects = drawing.pathEffects.insertAll (effect? tag).toList := by
  unfold addPathEffect at h
  obtain ⟨attributes, hattributes, h⟩ := bind_eq_ok_iff.1 h
  rw [effect?, if_pos htag, mapError_eq_ok_iff.1 hattributes]
  cases hname : attributes.find? "id" with
  | none =>
    rw [hname] at h
    obtain rfl := Except.ok.inj h
    simp [Except.toOption, hname, Table.insertAll]
  | some name =>
    rw [hname] at h
    obtain ⟨radius, hradius, h⟩ := bind_eq_ok_iff.1 h
    obtain rfl := Except.ok.inj h
    simp [Except.toOption, hname, hradius, Table.insertAll]

lemma pathEffects_addDefinition {node : Node} (h : drawing.addDefinition node = .ok drawing') :
    drawing'.pathEffects = drawing.pathEffects.insertAll (effectsAmong [node]) := by
  have hskipped {tag : Tag} (htag : tag.localName ≠ "path-effect") :
      drawing.pathEffects = drawing.pathEffects.insertAll (effect? tag).toList := by
    rw [effect?, if_neg htag]
    rfl
  have hadded (tag : Tag) (htag : tag? node = some tag) :
      effectsAmong [node] = (effect? tag).toList := by
    rw [effectsAmong, List.filterMap_cons, htag, Option.bind_some, List.filterMap_nil]
    cases effect? tag <;> rfl
  unfold addDefinition at h
  split at h
  case h_1 tag =>
    rw [hadded tag rfl]
    split at h
    case isTrue htag => exact pathEffects_addPathEffect htag h
    case isFalse htag =>
      obtain rfl := Except.ok.inj h
      exact hskipped htag
  case h_2 tag children =>
    rw [hadded tag rfl]
    split at h
    case isTrue hstyle =>
      obtain ⟨text, -, h⟩ := bind_eq_ok_iff.1 h
      obtain rfl := Except.ok.inj h
      exact hskipped (by rw [hstyle]; decide)
    case isFalse =>
      dsimp only at h
      split at h
      case isTrue htag =>
        obtain ⟨next, hnext, h⟩ := bind_eq_ok_iff.1 h
        obtain ⟨-, -, h⟩ := bind_eq_ok_iff.1 h
        obtain rfl := Except.ok.inj h
        exact pathEffects_addPathEffect htag hnext
      case isFalse htag =>
        obtain ⟨next, hnext, h⟩ := bind_eq_ok_iff.1 h
        obtain ⟨-, -, h⟩ := bind_eq_ok_iff.1 h
        rw [← Except.ok.inj h, ← Except.ok.inj hnext]
        exact hskipped htag
  case h_3 => cases h
  case h_4 hempty helement _ =>
    obtain rfl := Except.ok.inj h
    cases node with
    | empty tag => exact absurd rfl (hempty tag)
    | element tag children => exact absurd rfl (helement tag children)
    | _ => rfl

lemma pathEffects_foldlM_addDefinition (h : nodes.foldlM addDefinition drawing = .ok drawing') :
    drawing'.pathEffects = drawing.pathEffects.insertAll (effectsAmong nodes) := by
  induction nodes generalizing drawing with
  | nil =>
    obtain rfl := Except.ok.inj h
    rfl
  | cons node nodes ih =>
    rw [List.foldlM_cons] at h
    obtain ⟨next, hnext, h⟩ := bind_eq_ok_iff.1 h
    rw [ih h, pathEffects_addDefinition hnext, ← insertAll_append, effectsAmong, effectsAmong,
      ← List.filterMap_append]
    rfl

lemma pathEffects_addNode {node : Node} (h : drawing.addNode node = .ok drawing') :
    drawing'.pathEffects =
      drawing.pathEffects.insertAll ((within "defs" [node]).flatMap effectsAmong) := by
  have hinside (inner : List Node) (hnode : inside? "defs" node = some inner) :
      (within "defs" [node]).flatMap effectsAmong = effectsAmong inner := by
    simp [within, hnode]
  have houtside (hnode : inside? "defs" node = none) :
      drawing.pathEffects =
        drawing.pathEffects.insertAll ((within "defs" [node]).flatMap effectsAmong) := by
    simp [within, hnode, Table.insertAll]
  unfold addNode at h
  split at h
  case h_1 tag =>
    have hkept : drawing'.pathEffects = drawing.pathEffects := by
      split at h <;> rw [← Except.ok.inj h]
    by_cases htag : tag.localName = "defs"
    · rw [hkept, hinside [] (if_pos htag)]
      rfl
    · rw [hkept]
      exact houtside (if_neg htag)
  case h_2 tag children =>
    split at h
    case isTrue htag =>
      rw [hinside children (if_pos htag)]
      exact pathEffects_foldlM_addDefinition h
    case isFalse htag =>
      have hkept : drawing'.pathEffects = drawing.pathEffects := by
        split at h
        · obtain ⟨layer, -, h⟩ := bind_eq_ok_iff.1 h
          rw [← Except.ok.inj h]
        · obtain ⟨-, -, h⟩ := bind_eq_ok_iff.1 h
          rw [← Except.ok.inj h]
      rw [hkept]
      exact houtside (if_neg htag)
  case h_3 => cases h
  case h_4 hempty helement _ =>
    obtain rfl := Except.ok.inj h
    cases node with
    | empty tag => exact absurd rfl (hempty tag)
    | element tag children => exact absurd rfl (helement tag children)
    | _ => exact houtside rfl

lemma pathEffects_foldlM_addNode (h : nodes.foldlM addNode drawing = .ok drawing') :
    drawing'.pathEffects =
      drawing.pathEffects.insertAll ((within "defs" nodes).flatMap effectsAmong) := by
  induction nodes generalizing drawing with
  | nil =>
    obtain rfl := Except.ok.inj h
    rfl
  | cons node nodes ih =>
    rw [List.foldlM_cons] at h
    obtain ⟨next, hnext, h⟩ := bind_eq_ok_iff.1 h
    rw [ih h, pathEffects_addNode hnext, ← insertAll_append, ← List.flatMap_append, within, within,
      ← List.filterMap_append]
    rfl

/-- **The path effects of a drawing are those in the `defs` of its markup.** -/
theorem pathEffects_ofMarkup {markup : String} (h : ofMarkup markup = .ok drawing) :
    drawing.pathEffects = .ofList (effects markup) := by
  obtain ⟨tag, start, hstart, hrest⟩ := exists_root h
  rw [pathEffects_foldlM_addNode hrest, eq_of_ofTag hstart]
  rfl

end Drawing

/-! ### Shapes -/

/-- The shape is that of the tag, as far as its kind and its path effect go. -/
structure Shape.IsOf (tag : Tag) (shape : Shape) : Prop where
  kind : shape.kind = .box ↔ tag.localName = "rect"
  effect : ∀ rect, shape = .rect rect → rect.pathEffect = (attribute? tag "path-effect").getD ""

lemma Shape.isOf_ofElement {tag : Tag} {children : List Node} {shape : Shape}
    (h : ofElement tag children = .ok shape) : shape.IsOf tag := by
  unfold ofElement at h
  obtain ⟨attributes, hattributes, h⟩ := bind_eq_ok_iff.1 h
  obtain ⟨content, -, h⟩ := bind_eq_ok_iff.1 h
  split at h
  case h_1 hname =>
    obtain ⟨x, -, h⟩ := bind_eq_ok_iff.1 h
    obtain ⟨y, -, h⟩ := bind_eq_ok_iff.1 h
    obtain ⟨width, -, h⟩ := bind_eq_ok_iff.1 h
    obtain ⟨height, -, h⟩ := bind_eq_ok_iff.1 h
    obtain rfl := Except.ok.inj h
    refine ⟨iff_of_true rfl hname, fun rect hrect => ?_⟩
    obtain rfl := Shape.rect.inj hrect
    rw [attribute?_eq hattributes]
    rfl
  case h_2 hname =>
    obtain ⟨cx, -, h⟩ := bind_eq_ok_iff.1 h
    obtain ⟨cy, -, h⟩ := bind_eq_ok_iff.1 h
    obtain ⟨r, -, h⟩ := bind_eq_ok_iff.1 h
    obtain rfl := Except.ok.inj h
    exact ⟨iff_of_false nofun (by rw [hname]; decide), nofun⟩
  case h_3 hname =>
    obtain ⟨x, -, h⟩ := bind_eq_ok_iff.1 h
    obtain ⟨y, -, h⟩ := bind_eq_ok_iff.1 h
    obtain rfl := Except.ok.inj h
    exact ⟨iff_of_false nofun (by rw [hname]; decide), nofun⟩
  case h_4 => cases h

lemma Shape.rel_ofNode? {node : Node} {shape? : Option Shape} (h : ofNode? node = .ok shape?) :
    Option.Rel Shape.IsOf (shapeTag? node) shape? := by
  have hshape {tag : Tag} {children : List Node} (htells : tellsAboutLayer tag = false)
      (h : some <$> ofElement tag children = .ok shape?) :
      Option.Rel Shape.IsOf ((some tag).filter (!tellsAboutLayer ·)) shape? := by
    rw [map_eq_pure_bind, bind_eq_ok_iff] at h
    obtain ⟨shape, hmade, h⟩ := h
    obtain rfl := Except.ok.inj h
    rw [Option.filter_some, htells]
    exact .some (isOf_ofElement hmade)
  have hnone {tag : Tag} (htells : tellsAboutLayer tag = true) :
      Option.Rel Shape.IsOf ((some tag).filter (!tellsAboutLayer ·)) none := by
    rw [Option.filter_some, htells]
    exact .none
  unfold ofNode? at h
  split at h
  case h_1 tag =>
    split at h
    case isTrue htells =>
      obtain rfl := Except.ok.inj h
      exact hnone htells
    case isFalse htells => exact hshape (Bool.eq_false_iff.2 htells) h
  case h_2 tag children =>
    split at h
    case isTrue htells =>
      obtain ⟨-, -, h⟩ := bind_eq_ok_iff.1 h
      obtain rfl := Except.ok.inj h
      exact hnone htells
    case isFalse htells => exact hshape (Bool.eq_false_iff.2 htells) h
  case h_3 => cases h
  case h_4 hempty helement _ =>
    obtain rfl := Except.ok.inj h
    cases node with
    | empty tag => exact absurd rfl (hempty tag)
    | element tag children => exact absurd rfl (helement tag children)
    | _ => exact .none

lemma Layer.forall₂_shapeTag {nodes : List Node} {layer : Layer} (h : ofNodes nodes = .ok layer) :
    List.Forall₂ Shape.IsOf (nodes.filterMap shapeTag?) layer := by
  unfold ofNodes at h
  obtain ⟨shapes, hshapes, h⟩ := bind_eq_ok_iff.1 h
  obtain rfl := Except.ok.inj h
  exact List.rel_filterMap (R := fun node shape? => Shape.ofNode? node = .ok shape?)
    (fun _ _ => Shape.rel_ofNode?) (mapM_eq_ok_iff.1 hshapes)

namespace Drawing

/-- The shapes of a drawing are those of its markup, in their order. -/
lemma forall₂_shapeTags {markup : String} {drawing : Drawing} (h : ofMarkup markup = .ok drawing) :
    List.Forall₂ Shape.IsOf (shapeTags markup) drawing.layers.flatten := by
  rw [← List.flatMap_id]
  exact List.rel_flatMap (layers_ofNodes h) fun _ _ => Layer.forall₂_shapeTag

lemma map_shape_placed (drawing : Drawing) :
    drawing.placed.map (·.shape) = drawing.layers.flatten := by
  have hfrom (start : Nat) (layers : List Layer) :
      (placedFrom start layers).map (·.shape) = layers.flatten := by
    induction layers generalizing start with
    | nil => rfl
    | cons layer layers ih =>
      rw [placedFrom_cons, List.map_append, ih, List.map_map, List.flatten_cons]
      congr 1
      exact List.zipIdx_map_fst 0 layer
  exact hfrom 0 drawing.layers

end Drawing

/-! ### References -/

/-- The radius of the last path effect of a name. -/
def lastRadius? (effects : List (String × Float)) (name : String) : Option Float :=
  (effects.reverse.find? (·.1 = name)).map (·.2)

/-- The name in a reference: blanks around it do not count, nor does a number sign before it. -/
def referredName (reference : String) : String :=
  match trim reference.toList with
  | '#' :: name => String.ofList name
  | name => String.ofList name

/-- The radius that the tag of a rectangle refers to, if it has the attribute and there is such a path
effect. -/
def referredRadius? (markup : String) (tag : Tag) : Option Float :=
  (attribute? tag "path-effect").bind fun reference =>
    lastRadius? (effects markup) (referredName reference)

/-- No path effect is without a name if the attribute is not there; and if there are several number
signs in it, it makes no difference whether all of them are dropped or one. -/
structure ReadAsReferred (effects : List (String × Float)) (reference? : Option String) :
    Prop where
  absent : reference? = none → ∀ effect ∈ effects, effect.1 ≠ ""
  signs : ∀ reference name, reference? = some reference →
    trim reference.toList = '#' :: '#' :: name →
      lastRadius? effects (String.ofList (name.dropWhile (· = '#'))) =
        lastRadius? effects (String.ofList ('#' :: name))

lemma lastRadius?_eq_none_iff {effects : List (String × Float)} {name : String} :
    lastRadius? effects name = none ↔ ∀ effect ∈ effects, effect.1 ≠ name := by
  simp [lastRadius?]

/-- A name with no number sign before it or with one is the one that is referred to. -/
lemma effectName_eq {reference : String}
    (h : ∀ name, trim reference.toList ≠ '#' :: '#' :: name) :
    Drawing.effectName reference = referredName reference := by
  unfold Drawing.effectName referredName
  split
  case h_1 name hname =>
    rw [hname, List.dropWhile_cons_of_pos (by decide)]
    congr 1
    refine List.dropWhile_eq_self_iff.2 fun hpos => ?_
    obtain ⟨c, rest, rfl⟩ := List.exists_cons_of_length_pos hpos
    have hsign : c ≠ '#' := by
      rintro rfl
      exact h rest hname
    simpa using hsign
  case h_2 hname =>
    congr 1
    refine List.dropWhile_eq_self_iff.2 fun hpos => ?_
    obtain ⟨c, rest, hrest⟩ := List.exists_cons_of_length_pos hpos
    have hsign : c ≠ '#' := by
      rintro rfl
      exact hname rest hrest
    simpa [hrest] using hsign

lemma effectName_signs {reference : String} {name : List Char}
    (h : trim reference.toList = '#' :: '#' :: name) :
    Drawing.effectName reference = String.ofList (name.dropWhile (· = '#')) ∧
      referredName reference = String.ofList ('#' :: name) := by
  unfold Drawing.effectName referredName
  rw [h]
  exact ⟨rfl, rfl⟩

/-- The radius that is looked up is the one that is referred to, or it is not, as the condition says. -/
lemma lastRadius?_effectName_iff {effects : List (String × Float)} {reference? : Option String} :
    lastRadius? effects (Drawing.effectName (reference?.getD "")) =
        (reference?.bind fun reference => lastRadius? effects (referredName reference)) ↔
      ReadAsReferred effects reference? := by
  cases reference? with
  | none =>
    rw [Option.getD_none, Option.bind_none, show Drawing.effectName "" = "" from rfl,
      lastRadius?_eq_none_iff]
    exact ⟨fun h => ⟨fun _ => h, nofun⟩, fun h => h.absent rfl⟩
  | some reference =>
    rw [Option.getD_some, Option.bind_some]
    by_cases hsigns : ∃ name, trim reference.toList = '#' :: '#' :: name
    · obtain ⟨name, hname⟩ := hsigns
      obtain ⟨hlooked, hreferred⟩ := effectName_signs hname
      rw [hlooked, hreferred]
      constructor
      · refine fun h => ⟨nofun, fun other rest hother hrest => ?_⟩
        obtain rfl := Option.some.inj hother
        rw [hname, List.cons.injEq, List.cons.injEq] at hrest
        obtain ⟨-, -, rfl⟩ := hrest
        exact h
      · exact fun h => h.signs reference name rfl hname
    · have hnone := not_exists.1 hsigns
      rw [effectName_eq hnone]
      refine iff_of_true rfl ⟨nofun, fun other name hother hname => ?_⟩
      obtain rfl := Option.some.inj hother
      exact absurd hname (hnone name)

/-! ### Boxes -/

lemma PageContext.cornerRadius_made {context : PageContext} {placed : Placed} {number : Nat}
    {component : Component} {rect : Rect} (h : context.made placed number = .ok component)
    (hrect : placed.shape = .rect rect) :
    component.cornerRadius = context.drawing.cornerRadius? rect.pathEffect := by
  obtain ⟨-, -, rfl⟩ := made_eq_ok_iff.1 h
  unfold Placed.drawn
  rw [hrect]

lemma Shape.exists_rect {shape : Shape} (h : shape.kind = .box) : ∃ rect, shape = .rect rect := by
  cases shape with
  | rect rect => exact ⟨rect, rfl⟩
  | circle => cases h
  | text => cases h

/-- **When a box has the corner radius that it refers to**: of markup that is decoded and added to a
draft come one component for each shape element of the layers, in their order, and the boxes are those
of the elements `rect`. A box has a corner radius just if its element has a `path-effect` attribute
that is the name of a path effect in the `defs`, and then that of the last one of this name, provided
that no path effect is without a name if there is no such attribute, and that it makes no difference
how many of several number signs are dropped; and only then. -/
theorem Draft.corner_radius_iff (draft : Draft) (page : String) {markup : String}
    {drawing : Drawing} (hmarkup : Drawing.ofMarkup markup = .ok drawing)
    (h : (draft.addDrawing page drawing).1 = .ok ()) :
    ∃ components, (draft.addDrawing page drawing).2.pages.find? page = some components ∧
      components.length = (shapeTags markup).length ∧
      ∀ (number : Nat) (tag : Tag) (component : Component),
        (shapeTags markup)[number]? = some tag → components[number]? = some component →
          (component.kind = .box ↔ tag.localName = "rect") ∧
            (component.kind = .box →
              (component.cornerRadius = referredRadius? markup tag ↔
                ReadAsReferred (effects markup) (attribute? tag "path-effect"))) := by
  obtain ⟨components, hresult, hentered⟩ := exists_toPage h
  obtain ⟨classes, -, hcomponents⟩ := Drawing.toPage_eq_ok_iff.1 hresult
  have hshapes := Drawing.forall₂_shapeTags hmarkup
  refine ⟨components, ?_, ?_, fun number tag component htag hcomponent => ?_⟩
  · rw [hentered, pages_enterDrawing hresult, Table.find?_insert, if_pos rfl]
  · rw [hshapes.length_eq, ← Drawing.map_shape_placed, List.length_map,
      ← (mapM_eq_ok_iff.1 hcomponents).length_eq, List.length_zipIdx]
  · obtain ⟨placed, hplaced, hmade⟩ := Drawing.made_of_component hcomponents hcomponent
    obtain ⟨shape, hshape, hof⟩ := forall₂_getElem?_left hshapes htag
    rw [← Drawing.map_shape_placed, List.getElem?_map, hplaced] at hshape
    obtain rfl := Option.some.inj hshape
    have hkind := (PageContext.draws_made hmade).kind
    refine ⟨by rw [hkind, hof.kind], fun hbox => ?_⟩
    obtain ⟨rect, hrect⟩ := Shape.exists_rect (hkind ▸ hbox)
    rw [PageContext.cornerRadius_made hmade hrect, hof.effect rect hrect, Drawing.cornerRadius?,
      Drawing.pathEffects_ofMarkup hmarkup, Table.find?_ofList]
    exact lastRadius?_effectName_iff

/-- A rectangle that refers to the second of two path effects with a name, and one that refers to
none. -/
def rounded : String :=
  "<svg><defs><path-effect id=\"a\"/><path-effect id=\"a\" radius=\"5px\"/></defs>" ++
    "<g><rect b:path-effect=\" #a\"/><rect/></g></svg>"

theorem corner_radius_rounded :
    ∃ drawing components first second radius,
      Drawing.ofMarkup rounded = .ok drawing ∧ (({} : Draft).addDrawing "p" drawing).1 = .ok () ∧
        (({} : Draft).addDrawing "p" drawing).2.pages.find? "p" = some components ∧
        components[0]? = some first ∧ components[1]? = some second ∧
        (effects rounded)[1]? = some ("a", radius) ∧
        first.cornerRadius = some radius ∧ second.cornerRadius = none := by
  have hrun : ((Drawing.ofMarkup rounded).toOption.bind fun drawing =>
      (({} : Draft).addDrawing "p" drawing).1.toOption).isSome = true := by decide +kernel
  obtain ⟨_, hrun⟩ := Option.isSome_iff_exists.1 hrun
  obtain ⟨drawing, hdrawing, hadded⟩ := Option.bind_eq_some_iff.1 hrun
  have hmarkup := toOption_eq_some_iff.1 hdrawing
  have hadded := toOption_eq_some_iff.1 hadded
  obtain ⟨components, hcomponents, hlength, hall⟩ :=
    Draft.corner_radius_iff {} "p" hmarkup hadded
  have htags : shapeTags rounded = [⟨"rect", " b:path-effect=\" #a\""⟩, ⟨"rect", ""⟩] := by
    decide +kernel
  have hfirst : attribute? ⟨"rect", " b:path-effect=\" #a\""⟩ "path-effect" = some " #a" := by
    decide +kernel
  have hsecond : attribute? ⟨"rect", ""⟩ "path-effect" = none := by decide +kernel
  have htrim : trim " #a".toList = ['#', 'a'] := by decide
  have hnames : (effects rounded).map (·.1) = ["a", "a"] := by decide +kernel
  have hcount := congrArg List.length hnames
  rw [List.length_map] at hcount
  obtain ⟨earlier, last, heffects⟩ := List.length_eq_two.1 hcount
  have hlast : last.1 = "a" := by
    rw [heffects] at hnames
    exact (List.cons.inj (List.cons.inj hnames).2).1
  rw [htags] at hlength hall
  obtain ⟨first, second, rfl⟩ := List.length_eq_two.1 hlength
  obtain ⟨hfirstKind, hfirstRadius⟩ := hall 0 _ first rfl rfl
  obtain ⟨hsecondKind, hsecondRadius⟩ := hall 1 _ second rfl rfl
  have hfirstRead : ReadAsReferred (effects rounded) (some " #a") := by
    refine ⟨nofun, fun reference name hreference hname => ?_⟩
    obtain rfl := Option.some.inj hreference
    rw [htrim] at hname
    exact absurd (List.cons.inj (List.cons.inj hname).2).1 (by decide)
  have hsecondRead : ReadAsReferred (effects rounded) none := by
    refine ⟨fun _ effect heffect hname => ?_, nofun⟩
    have hmem : "" ∈ (effects rounded).map (·.1) := List.mem_map.2 ⟨effect, heffect, hname⟩
    rw [hnames] at hmem
    exact absurd hmem (by decide)
  rw [hfirst] at hfirstRadius
  rw [hsecond] at hsecondRadius
  refine ⟨drawing, _, first, second, last.2, hmarkup, hadded, hcomponents, rfl, rfl, ?_, ?_, ?_⟩
  · rw [heffects, ← hlast]
    rfl
  · rw [(hfirstRadius (hfirstKind.2 rfl)).2 hfirstRead, referredRadius?, hfirst, Option.bind_some,
      referredName, htrim, heffects]
    simp [lastRadius?, hlast]
  · rw [(hsecondRadius (hsecondKind.2 rfl)).2 hsecondRead, referredRadius?, hsecond]
    rfl

/-- A rectangle without a reference, and a path effect without a name. -/
def unreferred : String :=
  "<svg width=\"1024\" height=\"613\"><defs><path-effect id=\"\" radius=\"5\"/></defs>" ++
    "<g><rect/></g></svg>"

/-- **A rectangle without a reference gets a corner radius** if there is a path effect without a
name. -/
theorem corner_radius_unreferred :
    ∃ drawing components component tag,
      Drawing.ofMarkup unreferred = .ok drawing ∧
        (({} : Draft).addDrawing "p" drawing).1 = .ok () ∧
        (({} : Draft).addDrawing "p" drawing).2.pages.find? "p" = some components ∧
        shapeTags unreferred = [tag] ∧ components[0]? = some component ∧ component.kind = .box ∧
        attribute? tag "path-effect" = none ∧ component.cornerRadius.isSome = true := by
  have hrun : (do
      let drawing ← (Drawing.ofMarkup unreferred).toOption
      let () ← (({} : Draft).addDrawing "p" drawing).1.toOption
      let components ← (({} : Draft).addDrawing "p" drawing).2.pages.find? "p"
      let component ← components[0]?
      return (component.kind, component.cornerRadius.isSome)) = some (.box, true) := by
    decide +kernel
  obtain ⟨drawing, hdrawing, hrun⟩ := Option.bind_eq_some_iff.1 hrun
  obtain ⟨_, hadded, hrun⟩ := Option.bind_eq_some_iff.1 hrun
  obtain ⟨components, hcomponents, hrun⟩ := Option.bind_eq_some_iff.1 hrun
  obtain ⟨component, hcomponent, hrun⟩ := Option.bind_eq_some_iff.1 hrun
  obtain ⟨hkind, hradius⟩ := Prod.mk.inj (Option.some.inj hrun)
  exact ⟨drawing, components, component, ⟨"rect", ""⟩, toOption_eq_some_iff.1 hdrawing,
    toOption_eq_some_iff.1 hadded, hcomponents, by decide +kernel, hcomponent, hkind,
    by decide +kernel, hradius⟩

end RenderLayout
