import RenderLayout.Drawing.Write
import RenderLayout.Proofs.DecimalText
import RenderLayout.Proofs.ElementMarkup
import RenderLayout.Proofs.NodeLists

/-!
Drawings survive as markup.

Decoding a written drawing gives it back: every number is read from its plain text, every text from
its entities, and every element adds to what holds it just what was written into it.
-/

namespace RenderLayout

open Markup Text

/-! ### Attributes -/

lemma attributesOf_tag (opening : Opening) : attributesOf opening.tag = .ok opening.values := by
  rw [attributesOf, attributes_tag]
  rfl

lemma textAttribute_values {opening : Opening} {key value : String}
    (h : (key, value) ∈ opening.pairs) : textAttribute opening.values key = value := by
  rw [textAttribute, find?_values h]
  rfl

lemma trim_eq_self {s : List Char} (h : ∀ c ∈ s, Text.isBlank c = false) : trim s = s := by
  by_cases hne : s = []
  · rw [hne]
    rfl
  · have htrim : trim ([] ++ s ++ []) = s := trim_append nofun nofun hne
      (fun c hc => h c (List.mem_of_mem_head? hc)) fun c hc => h c (List.mem_of_getLast? hc)
    rwa [List.append_nil] at htrim

/-- The text of a finite float has no blanks to trim and no unit to drop. -/
lemma dropPixels_plain {x : Float} (h : x.isFinite = true) :
    dropPixels (trim (Number.plain x).toList) = Number.Format.plain.write x := by
  have htrim : trim (Number.Format.plain.write x) = Number.Format.plain.write x := by
    refine trim_eq_self fun c hc => ?_
    rcases Number.plain_chars h hc with (hdigit | rfl) | rfl
    · exact (Number.isNumeralChar_of_isDigit hdigit).isBlank
    · rfl
    · rfl
  have hunit : ¬ ['p', 'x'].isSuffixOf (Number.Format.plain.write x) = true := by
    intro hsuffix
    have hx : 'x' ∈ Number.Format.plain.write x :=
      (List.isSuffixOf_iff_suffix.1 hsuffix).subset (by simp)
    rcases Number.plain_chars h hx with (hdigit | hpoint) | hsign
    · cases hdigit
    · cases hpoint
    · cases hsign
  rw [Number.plain, String.toList_ofList, htrim, dropPixels, if_neg hunit]

lemma numberAttribute_values {opening : Opening} {key : String} {x : Float}
    (h : (key, Number.plain x) ∈ opening.pairs) (hx : x.isFinite = true) (element : String) :
    numberAttribute element opening.values key = .ok x := by
  unfold numberAttribute
  rw [find?_values h]
  dsimp only
  rw [dropPixels_plain hx, Number.readFloat?_plain hx]

@[simp] lemma pairs_spanOpening (x y : Float) (style : String) :
    (spanOpening x y style).pairs =
      [("x", Number.plain x), ("y", Number.plain y), ("style", style)] := rfl

@[simp] lemma Rect.pairs_opening (rect : Rect) :
    rect.opening.pairs =
      [("x", Number.plain rect.x), ("y", Number.plain rect.y),
        ("width", Number.plain rect.width), ("height", Number.plain rect.height),
        ("style", rect.style), ("class", rect.classes), ("path-effect", rect.pathEffect)] := rfl

@[simp] lemma Circle.pairs_opening (circle : Circle) :
    circle.opening.pairs =
      [("cx", Number.plain circle.cx), ("cy", Number.plain circle.cy),
        ("r", Number.plain circle.r), ("style", circle.style), ("class", circle.classes)] := rfl

@[simp] lemma TextBox.pairs_opening (text : TextBox) :
    text.opening.pairs =
      [("x", Number.plain text.x), ("y", Number.plain text.y), ("style", text.style),
        ("class", text.classes)] := rfl

@[simp] lemma pairs_pathEffectOpening (pathEffect : String × Float) :
    (pathEffectOpening pathEffect).pairs =
      [("id", pathEffect.1), ("radius", Number.plain pathEffect.2)] := rfl

@[simp] lemma Drawing.pairs_opening (drawing : Drawing) :
    drawing.opening.pairs =
      [("width", Number.plain drawing.canvas.width),
        ("height", Number.plain drawing.canvas.height)] := rfl

/-! ### Texts -/

lemma unescapeText_escape (text : String) : unescapeText (escape text) = .ok text := by
  rw [unescapeText, unescape_escape]
  rfl

lemma textAmong_textNodes (text : String) : textAmong (textNodes text) = .ok text := by
  unfold textNodes
  split
  case isTrue h =>
    rw [h]
    rfl
  case isFalse =>
    simp [textAmong, textIn, unescapeText_escape, bind, Except.bind, pure, Except.pure]

/-! ### Spans -/

lemma Span.ofTag_opening {x y : Float} (hx : x.isFinite = true) (hy : y.isFinite = true)
    (style : String) : Span.ofTag (spanOpening x y style).tag = .ok { x, y, style } := by
  have hx : numberAttribute "tspan" (spanOpening x y style).values "x" = .ok x :=
    numberAttribute_values (by simp) hx _
  have hy : numberAttribute "tspan" (spanOpening x y style).values "y" = .ok y :=
    numberAttribute_values (by simp) hy _
  have hstyle : textAttribute (spanOpening x y style).values "style" = style :=
    textAttribute_values (by simp)
  unfold Span.ofTag
  rw [attributesOf_tag, ok_bind, hx, ok_bind, hy, ok_bind, hstyle]
  rfl

/-- The node of an element with what stands in its tag. -/
lemma node_mk (opening : Opening) (text : String) (children : List Element) :
    (Element.mk opening text children).node =
      .element opening.tag (textNodes text ++ Element.nodesOf children) := by
  rw [Element.node]

lemma node_mk_empty (opening : Opening) (children : List Element) :
    (Element.mk opening "" children).node = .element opening.tag (Element.nodesOf children) :=
  node_mk opening "" children

lemma nodesOf_eq_map (elements : List Element) :
    Element.nodesOf elements = elements.map Element.node := by
  induction elements with
  | nil => rfl
  | cons element elements ih => rw [Element.nodesOf, ih, List.map_cons]

/-- Nodes that each add what was written add all of it. -/
lemma foldlM_written {σ α ε : Type} {add : σ → Node → Except ε σ} {element : α → Element}
    {items : List α} (put : σ → List α → σ) (hnil : ∀ state, put state [] = state)
    (hcons : ∀ state item items, put (put state [item]) items = put state (item :: items))
    (hadd : ∀ item ∈ items, ∀ state, add state (element item).node = .ok (put state [item]))
    (state : σ) :
    (Element.nodesOf (items.map element)).foldlM add state = .ok (put state items) := by
  induction items generalizing state with
  | nil =>
    rw [hnil]
    rfl
  | cons item items ih =>
    rw [List.map_cons, Element.nodesOf, List.foldlM_cons, hadd item List.mem_cons_self, ok_bind,
      ih fun other h => hadd other (List.mem_cons_of_mem item h), hcons]

lemma textAmong_description (description : String) :
    textAmong (textNodes description ++ []) = .ok description := by
  rw [List.append_nil, textAmong_textNodes]

namespace Span

/-- A span whose text is empty takes the text that stands in it. -/
lemma addNodes_textNodes (span : Span) (h : span.text = "") (text : String) :
    span.addNodes (textNodes text) = .ok { span with text := text } := by
  unfold textNodes
  split
  case isTrue htext =>
    rw [addNodes, htext, ← h]
    cases span
    rfl
  case isFalse =>
    rw [addNodes, addNode, unescapeText_escape, h]
    simp [addNodes, bind, Except.bind, pure, Except.pure]

lemma addNode_description (span : Span) (description : String) :
    span.addNode (descriptionElement description).node =
      .ok { span with description := description } := by
  rw [descriptionElement, node_mk, addNode, localName_tag, if_neg (by decide), if_pos rfl,
    Element.nodesOf, textAmong_description]
  rfl

/-- The nodes in a written span. -/
def nodes (span : Span) : List Node :=
  textNodes span.text ++
    Element.nodesOf (elements span.spans ++ [descriptionElement span.description])

lemma elements_eq_map (spans : List Span) : elements spans = spans.map element := by
  induction spans with
  | nil => rfl
  | cons span spans ih => rw [elements, ih, List.map_cons]

lemma isFinite_of_mem {spans : List Span} (h : areFinite spans = true) {span : Span}
    (hspan : span ∈ spans) : span.isFinite = true := by
  induction spans with
  | nil => cases hspan
  | cons first spans ih =>
    rw [areFinite, Bool.and_eq_true] at h
    rcases List.mem_cons.1 hspan with rfl | hspan
    · exact h.1
    · exact ih h.2 hspan

lemma localName_spanOpening (x y : Float) (style : String) :
    (spanOpening x y style).tag.localName = "tspan" := localName_tag _

lemma element_node (span : Span) :
    span.element.node = .element (spanOpening span.x span.y span.style).tag span.nodes := by
  obtain ⟨x, y, style, text, description, spans⟩ := span
  rw [element, node_mk, nodes]

mutual

/-- A written span is read from its tag and the nodes in it. -/
lemma read_element (span : Span) (h : span.isFinite = true) :
    (do (← Span.ofTag (spanOpening span.x span.y span.style).tag).addNodes span.nodes) =
      .ok span := by
  obtain ⟨x, y, style, text, description, spans⟩ := span
  rw [isFinite, Bool.and_eq_true, Bool.and_eq_true] at h
  obtain ⟨⟨hx, hy⟩, hspans⟩ := h
  rw [ofTag_opening hx hy, ok_bind, nodes, addNodes_append, addNodes_textNodes _ rfl, ok_bind,
    nodesOf_eq_map, List.map_append, ← nodesOf_eq_map, addNodes_append,
    addNodes_elements spans hspans, ok_bind, List.map_singleton, addNodes, addNode_description,
    ok_bind, addNodes]
  rfl

lemma addNodes_elements (spans : List Span) (h : areFinite spans = true) (outer : Span) :
    outer.addNodes (Element.nodesOf (elements spans)) =
      .ok { outer with spans := outer.spans ++ spans } := by
  cases spans with
  | nil =>
    rw [elements, Element.nodesOf, addNodes, List.append_nil]
    cases outer
    rfl
  | cons span spans =>
    rw [areFinite, Bool.and_eq_true] at h
    rw [elements, Element.nodesOf, addNodes, element_node, addNode,
      if_pos (localName_spanOpening _ _ _), ← bind_assoc, read_element span h.1, ok_bind, pure_bind,
      addNodes_elements spans h.2]
    simp

end

end Span

/-! ### Shapes -/

namespace Content

lemma addNode_description (content : Content) (description : String) :
    content.addNode (descriptionElement description).node =
      .ok { content with description := description } := by
  rw [descriptionElement, node_mk, addNode, localName_tag, if_neg (by decide), if_pos rfl,
    Element.nodesOf, textAmong_description]
  rfl

lemma addNode_span (content : Content) {span : Span} (h : span.isFinite = true) :
    content.addNode span.element.node = .ok { content with spans := content.spans ++ [span] } := by
  rw [Span.element_node, addNode, if_pos (Span.localName_spanOpening _ _ _), ← bind_assoc,
    Span.read_element span h, ok_bind]
  rfl

lemma foldlM_spans {spans : List Span} (h : Span.areFinite spans = true) (content : Content) :
    (Element.nodesOf (Span.elements spans)).foldlM addNode content =
      .ok { content with spans := content.spans ++ spans } := by
  rw [Span.elements_eq_map]
  exact foldlM_written (fun state spans => { state with spans := state.spans ++ spans })
    (by simp) (by simp) (fun span hspan state => state.addNode_span (Span.isFinite_of_mem h hspan))
    content

/-- What is written into a shape is its description and its spans. -/
lemma ofNodes_description (description : String) {spans : List Span}
    (h : Span.areFinite spans = true) :
    ofNodes (Element.nodesOf (descriptionElement description :: Span.elements spans)) =
      .ok { description, spans } := by
  rw [ofNodes, Element.nodesOf, List.foldlM_cons, addNode_description, ok_bind, foldlM_spans h]
  rfl

end Content

namespace Shape

lemma rectOf_values {rect : Rect} (h : rect.isFinite = true) :
    rectOf rect.opening.values { description := rect.description } = .ok (.rect rect) := by
  simp only [Rect.isFinite, Bool.and_eq_true] at h
  obtain ⟨⟨⟨hx, hy⟩, hwidth⟩, hheight⟩ := h
  have hx : numberAttribute "rect" rect.opening.values "x" = .ok rect.x :=
    numberAttribute_values (by simp) hx _
  have hy : numberAttribute "rect" rect.opening.values "y" = .ok rect.y :=
    numberAttribute_values (by simp) hy _
  have hwidth : numberAttribute "rect" rect.opening.values "width" = .ok rect.width :=
    numberAttribute_values (by simp) hwidth _
  have hheight : numberAttribute "rect" rect.opening.values "height" = .ok rect.height :=
    numberAttribute_values (by simp) hheight _
  have hstyle : textAttribute rect.opening.values "style" = rect.style :=
    textAttribute_values (by simp)
  have hclasses : textAttribute rect.opening.values "class" = rect.classes :=
    textAttribute_values (by simp)
  have heffect : textAttribute rect.opening.values "path-effect" = rect.pathEffect :=
    textAttribute_values (by simp)
  rw [rectOf, hx, ok_bind, hy, ok_bind, hwidth, ok_bind, hheight, ok_bind, hstyle, hclasses,
    heffect]
  rfl

lemma circleOf_values {circle : Circle} (h : circle.isFinite = true) :
    circleOf circle.opening.values { description := circle.description } =
      .ok (.circle circle) := by
  simp only [Circle.isFinite, Bool.and_eq_true] at h
  obtain ⟨⟨hcx, hcy⟩, hr⟩ := h
  have hcx : numberAttribute "circle" circle.opening.values "cx" = .ok circle.cx :=
    numberAttribute_values (by simp) hcx _
  have hcy : numberAttribute "circle" circle.opening.values "cy" = .ok circle.cy :=
    numberAttribute_values (by simp) hcy _
  have hr : numberAttribute "circle" circle.opening.values "r" = .ok circle.r :=
    numberAttribute_values (by simp) hr _
  have hstyle : textAttribute circle.opening.values "style" = circle.style :=
    textAttribute_values (by simp)
  have hclasses : textAttribute circle.opening.values "class" = circle.classes :=
    textAttribute_values (by simp)
  rw [circleOf, hcx, ok_bind, hcy, ok_bind, hr, ok_bind, hstyle, hclasses]
  rfl

lemma textOf_values {text : TextBox} (h : text.isFinite = true) :
    textOf text.opening.values { description := text.description, spans := text.spans } =
      .ok (.text text) := by
  simp only [TextBox.isFinite, Bool.and_eq_true] at h
  obtain ⟨⟨hx, hy⟩, -⟩ := h
  have hx : numberAttribute "text" text.opening.values "x" = .ok text.x :=
    numberAttribute_values (by simp) hx _
  have hy : numberAttribute "text" text.opening.values "y" = .ok text.y :=
    numberAttribute_values (by simp) hy _
  have hstyle : textAttribute text.opening.values "style" = text.style :=
    textAttribute_values (by simp)
  have hclasses : textAttribute text.opening.values "class" = text.classes :=
    textAttribute_values (by simp)
  rw [textOf, hx, ok_bind, hy, ok_bind, hstyle, hclasses]
  rfl

/-- An element of a layer with a description and spans in it is read as a shape. -/
lemma ofNode?_node {opening : Opening} {shape : Shape} (description : String) (spans : List Span)
    (hspans : Span.areFinite spans = true) (htells : tellsAboutLayer opening.tag = false)
    (hread : ∀ nodes, Content.ofNodes nodes = .ok { description, spans } →
      ofElement opening.tag nodes = .ok shape) :
    ofNode? (Element.mk opening "" (descriptionElement description :: Span.elements spans)).node =
      .ok (some shape) := by
  rw [node_mk_empty, ofNode?, htells, if_neg (by decide),
    hread _ (Content.ofNodes_description description hspans)]
  rfl

/-- A written shape is read from its tag and the nodes in it. -/
lemma ofNode?_element (shape : Shape) (h : shape.isFinite = true) :
    ofNode? shape.element.node = .ok (some shape) := by
  cases shape with
  | rect r =>
    have hname : r.opening.tag.localName = "rect" := localName_tag _
    refine ofNode?_node r.description [] rfl (by simp [tellsAboutLayer, hname]) ?_
    intro nodes hcontent
    rw [ofElement, attributesOf_tag, ok_bind, hcontent, ok_bind, hname]
    exact rectOf_values h
  | circle c =>
    have hname : c.opening.tag.localName = "circle" := localName_tag _
    refine ofNode?_node c.description [] rfl (by simp [tellsAboutLayer, hname]) ?_
    intro nodes hcontent
    rw [ofElement, attributesOf_tag, ok_bind, hcontent, ok_bind, hname]
    exact circleOf_values h
  | text t =>
    have hname : t.opening.tag.localName = "text" := localName_tag _
    have hspans : Span.areFinite t.spans = true := by
      rw [isFinite, TextBox.isFinite, Bool.and_eq_true] at h
      exact h.2
    refine ofNode?_node t.description t.spans hspans (by simp [tellsAboutLayer, hname]) ?_
    intro nodes hcontent
    rw [ofElement, attributesOf_tag, ok_bind, hcontent, ok_bind, hname]
    exact textOf_values h

end Shape

/-! ### Layers -/

lemma Layer.ofNodes_element (layer : Layer) (h : layer.all Shape.isFinite = true) :
    Layer.ofNodes (Element.nodesOf (layer.map Shape.element)) = .ok layer := by
  have hshapes : (Element.nodesOf (layer.map Shape.element)).mapM Shape.ofNode? =
      .ok (layer.map some) := by
    rw [nodesOf_eq_map, mapM_eq_ok_iff, List.forall₂_map_left_iff, List.forall₂_map_left_iff,
      List.forall₂_map_right_iff, List.forall₂_same]
    exact fun shape hshape => Shape.ofNode?_element shape (List.all_eq_true.1 h shape hshape)
  rw [Layer.ofNodes, hshapes, ok_bind, List.filterMap_map]
  exact congrArg Except.ok (List.filterMap_some)

/-! ### The drawing -/

namespace Drawing

lemma addDefinition_sheet (drawing : Drawing) (sheet : String) :
    drawing.addDefinition (sheetElement sheet).node =
      .ok { drawing with sheets := drawing.sheets ++ [sheet] } := by
  rw [sheetElement, node_mk, addDefinition, localName_tag, if_pos rfl, Element.nodesOf,
    textAmong_description]
  rfl

lemma addPathEffect_opening (drawing : Drawing) {pathEffect : String × Float}
    (h : pathEffect.2.isFinite = true) :
    drawing.addPathEffect (pathEffectOpening pathEffect).tag =
      .ok { drawing with
        pathEffects := drawing.pathEffects.insert pathEffect.1 pathEffect.2 } := by
  have hid : (pathEffectOpening pathEffect).values.find? "id" = some pathEffect.1 :=
    find?_values (by simp)
  have hradius : numberAttribute "path-effect" (pathEffectOpening pathEffect).values "radius" =
      .ok pathEffect.2 := numberAttribute_values (by simp) h _
  rw [addPathEffect, attributesOf_tag, ok_bind, hid]
  dsimp only
  rw [hradius]
  rfl

lemma addDefinition_pathEffect (drawing : Drawing) {pathEffect : String × Float}
    (h : pathEffect.2.isFinite = true) :
    drawing.addDefinition (Element.mk (pathEffectOpening pathEffect) "" []).node =
      .ok { drawing with
        pathEffects := drawing.pathEffects.insert pathEffect.1 pathEffect.2 } := by
  have hname : (pathEffectOpening pathEffect).tag.localName = "path-effect" := localName_tag _
  rw [node_mk_empty, addDefinition, hname, if_neg (by decide)]
  dsimp only
  rw [if_pos rfl, addPathEffect_opening drawing h]
  rfl

lemma addNode_definitions (drawing : Drawing)
    (h : drawing.pathEffects.pairs.all (·.2.isFinite) = true) (canvas : Canvas) :
    ({ canvas } : Drawing).addNode drawing.definitions.node =
      .ok { canvas, sheets := drawing.sheets, pathEffects := drawing.pathEffects } := by
  have hsheets : ∀ state : Drawing,
      (Element.nodesOf (drawing.sheets.map sheetElement)).foldlM addDefinition state =
        .ok { state with sheets := state.sheets ++ drawing.sheets } :=
    foldlM_written (fun state sheets => { state with sheets := state.sheets ++ sheets })
      (by simp) (by simp) (fun sheet _ state => addDefinition_sheet state sheet)
  have heffects : ∀ state : Drawing,
      (Element.nodesOf (drawing.pathEffects.pairs.map fun pathEffect =>
        .mk (pathEffectOpening pathEffect) "" [])).foldlM addDefinition state =
          .ok { state with
            pathEffects := state.pathEffects.insertAll drawing.pathEffects.pairs } :=
    foldlM_written
      (fun state pairs => { state with pathEffects := state.pathEffects.insertAll pairs })
      (fun _ => rfl) (fun _ _ _ => rfl)
      (fun p hp state => addDefinition_pathEffect state (List.all_eq_true.1 h p hp))
  rw [definitions, node_mk_empty, addNode, localName_tag, if_pos rfl, nodesOf_eq_map,
    List.map_append, List.foldlM_append, ← nodesOf_eq_map, hsheets, ok_bind, ← nodesOf_eq_map,
    heffects]
  have heffects := drawing.pathEffects.ofList_pairs
  rw [Table.ofList] at heffects
  rw [heffects]
  rfl

lemma addNode_layer (drawing : Drawing) (layer : Layer) (h : layer.all Shape.isFinite = true) :
    drawing.addNode layer.element.node =
      .ok { drawing with layers := drawing.layers ++ [layer] } := by
  rw [Layer.element, node_mk_empty, addNode, localName_tag, if_neg (by decide), if_pos rfl,
    Layer.ofNodes_element layer h]
  rfl

lemma ofTag_opening (drawing : Drawing) (hwidth : drawing.canvas.width.isFinite = true)
    (hheight : drawing.canvas.height.isFinite = true) :
    ofTag drawing.opening.tag = .ok { canvas := drawing.canvas } := by
  have hwidth : numberAttribute "svg" drawing.opening.values "width" =
      .ok drawing.canvas.width := numberAttribute_values (by simp) hwidth _
  have hheight : numberAttribute "svg" drawing.opening.values "height" =
      .ok drawing.canvas.height := numberAttribute_values (by simp) hheight _
  rw [ofTag, attributesOf_tag, ok_bind, hwidth, ok_bind, hheight]
  rfl

/-- **A drawing of finite numbers is read from its markup.** -/
theorem ofMarkup_markup (drawing : Drawing) (h : drawing.isFinite = true) :
    Drawing.ofMarkup drawing.markup = .ok drawing := by
  simp only [isFinite, Bool.and_eq_true] at h
  obtain ⟨⟨⟨hwidth, hheight⟩, heffects⟩, hlayers⟩ := h
  have hroot : drawing.opening.tag.localName = "svg" := localName_tag _
  have hread : ∀ state : Drawing,
      (Element.nodesOf (drawing.layers.map Layer.element)).foldlM addNode state =
        .ok { state with layers := state.layers ++ drawing.layers } :=
    foldlM_written (fun state layers => { state with layers := state.layers ++ layers })
      (by simp) (by simp)
      (fun layer hmem state => addNode_layer state layer (List.all_eq_true.1 hlayers layer hmem))
  rw [ofMarkup, markup, nodes_markup, node_mk_empty, ofNodes, if_pos hroot,
    ofTag_opening drawing hwidth hheight, ok_bind, Element.nodesOf, List.foldlM_cons,
    addNode_definitions drawing heffects, ok_bind, hread]
  rfl

/-- A drawing with a sheet, a path effect, an empty layer and a span in another one. -/
def signboard : Drawing where
  canvas := { width := 640, height := 480.5 }
  sheets := [".wide\x7bstroke-width:3\x7d"]
  pathEffects := .ofList [("corner", 2.5)]
  layers :=
    [[.rect { x := -1, width := 1e-7, classes := "wide", pathEffect := "#corner" }], [],
      [.text
        { y := 0.1, description := "<a> & b"
          spans := [{ text := "c", style := "fill:\"red\"", spans := [{ text := "d" }] }] }]]

theorem ofMarkup_markup_signboard :
    signboard.isFinite = true ∧ Drawing.ofMarkup signboard.markup = .ok signboard :=
  ⟨by decide +kernel, ofMarkup_markup signboard (by decide +kernel)⟩

end Drawing

end RenderLayout
