import RenderLayout.Drawing.Decode
import RenderLayout.Proofs.Acceptance

/-!
One span in every text of the markup.

Decoding makes a span of every `tspan` element of a text that stands in the text itself or in
another such element, and of no other; elements of other names are passed over with all that they
hold. So where a layout comes of it, every text of the markup has one such element, and an element
in another one would be told.
-/

namespace RenderLayout

open Markup

/-! ### Elements of the markup -/

namespace Markup

mutual

/-- How many `tspan` elements a node comes to, with those in the elements that are looked into. -/
def tspansIn (into : Tag → Bool) : Node → Nat
  | .empty tag => if tag.localName = "tspan" then 1 else 0
  | .element tag children =>
    (if tag.localName = "tspan" then 1 else 0) + if into tag then tspansAmong into children else 0
  | _ => 0

def tspansAmong (into : Tag → Bool) : List Node → Nat
  | [] => 0
  | node :: nodes => tspansIn into node + tspansAmong into nodes

end

/-- What stands in a node that is an element of a name. -/
def inside? (name : String) : Node → Option (List Node)
  | .empty tag => if tag.localName = name then some [] else none
  | .element tag children => if tag.localName = name then some children else none
  | _ => none

/-- What stands in the elements of a name among nodes. -/
def within (name : String) (nodes : List Node) : List (List Node) := nodes.filterMap (inside? name)

lemma exists_tag {name : String} {node : Node} {inner : List Node}
    (h : inside? name node = some inner) :
    ∃ tag, tag.localName = name ∧ (node = .element tag inner ∨ node = .empty tag ∧ inner = []) := by
  unfold inside? at h
  split at h
  · split at h
    case isTrue htag => exact ⟨_, htag, Or.inr ⟨rfl, (Option.some.inj h).symm⟩⟩
    case isFalse => cases h
  · split at h
    case isTrue htag => exact ⟨_, htag, Or.inl (by rw [Option.some.inj h])⟩
    case isFalse => cases h
  · cases h

/-- What stands in the root, which is the first element. -/
def root : List Node → List Node
  | .element _ children :: _ => children
  | .empty tag :: nodes => if tag.localName = "svg" then [] else root nodes
  | _ :: nodes => root nodes
  | [] => []

/-- What stands in the texts of the layers of a markup text. -/
def texts (markup : String) : List (List Node) :=
  (within "g" (root (nodes markup))).flatMap (within "text")

end Markup

/-! ### Spans of the drawing -/

mutual

/-- The spans that a span comes to, itself among them. -/
def Span.count : Span → Nat
  | ⟨_, _, _, _, _, spans⟩ => 1 + countAll spans

def Span.countAll : List Span → Nat
  | [] => 0
  | span :: spans => span.count + countAll spans

end

/-- Elements that hold spans. -/
def isTspan (tag : Tag) : Bool := tag.localName = "tspan"

namespace Span

lemma count_eq (span : Span) : span.count = 1 + countAll span.spans := by
  cases span
  rfl

lemma countAll_append (spans others : List Span) :
    countAll (spans ++ others) = countAll spans + countAll others := by
  induction spans with
  | nil => simp [countAll]
  | cons span spans ih => rw [List.cons_append, countAll, countAll, ih, Nat.add_assoc]

lemma spans_ofTag {tag : Tag} {span : Span} (h : Span.ofTag tag = .ok span) : span.spans = [] := by
  unfold ofTag at h
  obtain ⟨attributes, -, h⟩ := bind_eq_ok_iff.1 h
  obtain ⟨x, -, h⟩ := bind_eq_ok_iff.1 h
  obtain ⟨y, -, h⟩ := bind_eq_ok_iff.1 h
  obtain rfl := Except.ok.inj h
  rfl

/-- A span that is added is counted as the element that it comes of. -/
lemma countAll_append_empty {tag : Tag} {inner : Span} (spans : List Span)
    (htag : tag.localName = "tspan") (h : Span.ofTag tag = .ok inner) :
    countAll (spans ++ [inner]) = countAll spans + tspansIn isTspan (.empty tag) := by
  simp [countAll_append, countAll, count_eq, spans_ofTag h, tspansIn, htag]

lemma countAll_append_element {tag : Tag} {children : List Node} {inner : Span}
    (spans : List Span) (htag : tag.localName = "tspan")
    (h : countAll inner.spans = tspansAmong isTspan children) :
    countAll (spans ++ [inner]) = countAll spans + tspansIn isTspan (.element tag children) := by
  simp [countAll_append, countAll, count_eq, h, tspansIn, htag, isTspan]

lemma tspansIn_element_of_ne {tag : Tag} (children : List Node)
    (htag : ¬ tag.localName = "tspan") : tspansIn isTspan (.element tag children) = 0 := by
  simp [tspansIn, htag, isTspan]

mutual

lemma countAll_addNode {span span' : Span} {node : Node} (h : span.addNode node = .ok span') :
    countAll span'.spans = countAll span.spans + tspansIn isTspan node := by
  cases node with
  | text raw =>
    rw [addNode] at h
    obtain ⟨text, -, h⟩ := bind_eq_ok_iff.1 h
    obtain rfl := Except.ok.inj h
    simp [tspansIn]
  | literal raw =>
    rw [addNode] at h
    obtain rfl := Except.ok.inj h
    simp [tspansIn]
  | aside =>
    rw [addNode] at h
    obtain rfl := Except.ok.inj h
    simp [tspansIn]
  | cut ending => cases h
  | empty tag =>
    rw [addNode] at h
    split at h
    case isTrue htag =>
      obtain ⟨inner, hinner, h⟩ := bind_eq_ok_iff.1 h
      obtain rfl := Except.ok.inj h
      exact countAll_append_empty span.spans htag hinner
    case isFalse htag =>
      obtain rfl := Except.ok.inj h
      simp [tspansIn, htag]
  | element tag children =>
    rw [addNode] at h
    split at h
    case isTrue htag =>
      obtain ⟨empty, hempty, h⟩ := bind_eq_ok_iff.1 h
      obtain ⟨inner, hinner, h⟩ := bind_eq_ok_iff.1 h
      obtain rfl := Except.ok.inj h
      have hchildren := countAll_addNodes hinner
      rw [spans_ofTag hempty, countAll, Nat.zero_add] at hchildren
      exact countAll_append_element span.spans htag hchildren
    case isFalse htag =>
      rw [tspansIn_element_of_ne children htag]
      split at h
      · obtain ⟨text, -, h⟩ := bind_eq_ok_iff.1 h
        obtain rfl := Except.ok.inj h
        rfl
      · obtain ⟨-, -, h⟩ := bind_eq_ok_iff.1 h
        obtain rfl := Except.ok.inj h
        rfl

lemma countAll_addNodes {span span' : Span} {nodes : List Node}
    (h : span.addNodes nodes = .ok span') :
    countAll span'.spans = countAll span.spans + tspansAmong isTspan nodes := by
  cases nodes with
  | nil =>
    rw [addNodes] at h
    obtain rfl := Except.ok.inj h
    simp [tspansAmong]
  | cons node nodes =>
    rw [addNodes] at h
    obtain ⟨next, hnext, h⟩ := bind_eq_ok_iff.1 h
    rw [countAll_addNodes h, countAll_addNode hnext, tspansAmong, Nat.add_assoc]

end

end Span

/-! ### Texts of the drawing -/

namespace Content

lemma countAll_addNode {content content' : Content} {node : Node}
    (h : content.addNode node = .ok content') :
    Span.countAll content'.spans = Span.countAll content.spans + tspansIn isTspan node := by
  unfold addNode at h
  split at h
  case h_1 tag =>
    split at h
    case isTrue htag =>
      obtain ⟨inner, hinner, h⟩ := bind_eq_ok_iff.1 h
      obtain rfl := Except.ok.inj h
      exact Span.countAll_append_empty content.spans htag hinner
    case isFalse htag =>
      obtain rfl := Except.ok.inj h
      simp [tspansIn, htag]
  case h_2 tag children =>
    split at h
    case isTrue htag =>
      obtain ⟨empty, hempty, h⟩ := bind_eq_ok_iff.1 h
      obtain ⟨inner, hinner, h⟩ := bind_eq_ok_iff.1 h
      obtain rfl := Except.ok.inj h
      have hchildren := Span.countAll_addNodes hinner
      rw [Span.spans_ofTag hempty, Span.countAll, Nat.zero_add] at hchildren
      exact Span.countAll_append_element content.spans htag hchildren
    case isFalse htag =>
      rw [Span.tspansIn_element_of_ne children htag]
      split at h
      · obtain ⟨text, -, h⟩ := bind_eq_ok_iff.1 h
        obtain rfl := Except.ok.inj h
        rfl
      · obtain ⟨-, -, h⟩ := bind_eq_ok_iff.1 h
        obtain rfl := Except.ok.inj h
        rfl
  case h_3 => cases h
  case h_4 hempty helement _ =>
    obtain rfl := Except.ok.inj h
    cases node with
    | empty tag => exact absurd rfl (hempty tag)
    | element tag children => exact absurd rfl (helement tag children)
    | _ => rfl

lemma countAll_foldlM {nodes : List Node} {start content : Content}
    (h : nodes.foldlM addNode start = .ok content) :
    Span.countAll content.spans = Span.countAll start.spans + tspansAmong isTspan nodes := by
  induction nodes generalizing start with
  | nil =>
    obtain rfl := Except.ok.inj h
    rfl
  | cons node nodes ih =>
    rw [List.foldlM_cons] at h
    obtain ⟨next, hnext, h⟩ := bind_eq_ok_iff.1 h
    rw [ih h, countAll_addNode hnext, tspansAmong, Nat.add_assoc]

lemma countAll_ofNodes {nodes : List Node} {content : Content} (h : ofNodes nodes = .ok content) :
    Span.countAll content.spans = tspansAmong isTspan nodes := by
  simpa [Span.countAll] using countAll_foldlM h

end Content

/-- A text of the drawing has the spans of what stands in an element of the markup. -/
def TextBox.IsOf (inner : List Node) (text : TextBox) : Prop :=
  Span.countAll text.spans = tspansAmong isTspan inner

lemma Shape.ofElement_text {tag : Tag} {children : List Node} {shape : Shape}
    (htag : tag.localName = "text") (h : ofElement tag children = .ok shape) :
    ∃ text, shape = .text text ∧ text.IsOf children := by
  unfold ofElement at h
  obtain ⟨attributes, -, h⟩ := bind_eq_ok_iff.1 h
  obtain ⟨content, hcontent, h⟩ := bind_eq_ok_iff.1 h
  rw [htag] at h
  replace h : textOf attributes content = .ok shape := h
  unfold textOf at h
  obtain ⟨x, -, h⟩ := bind_eq_ok_iff.1 h
  obtain ⟨y, -, h⟩ := bind_eq_ok_iff.1 h
  obtain rfl := Except.ok.inj h
  exact ⟨_, rfl, Content.countAll_ofNodes hcontent⟩

lemma Shape.ofNode?_text {node : Node} {inner : List Node} {shape? : Option Shape}
    (hnode : inside? "text" node = some inner) (h : ofNode? node = .ok shape?) :
    ∃ text, shape? = some (.text text) ∧ text.IsOf inner := by
  obtain ⟨tag, htag, hnode⟩ := exists_tag hnode
  have hshape : some <$> ofElement tag inner = .ok shape? := by
    have htells : tellsAboutLayer tag = false := by
      rw [tellsAboutLayer, htag]
      decide
    rcases hnode with rfl | ⟨rfl, rfl⟩
    · rwa [ofNode?, htells, if_neg Bool.false_ne_true] at h
    · rwa [ofNode?, htells, if_neg Bool.false_ne_true] at h
  rw [map_eq_pure_bind, bind_eq_ok_iff] at hshape
  obtain ⟨shape, hshape, h⟩ := hshape
  obtain ⟨text, rfl, hof⟩ := ofElement_text htag hshape
  exact ⟨text, (Except.ok.inj h).symm, hof⟩

/-- Every text element of a layer makes a text. -/
lemma Layer.exists_text {nodes inner : List Node} {layer : Layer} (h : ofNodes nodes = .ok layer)
    (hinner : inner ∈ within "text" nodes) : ∃ text, .text text ∈ layer ∧ text.IsOf inner := by
  unfold ofNodes at h
  obtain ⟨shapes, hshapes, h⟩ := bind_eq_ok_iff.1 h
  obtain rfl := Except.ok.inj h
  obtain ⟨node, hnode, hinside⟩ := List.mem_filterMap.1 hinner
  obtain ⟨i, hi⟩ := List.mem_iff_getElem?.1 hnode
  obtain ⟨shape?, hshape?, hmade⟩ := forall₂_getElem?_left (mapM_eq_ok_iff.1 hshapes) hi
  obtain ⟨text, rfl, hof⟩ := Shape.ofNode?_text hinside hmade
  exact ⟨text, List.mem_filterMap.2 ⟨_, List.mem_of_getElem? hshape?, rfl⟩, hof⟩

namespace Drawing

lemma layers_addPathEffect {drawing drawing' : Drawing} {tag : Tag}
    (h : drawing.addPathEffect tag = .ok drawing') : drawing'.layers = drawing.layers := by
  unfold addPathEffect at h
  obtain ⟨attributes, -, h⟩ := bind_eq_ok_iff.1 h
  split at h
  · obtain rfl := Except.ok.inj h
    rfl
  · obtain ⟨radius, -, h⟩ := bind_eq_ok_iff.1 h
    obtain rfl := Except.ok.inj h
    rfl

lemma layers_addDefinition {drawing drawing' : Drawing} {node : Node}
    (h : drawing.addDefinition node = .ok drawing') : drawing'.layers = drawing.layers := by
  unfold addDefinition at h
  split at h
  case h_1 tag =>
    split at h
    · exact layers_addPathEffect h
    · rw [Except.ok.inj h]
  case h_2 tag children =>
    split at h
    · obtain ⟨text, -, h⟩ := bind_eq_ok_iff.1 h
      obtain rfl := Except.ok.inj h
      rfl
    · dsimp only at h
      split at h
      · obtain ⟨next, hnext, h⟩ := bind_eq_ok_iff.1 h
        obtain ⟨-, -, h⟩ := bind_eq_ok_iff.1 h
        obtain rfl := Except.ok.inj h
        exact layers_addPathEffect hnext
      · obtain ⟨next, hnext, h⟩ := bind_eq_ok_iff.1 h
        obtain ⟨-, -, h⟩ := bind_eq_ok_iff.1 h
        rw [← Except.ok.inj h, ← Except.ok.inj hnext]
  case h_3 => cases h
  case h_4 => rw [Except.ok.inj h]

lemma layers_foldlM_addDefinition {drawing drawing' : Drawing} {nodes : List Node}
    (h : nodes.foldlM addDefinition drawing = .ok drawing') :
    drawing'.layers = drawing.layers := by
  induction nodes generalizing drawing with
  | nil =>
    obtain rfl := Except.ok.inj h
    rfl
  | cons node nodes ih =>
    rw [List.foldlM_cons] at h
    obtain ⟨next, hnext, h⟩ := bind_eq_ok_iff.1 h
    rw [ih h, layers_addDefinition hnext]

/-- A node of the root adds the layer that it is, if it is one. -/
lemma layers_addNode {drawing drawing' : Drawing} {node : Node}
    (h : drawing.addNode node = .ok drawing') :
    ∃ added, drawing'.layers = drawing.layers ++ added ∧
      List.Forall₂ (fun inner layer => Layer.ofNodes inner = .ok layer) (inside? "g" node).toList
        added := by
  unfold addNode at h
  split at h
  case h_1 tag =>
    rw [inside?]
    split at h
    case isTrue htag =>
      obtain rfl := Except.ok.inj h
      rw [if_pos htag]
      exact ⟨[[]], rfl, .cons rfl .nil⟩
    case isFalse htag =>
      obtain rfl := Except.ok.inj h
      rw [if_neg htag]
      exact ⟨[], (List.append_nil _).symm, .nil⟩
  case h_2 tag children =>
    rw [inside?]
    split at h
    case isTrue htag =>
      rw [if_neg (by rw [htag]; decide)]
      exact ⟨[], by rw [layers_foldlM_addDefinition h, List.append_nil], .nil⟩
    case isFalse =>
      split at h
      case isTrue htag =>
        obtain ⟨layer, hlayer, h⟩ := bind_eq_ok_iff.1 h
        obtain rfl := Except.ok.inj h
        rw [if_pos htag]
        exact ⟨[layer], rfl, .cons hlayer .nil⟩
      case isFalse htag =>
        obtain ⟨-, -, h⟩ := bind_eq_ok_iff.1 h
        obtain rfl := Except.ok.inj h
        rw [if_neg htag]
        exact ⟨[], (List.append_nil _).symm, .nil⟩
  case h_3 => cases h
  case h_4 hempty helement _ =>
    obtain rfl := Except.ok.inj h
    refine ⟨[], (List.append_nil _).symm, ?_⟩
    cases node with
    | empty tag => exact absurd rfl (hempty tag)
    | element tag children => exact absurd rfl (helement tag children)
    | _ => exact .nil

/-- The layer elements of the root make the layers, in their order. -/
lemma layers_foldlM_addNode {drawing drawing' : Drawing} {nodes : List Node}
    (h : nodes.foldlM addNode drawing = .ok drawing') :
    ∃ added, drawing'.layers = drawing.layers ++ added ∧
      List.Forall₂ (fun inner layer => Layer.ofNodes inner = .ok layer) (within "g" nodes) added := by
  induction nodes generalizing drawing with
  | nil =>
    obtain rfl := Except.ok.inj h
    exact ⟨[], (List.append_nil _).symm, .nil⟩
  | cons node nodes ih =>
    rw [List.foldlM_cons] at h
    obtain ⟨next, hnext, h⟩ := bind_eq_ok_iff.1 h
    obtain ⟨first, hfirst, hhead⟩ := layers_addNode hnext
    obtain ⟨others, hothers, htail⟩ := ih h
    refine ⟨first ++ others, by rw [hothers, hfirst, List.append_assoc], ?_⟩
    have hwithin : within "g" (node :: nodes) = (inside? "g" node).toList ++ within "g" nodes := by
      unfold within
      rw [List.filterMap_cons]
      cases inside? "g" node <;> rfl
    rw [hwithin]
    exact List.rel_append hhead htail

/-- A drawing is decoded from the root: its tag, and then what stands in it. -/
lemma exists_root {drawing : Drawing} {nodes : List Node} (h : ofNodes nodes = .ok drawing) :
    ∃ tag start, ofTag tag = .ok start ∧ (root nodes).foldlM addNode start = .ok drawing := by
  induction nodes with
  | nil => cases h
  | cons node nodes ih =>
    cases node with
    | element tag children =>
      rw [ofNodes] at h
      split at h
      · obtain ⟨start, hstart, h⟩ := bind_eq_ok_iff.1 h
        exact ⟨tag, start, hstart, h⟩
      · cases h
    | empty tag =>
      rw [ofNodes] at h
      rw [root]
      split at h
      case isTrue htag => exact ⟨tag, drawing, h, by rw [if_pos htag]; rfl⟩
      case isFalse htag =>
        rw [if_neg htag]
        exact ih h
    | cut ending => cases h
    | text raw => exact ih h
    | literal raw => exact ih h
    | aside => exact ih h

/-- Before its root is read, a drawing has a canvas and nothing else. -/
lemma eq_of_ofTag {tag : Tag} {drawing : Drawing} (h : ofTag tag = .ok drawing) :
    drawing = { canvas := drawing.canvas } := by
  unfold ofTag at h
  obtain ⟨attributes, -, h⟩ := bind_eq_ok_iff.1 h
  obtain ⟨width, -, h⟩ := bind_eq_ok_iff.1 h
  obtain ⟨height, -, h⟩ := bind_eq_ok_iff.1 h
  obtain rfl := Except.ok.inj h
  rfl

lemma layers_ofNodes {drawing : Drawing} {nodes : List Node} (h : ofNodes nodes = .ok drawing) :
    List.Forall₂ (fun inner layer => Layer.ofNodes inner = .ok layer) (within "g" (root nodes))
      drawing.layers := by
  obtain ⟨tag, start, hstart, h⟩ := exists_root h
  obtain ⟨added, hlayers, hadded⟩ := layers_foldlM_addNode h
  rw [eq_of_ofTag hstart, List.nil_append] at hlayers
  rwa [hlayers]

lemma exists_layer_of_root {drawing : Drawing} {nodes inner : List Node}
    (h : ofNodes nodes = .ok drawing) (hinner : inner ∈ within "g" (root nodes)) :
    ∃ layer ∈ drawing.layers, Layer.ofNodes inner = .ok layer := by
  obtain ⟨i, hi⟩ := List.mem_iff_getElem?.1 hinner
  obtain ⟨layer, hlayer, hread⟩ := forall₂_getElem?_left (layers_ofNodes h) hi
  exact ⟨layer, List.mem_of_getElem? hlayer, hread⟩

/-- Every text of the markup is one of the drawing. -/
lemma exists_text {markup : String} {drawing : Drawing} {inner : List Node}
    (h : ofMarkup markup = .ok drawing) (hinner : inner ∈ texts markup) :
    ∃ layer ∈ drawing.layers, ∃ text, .text text ∈ layer ∧ text.IsOf inner := by
  obtain ⟨nodes, hnodes, hinner⟩ := List.mem_flatMap.1 hinner
  obtain ⟨layer, hmem, hlayer⟩ := exists_layer_of_root h hnodes
  obtain ⟨text, htext, hof⟩ := Layer.exists_text hlayer hinner
  exact ⟨layer, hmem, text, htext, hof⟩

end Drawing

/-! ### The limit -/

/-- Markup with a text whose second `tspan` stands in an element of another name. -/
def linked : String :=
  "<svg width=\"1024\" height=\"613\"><g><text>" ++
    "<tspan>a</tspan><a><tspan>b</tspan></a></text></g></svg>"

/-- The text of the first `tspan` is drawn. -/
lemma compile_linked :
    ∃ drawing layout, Drawing.ofMarkup linked = .ok drawing ∧
      compile {} (.ofList [("p", drawing)]) = .ok layout ∧
      (layout.pages.find? "p").map (·.map (·.text)) = some [some "a"] := by
  have hrun : (do
      let drawing ← (Drawing.ofMarkup linked).toOption
      let layout ← (compile {} (.ofList [("p", drawing)])).toOption
      let page ← layout.pages.find? "p"
      return page.map (·.text)) = some [some "a"] := by decide +kernel
  obtain ⟨drawing, hdrawing, hrun⟩ := Option.bind_eq_some_iff.1 hrun
  obtain ⟨layout, hlayout, hrun⟩ := Option.bind_eq_some_iff.1 hrun
  obtain ⟨page, hpage, htexts⟩ := Option.bind_eq_some_iff.1 hrun
  refine ⟨drawing, layout, toOption_eq_some_iff.1 hdrawing, toOption_eq_some_iff.1 hlayout, ?_⟩
  rw [hpage]
  exact htexts

/-- The second `tspan` is passed over with the element that it stands in, and a layout comes of the
first one. -/
theorem linked_tspan_passed_over :
    ∃ drawing layout, Drawing.ofMarkup linked = .ok drawing ∧
      compile {} (.ofList [("p", drawing)]) = .ok layout ∧
      (texts linked).map (tspansAmong fun tag => tag.localName ≠ "desc") = [2] ∧
      (layout.pages.find? "p").map (·.map (·.text)) = some [some "a"] := by
  obtain ⟨drawing, layout, hdrawing, hlayout, htexts⟩ := compile_linked
  exact ⟨drawing, layout, hdrawing, hlayout, by decide +kernel, htexts⟩

/-- **One span in every text**: if a layout comes of markup, every text in a layer of it has just
one `tspan` element, not counting those in elements of other names; otherwise there is no
layout. -/
theorem single_tspan {markup page : String} {drawing : Drawing} {canvas : Canvas}
    {drawings : Table Drawing} (hmarkup : Drawing.ofMarkup markup = .ok drawing)
    (hdrawing : drawings.find? page = some drawing) :
    (∀ layout, compile canvas drawings = .ok layout →
      ∀ inner ∈ texts markup, tspansAmong isTspan inner = 1) ∧
    ∀ inner ∈ texts markup, tspansAmong isTspan inner ≠ 1 →
      ∃ failure, compile canvas drawings = .error failure := by
  have hone {layout : Layout} (h : compile canvas drawings = .ok layout) (inner : List Node)
      (hinner : inner ∈ texts markup) : tspansAmong isTspan inner = 1 := by
    obtain ⟨layer, hlayer, text, htext, hof⟩ := Drawing.exists_text hmarkup hinner
    obtain ⟨result, hresult⟩ :=
      (compile_eq_ok_iff.1 h).1 (page, drawing) (Table.find?_eq_some_iff.1 hdrawing)
    have hnone := fault?_eq_none_iff.2 ⟨result, hresult⟩
    rw [Drawing.fault?_toCheckedPage, Drawing.pageFault?_eq_none_iff] at hnone
    obtain ⟨span, hspans, hnested⟩ := hnone.texts layer hlayer text htext
    rw [← hof, hspans]
    simp [Span.countAll, Span.count_eq, hnested]
  refine ⟨fun layout h => hone h, fun inner hinner hne => ?_⟩
  cases h : compile canvas drawings with
  | error failure => exact ⟨failure, rfl⟩
  | ok layout => exact absurd (hone h inner hinner) hne

/-- Markup with a text whose second `tspan` stands in the first. -/
def nested : String :=
  "<svg width=\"1024\" height=\"613\"><g><text><tspan>a<tspan>b</tspan></tspan></text></g></svg>"

/-- The text with one `tspan` that counts is drawn, and the one with two is told. -/
theorem single_tspan_nested :
    (∃ drawing layout, Drawing.ofMarkup linked = .ok drawing ∧
      compile {} (.ofList [("p", drawing)]) = .ok layout ∧
      ∀ inner ∈ texts linked, tspansAmong isTspan inner = 1) ∧
    ∃ drawing failure, Drawing.ofMarkup nested = .ok drawing ∧
      compile {} (.ofList [("p", drawing)]) = .error failure := by
  have hpage (drawing : Drawing) : (Table.ofList [("p", drawing)]).find? "p" = some drawing := rfl
  constructor
  · obtain ⟨drawing, layout, hdrawing, hlayout, -⟩ := compile_linked
    exact ⟨drawing, layout, hdrawing, hlayout,
      (single_tspan hdrawing (hpage drawing)).1 layout hlayout⟩
  · have hsome : (Drawing.ofMarkup nested).toOption.isSome = true := by decide +kernel
    obtain ⟨drawing, hdrawing⟩ := Option.isSome_iff_exists.1 hsome
    have hdrawing := toOption_eq_some_iff.1 hdrawing
    have hcount : (texts nested).map (tspansAmong isTspan) = [2] := by decide +kernel
    obtain ⟨inner, hinner, htwo⟩ := List.mem_map.1 (hcount ▸ List.mem_singleton_self 2)
    have hne : tspansAmong isTspan inner ≠ 1 := by omega
    have hfailure : ∃ failure, compile {} (.ofList [("p", drawing)]) = .error failure :=
      (single_tspan hdrawing (hpage drawing)).2 inner hinner hne
    obtain ⟨failure, hfailure⟩ := hfailure
    exact ⟨drawing, failure, hdrawing, hfailure⟩

end RenderLayout
