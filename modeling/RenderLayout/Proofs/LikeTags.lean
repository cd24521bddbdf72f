import RenderLayout.Proofs.Regions

/-!
Tags that are not told apart.

Of an element only some attributes are read; its local name tells which. Two tags of one name whose
attributes are the same as far as they are read can take the place of each other in a tree, wherever
they stand.
-/

namespace RenderLayout

open Markup

/-! ### Attributes -/

/-- The local names of the attributes that are read of an element. -/
def attributesRead : String → List String
  | "svg" => ["width", "height"]
  | "path-effect" => ["id", "radius"]
  | "rect" => ["x", "y", "width", "height", "style", "class", "path-effect"]
  | "circle" => ["cx", "cy", "r", "style", "class"]
  | "text" => ["x", "y", "style", "class"]
  | "tspan" => ["x", "y", "style"]
  | _ => []

/-- The attributes are the same as far as those of an element are read. -/
def SameRead (element : String) (attributes attributes' : Table String) : Prop :=
  ∀ key ∈ attributesRead element, attributes.find? key = attributes'.find? key

/-- Two tags of one name: the attributes of both are the same as far as they are read, or those of
neither can be read. -/
structure LikeTags (tag tag' : Tag) : Prop where
  name : tag.name = tag'.name
  attributes : Agree (SameRead tag.localName) tag.attributes tag'.attributes

variable {tag tag' : Tag} {attributes attributes' : Table String}

lemma numberAttribute_congr {key : String} (h : attributes.find? key = attributes'.find? key)
    (element : String) :
    numberAttribute element attributes key = numberAttribute element attributes' key := by
  unfold numberAttribute
  rw [h]

lemma textAttribute_congr {key : String} (h : attributes.find? key = attributes'.find? key) :
    textAttribute attributes key = textAttribute attributes' key := by
  unfold textAttribute
  rw [h]

lemma SameRead.rectOf (h : SameRead "rect" attributes attributes') (content : Content) :
    Shape.rectOf attributes content = Shape.rectOf attributes' content := by
  simp only [SameRead, attributesRead, List.forall_mem_cons] at h
  obtain ⟨hx, hy, hwidth, hheight, hstyle, hclass, heffect, -⟩ := h
  simp only [Shape.rectOf, numberAttribute_congr hx, numberAttribute_congr hy,
    numberAttribute_congr hwidth, numberAttribute_congr hheight, textAttribute_congr hstyle,
    textAttribute_congr hclass, textAttribute_congr heffect]

lemma SameRead.circleOf (h : SameRead "circle" attributes attributes') (content : Content) :
    Shape.circleOf attributes content = Shape.circleOf attributes' content := by
  simp only [SameRead, attributesRead, List.forall_mem_cons] at h
  obtain ⟨hcx, hcy, hr, hstyle, hclass, -⟩ := h
  simp only [Shape.circleOf, numberAttribute_congr hcx, numberAttribute_congr hcy,
    numberAttribute_congr hr, textAttribute_congr hstyle, textAttribute_congr hclass]

lemma SameRead.textOf (h : SameRead "text" attributes attributes') (content : Content) :
    Shape.textOf attributes content = Shape.textOf attributes' content := by
  simp only [SameRead, attributesRead, List.forall_mem_cons] at h
  obtain ⟨hx, hy, hstyle, hclass, -⟩ := h
  simp only [Shape.textOf, numberAttribute_congr hx, numberAttribute_congr hy,
    textAttribute_congr hstyle, textAttribute_congr hclass]

/-! ### Tags -/

namespace LikeTags

lemma localName (h : LikeTags tag tag') : tag.localName = tag'.localName := by
  unfold Tag.localName
  rw [h.name]

lemma passOver (h : LikeTags tag tag') (children : List Node) :
    passOver tag children = passOver tag' children := by
  unfold RenderLayout.passOver
  rw [h.localName, h.name]

/-- What follows the reading of the attributes, if it reads no others than those of the element. -/
lemma agree_bind {α : Type} (h : LikeTags tag tag') {read : Table String → Except PageFault α}
    (hread : ∀ attributes attributes', SameRead tag.localName attributes attributes' →
      read attributes = read attributes') :
    Agree Eq (attributesOf tag >>= read) (attributesOf tag' >>= read) := by
  have hattributes : Agree (SameRead tag.localName) (attributesOf tag) (attributesOf tag') := by
    exact h.attributes.mapError _
  refine hattributes.bind fun attributes attributes' hsame => ?_
  rw [hread attributes attributes' hsame]
  exact .self _

lemma agree_ofTag (h : LikeTags tag tag') (hsvg : tag.localName = "svg") :
    Agree Eq (Drawing.ofTag tag) (Drawing.ofTag tag') := by
  refine h.agree_bind fun attributes attributes' hsame => ?_
  simp only [hsvg, SameRead, attributesRead, List.forall_mem_cons] at hsame
  rw [numberAttribute_congr hsame.1, numberAttribute_congr hsame.2.1]

lemma agree_addPathEffect (h : LikeTags tag tag') (heffect : tag.localName = "path-effect")
    (drawing : Drawing) :
    Agree Eq (drawing.addPathEffect tag) (drawing.addPathEffect tag') := by
  refine h.agree_bind fun attributes attributes' hsame => ?_
  simp only [heffect, SameRead, attributesRead, List.forall_mem_cons] at hsame
  rw [hsame.1]
  simp only [numberAttribute_congr hsame.2.1]

lemma agree_ofSpanTag (h : LikeTags tag tag') (hspan : tag.localName = "tspan") :
    Agree Eq (Span.ofTag tag) (Span.ofTag tag') := by
  refine h.agree_bind fun attributes attributes' hsame => ?_
  simp only [hspan, SameRead, attributesRead, List.forall_mem_cons] at hsame
  simp only [numberAttribute_congr hsame.1, numberAttribute_congr hsame.2.1,
    textAttribute_congr hsame.2.2.1]

lemma agree_ofElement (h : LikeTags tag tag') (children : List Node) :
    Agree Eq (Shape.ofElement tag children) (Shape.ofElement tag' children) := by
  unfold Shape.ofElement
  rw [← h.localName]
  refine h.agree_bind fun attributes attributes' hsame => bind_congr fun content => ?_
  split
  case h_1 hname => exact (hname ▸ hsame).rectOf content
  case h_2 hname => exact (hname ▸ hsame).circleOf content
  case h_3 hname => exact (hname ▸ hsame).textOf content
  case h_4 => rfl

end LikeTags

/-! ### Nodes -/

/-- The same node with another tag that is not told apart from its own. -/
inductive Retagged : Node → Node → Prop
  | empty {tag tag' : Tag} (h : LikeTags tag tag') : Retagged (.empty tag) (.empty tag')
  | element {tag tag' : Tag} (h : LikeTags tag tag') (children : List Node) :
    Retagged (.element tag children) (.element tag' children)

namespace Retagged

variable {node node' : Node}

lemma agree_ofNodes (h : Retagged node node') (rest : List Node) :
    Agree Eq (Drawing.ofNodes (node :: rest)) (Drawing.ofNodes (node' :: rest)) := by
  cases h with
  | empty h =>
    rw [Drawing.ofNodes, Drawing.ofNodes, ← h.localName]
    split
    case isTrue hsvg => exact h.agree_ofTag hsvg
    case isFalse => exact .self _
  | element h children =>
    rw [Drawing.ofNodes, Drawing.ofNodes, ← h.localName]
    split
    case isTrue hsvg => exact (h.agree_ofTag hsvg).bind_eq fun drawing => .self _
    case isFalse => exact .self _

lemma agree_addNode (h : Retagged node node') (drawing : Drawing) :
    Agree Eq (drawing.addNode node) (drawing.addNode node') := by
  cases h with
  | empty h =>
    rw [Drawing.addNode, Drawing.addNode, h.localName]
    exact .self _
  | element h children =>
    rw [Drawing.addNode, Drawing.addNode, h.localName, h.passOver]
    exact .self _

lemma agree_addDefinition (h : Retagged node node') (drawing : Drawing) :
    Agree Eq (drawing.addDefinition node) (drawing.addDefinition node') := by
  cases h with
  | empty h =>
    rw [Drawing.addDefinition, Drawing.addDefinition, ← h.localName]
    split
    case isTrue heffect => exact h.agree_addPathEffect heffect drawing
    case isFalse => exact .self _
  | element h children =>
    rw [Drawing.addDefinition, Drawing.addDefinition, ← h.localName, h.passOver]
    split
    · exact .self _
    · dsimp only
      split
      case isTrue heffect => exact (h.agree_addPathEffect heffect drawing).bind_eq fun _ => .self _
      case isFalse => exact .self _

lemma agree_ofNode? (h : Retagged node node') :
    Agree Eq (Shape.ofNode? node) (Shape.ofNode? node') := by
  have htells {tag tag' : Tag} (h : LikeTags tag tag') :
      tellsAboutLayer tag = tellsAboutLayer tag' := by
    unfold tellsAboutLayer
    rw [h.localName]
  cases h with
  | empty h =>
    rw [Shape.ofNode?, Shape.ofNode?, htells h]
    split
    · exact .self _
    · exact (h.agree_ofElement []).map some
  | element h children =>
    rw [Shape.ofNode?, Shape.ofNode?, htells h, h.passOver]
    split
    · exact .self _
    · exact (h.agree_ofElement children).map some

lemma agree_addContent (h : Retagged node node') (content : Content) :
    Agree Eq (content.addNode node) (content.addNode node') := by
  cases h with
  | empty h =>
    rw [Content.addNode, Content.addNode, ← h.localName]
    split
    case isTrue hspan => exact (h.agree_ofSpanTag hspan).bind_eq fun span => .self _
    case isFalse => exact .self _
  | element h children =>
    rw [Content.addNode, Content.addNode, ← h.localName, h.passOver]
    split
    case isTrue hspan => exact (h.agree_ofSpanTag hspan).bind_eq fun span => .self _
    case isFalse => exact .self _

lemma agree_addSpanNode (h : Retagged node node') (span : Span) :
    Agree Eq (span.addNode node) (span.addNode node') := by
  cases h with
  | empty h =>
    rw [Span.addNode, Span.addNode, ← h.localName]
    split
    case isTrue hspan => exact (h.agree_ofSpanTag hspan).bind_eq fun inner => .self _
    case isFalse => exact .self _
  | element h children =>
    rw [Span.addNode, Span.addNode, ← h.localName, h.passOver]
    split
    case isTrue hspan => exact (h.agree_ofSpanTag hspan).bind_eq fun inner => .self _
    case isFalse => exact .self _

/-- In every region both nodes are read alike. -/
lemma alike (h : Retagged node node') (region : Region) : region.Alike [node] [node'] := by
  cases region with
  | document => exact h.agree_ofNodes
  | root => exact fun drawing => (h.agree_addNode drawing).bind_eq fun _ => .self _
  | definitions => exact fun drawing => (h.agree_addDefinition drawing).bind_eq fun _ => .self _
  | layer =>
    show Agree Eq (Layer.ofNodes _) (Layer.ofNodes _)
    unfold Layer.ofNodes
    rw [List.mapM_cons, List.mapM_cons]
    exact Agree.bind_eq (h.agree_ofNode?.bind_eq fun _ => .self _) fun _ => .self _
  | shape => exact fun content => (h.agree_addContent content).bind_eq fun _ => .self _
  | span => exact fun span => (h.agree_addSpanNode span).bind_eq fun _ => .self _
  | text => cases h <;> exact Agree.self _
  | skipped => cases h <;> rfl

end Retagged

/-! ### Events -/

/-- The same event with another tag that is not told apart from its own. -/
inductive RetaggedEvent : Event → Event → Prop
  | empty {tag tag' : Tag} (h : LikeTags tag tag') : RetaggedEvent (.empty tag) (.empty tag')
  | start {tag tag' : Tag} (h : LikeTags tag tag') : RetaggedEvent (.start tag) (.start tag')

/-- Events grow into trees that are decoded alike, if tags are not told apart. -/
lemma RetaggedEvent.agree_ofNodes_grow {event event' : Event} (h : RetaggedEvent event event')
    (opened : List OpenElement) (nodes : List Node) (ending ending' : Ending)
    (events : List Event) :
    Agree Eq (Drawing.ofNodes (grow ending opened nodes (event :: events)))
      (Drawing.ofNodes (grow ending' opened nodes (event' :: events))) := by
  have hending : Agree Eq (Drawing.ofNodes (grow ending opened nodes (event :: events)))
      (Drawing.ofNodes (grow ending' opened nodes (event :: events))) :=
    Region.agree_ofNodes_grow (.refl (Region.within opened nodes) []) ending ending' (event :: events)
  refine hending.trans ?_
  cases h with
  | @empty tag tag' h =>
    exact Region.agree_ofNodes_grow ((Retagged.empty h).alike _) ending' ending' events
  | @start tag tag' h =>
    -- what the events behind the tag grow into becomes the same children and the same siblings
    obtain ⟨children, outer, hgrow⟩ := Region.grow_eq_enclose ending' (opened.length + 1) events
    rw [grow, grow, hgrow _ _ (List.length_cons ..), hgrow _ _ (List.length_cons ..)]
    simpa [Region.enclose] using Region.agree_ofNodes_enclose
      ((Retagged.element h children).alike (Region.within opened nodes)) (outer.headD []) outer.tail

end RenderLayout
