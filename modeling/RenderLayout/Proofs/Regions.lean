import RenderLayout.Proofs.NodeLists
import RenderLayout.Proofs.Respelling

/-!
What markup is read for at a place.

The elements around a place decide what the nodes there are read for. Two lists of nodes that are
read alike in a region can take the place of each other there: whatever is before, behind and around
them, the same drawing is decoded, or none.
-/

namespace RenderLayout

open Markup

/-- What the nodes at a place are read for. -/
inductive Region where
  /-- Before the root. -/
  | document
  | root
  | definitions
  | layer
  | shape
  | span
  /-- All character data counts, at any depth. -/
  | text
  /-- Nothing counts but where the markup is cut off. -/
  | skipped
  deriving DecidableEq, Repr

namespace Region

/-- The region in an element of a region. -/
def inside : Region → Tag → Region
  | .document, tag => if tag.localName = "svg" then .root else .skipped
  | .root, tag =>
    if tag.localName = "defs" then .definitions
    else if tag.localName = "g" then .layer
    else .skipped
  | .definitions, tag => if tag.localName = "style" then .text else .skipped
  | .layer, tag => if tellsAboutLayer tag then .skipped else .shape
  | .shape, tag | .span, tag =>
    if tag.localName = "tspan" then .span
    else if tag.localName = "desc" then .text
    else .skipped
  | .text, _ => .text
  | .skipped, _ => .skipped

/-- The region behind a node: behind the root nothing counts. -/
def behind : Region → Node → Region
  | .document, .empty tag => if tag.localName = "svg" then .skipped else .document
  | .document, .element _ _ => .skipped
  | region, _ => region

/-- The region within open elements, behind nodes that stand backwards. -/
def within : List OpenElement → List Node → Region
  | [], nodes => nodes.reverse.foldl behind .document
  | (tag, before) :: outer, _ => (within outer before).inside tag

/-- Whether character data counts. -/
def readsText (region : Region) : Bool := region = .span || region = .text

/-- Both lists of nodes are read alike in the region. -/
def Alike : Region → List Node → List Node → Prop
  | .document, nodes, nodes' =>
    ∀ rest, Agree Eq (Drawing.ofNodes (nodes ++ rest)) (Drawing.ofNodes (nodes' ++ rest))
  | .root, nodes, nodes' =>
    ∀ drawing, Agree Eq (nodes.foldlM Drawing.addNode drawing)
      (nodes'.foldlM Drawing.addNode drawing)
  | .definitions, nodes, nodes' =>
    ∀ drawing, Agree Eq (nodes.foldlM Drawing.addDefinition drawing)
      (nodes'.foldlM Drawing.addDefinition drawing)
  | .layer, nodes, nodes' => Agree Eq (Layer.ofNodes nodes) (Layer.ofNodes nodes')
  | .shape, nodes, nodes' =>
    ∀ content, Agree Eq (nodes.foldlM Content.addNode content)
      (nodes'.foldlM Content.addNode content)
  | .span, nodes, nodes' => ∀ span : Span, Agree Eq (span.addNodes nodes) (span.addNodes nodes')
  | .text, nodes, nodes' => Agree Eq (textAmong nodes) (textAmong nodes')
  | .skipped, nodes, nodes' => (cutAmong? nodes).isSome = (cutAmong? nodes').isSome

end Region

namespace Region

variable {region : Region} {nodes nodes' : List Node}

/-! ### Reading alike -/

lemma Alike.refl (region : Region) (nodes : List Node) : region.Alike nodes nodes := by
  cases region with
  | skipped => rfl
  | layer | text => exact Agree.self _
  | _ => exact fun _ => Agree.self _

lemma Alike.symm (h : region.Alike nodes nodes') : region.Alike nodes' nodes := by
  cases region with
  | skipped => exact Eq.symm h
  | layer | text => exact Agree.symm h
  | _ => exact fun a => (h a).symm

lemma Alike.trans {nodes'' : List Node} (h : region.Alike nodes nodes')
    (h' : region.Alike nodes' nodes'') : region.Alike nodes nodes'' := by
  cases region with
  | skipped => exact Eq.trans h h'
  | layer | text => exact Agree.trans h h'
  | _ => exact fun a => (h a).trans (h' a)

/-- Nodes that are read alike are so between others. -/
lemma Alike.between (h : region.Alike nodes nodes') (before after : List Node) :
    region.Alike (before ++ nodes ++ after) (before ++ nodes' ++ after) := by
  cases region with
  | document =>
    intro rest
    simp only [List.append_assoc]
    exact Drawing.ofNodes_before (h (after ++ rest)) before
  | root => exact Agree.foldlM_between h before after
  | definitions => exact Agree.foldlM_between h before after
  | layer =>
    show Agree Eq (Layer.ofNodes _) (Layer.ofNodes _)
    simp only [Layer.ofNodes_append, bind_assoc, pure_bind]
    exact .step _ fun first => h.bind_eq fun shapes => .self _
  | shape => exact Agree.foldlM_between h before after
  | span =>
    intro span
    simp only [Span.addNodes_eq_foldlM]
    refine Agree.foldlM_between (fun span => ?_) before after span
    simpa only [Span.addNodes_eq_foldlM] using h span
  | text =>
    show Agree Eq (textAmong _) (textAmong _)
    simp only [textAmong_append, bind_assoc, pure_bind]
    exact .step _ fun first => h.bind_eq fun text => .self _
  | skipped =>
    show (cutAmong? _).isSome = (cutAmong? _).isSome
    have h : (cutAmong? nodes).isSome = (cutAmong? nodes').isSome := h
    simp only [cutAmong?_append, Option.isSome_or, h]

/-! ### Elements -/

lemma agree_passOver (tag : Tag) (h : skipped.Alike nodes nodes') :
    Agree Eq (passOver tag nodes) (passOver tag nodes') := by
  have h : (cutAmong? nodes).isSome = (cutAmong? nodes').isSome := h
  unfold passOver
  split <;> split <;> simp_all
  all_goals first | exact .ok rfl | exact .error _ _

lemma agree_ofElement (tag : Tag) (h : shape.Alike nodes nodes') :
    Agree Eq (Shape.ofElement tag nodes) (Shape.ofElement tag nodes') := by
  unfold Shape.ofElement Content.ofNodes
  refine .step _ fun attributes => ?_
  exact (h {}).bind_eq fun content => .self _

/-- In a span and in a shape alike, an element is one more span, or the description, or passed over. -/
lemma agree_within {σ : Type} {tag : Tag} (h : (span.inside tag).Alike nodes nodes')
    (addSpan : Span → σ) (describe : String → σ) (unchanged : σ) :
    let added (nodes : List Node) : Except PageFault σ :=
      if tag.localName = "tspan" then do
        let inner ← (← Span.ofTag tag).addNodes nodes
        return addSpan inner
      else if tag.localName = "desc" then return describe (← textAmong nodes)
      else do
        passOver tag nodes
        return unchanged
    Agree Eq (added nodes) (added nodes') := by
  intro added
  unfold added
  split
  case isTrue hspan =>
    rw [inside, if_pos hspan] at h
    refine .step _ fun span => ?_
    exact (h span).bind_eq fun inner => .self _
  case isFalse hspan =>
    rw [inside, if_neg hspan] at h
    split
    case isTrue hdesc =>
      rw [if_pos hdesc] at h
      exact Agree.bind_eq h fun description => .self _
    case isFalse hdesc =>
      rw [if_neg hdesc] at h
      exact (agree_passOver tag h).bind_eq fun _ => .self _

lemma agree_addSpanNode {tag : Tag} (h : (span.inside tag).Alike nodes nodes') (outer : Span) :
    Agree Eq (outer.addNode (.element tag nodes)) (outer.addNode (.element tag nodes')) := by
  rw [Span.addNode, Span.addNode]
  exact agree_within h (fun inner => { outer with spans := outer.spans ++ [inner] })
    (fun description => { outer with description }) outer

lemma agree_addContent {tag : Tag} (h : (shape.inside tag).Alike nodes nodes')
    (content : Content) :
    Agree Eq (content.addNode (.element tag nodes)) (content.addNode (.element tag nodes')) := by
  rw [Content.addNode, Content.addNode]
  exact agree_within h (fun span => { content with spans := content.spans ++ [span] })
    (fun description => { content with description }) content

lemma agree_ofNode? {tag : Tag} (h : (layer.inside tag).Alike nodes nodes') :
    Agree Eq (Shape.ofNode? (.element tag nodes)) (Shape.ofNode? (.element tag nodes')) := by
  rw [Shape.ofNode?, Shape.ofNode?]
  split
  case isTrue htells =>
    rw [inside, if_pos htells] at h
    exact (agree_passOver tag h).bind_eq fun _ => .self _
  case isFalse htells =>
    rw [inside, if_neg htells] at h
    exact (agree_ofElement tag h).bind_eq fun shape => .self _

lemma agree_addDefinition {tag : Tag} (h : (definitions.inside tag).Alike nodes nodes')
    (drawing : Drawing) :
    Agree Eq (drawing.addDefinition (.element tag nodes))
      (drawing.addDefinition (.element tag nodes')) := by
  rw [Drawing.addDefinition, Drawing.addDefinition]
  split
  case isTrue hstyle =>
    rw [inside, if_pos hstyle] at h
    exact Agree.bind_eq h fun sheet => .self _
  case isFalse hstyle =>
    rw [inside, if_neg hstyle] at h
    have hpass (drawing : Drawing) : Agree Eq (passOver tag nodes >>= fun _ => pure drawing)
        (passOver tag nodes' >>= fun _ => pure drawing) :=
      (agree_passOver tag h).bind_eq fun _ => .self _
    dsimp only
    split
    · exact .step _ hpass
    · exact .step _ hpass

lemma agree_addNode {tag : Tag} (h : (root.inside tag).Alike nodes nodes') (drawing : Drawing) :
    Agree Eq (drawing.addNode (.element tag nodes)) (drawing.addNode (.element tag nodes')) := by
  rw [Drawing.addNode, Drawing.addNode]
  split
  case isTrue hdefs =>
    rw [inside, if_pos hdefs] at h
    exact h drawing
  case isFalse hdefs =>
    rw [inside, if_neg hdefs] at h
    split
    case isTrue hg =>
      rw [if_pos hg] at h
      exact Agree.bind_eq h fun layer => .self _
    case isFalse hg =>
      rw [if_neg hg] at h
      exact (agree_passOver tag h).bind_eq fun _ => .self _

lemma agree_ofNodes {tag : Tag} (h : (document.inside tag).Alike nodes nodes')
    (rest : List Node) :
    Agree Eq (Drawing.ofNodes (.element tag nodes :: rest))
      (Drawing.ofNodes (.element tag nodes' :: rest)) := by
  rw [Drawing.ofNodes, Drawing.ofNodes]
  split
  case isTrue hsvg =>
    rw [inside, if_pos hsvg] at h
    exact .step _ h
  case isFalse => exact .error _ _

/-- An element is read alike if its nodes are, in the region that they are in. -/
lemma Alike.element {tag : Tag} (h : (region.inside tag).Alike nodes nodes') :
    region.Alike [.element tag nodes] [.element tag nodes'] := by
  cases region with
  | document => exact agree_ofNodes h
  | root => exact fun drawing => (agree_addNode h drawing).bind_eq fun _ => .self _
  | definitions => exact fun drawing => (agree_addDefinition h drawing).bind_eq fun _ => .self _
  | layer =>
    show Agree Eq (Layer.ofNodes _) (Layer.ofNodes _)
    unfold Layer.ofNodes
    rw [List.mapM_cons, List.mapM_cons]
    exact Agree.bind_eq ((agree_ofNode? h).bind_eq fun _ => .self _) fun _ => .self _
  | shape => exact fun content => (agree_addContent h content).bind_eq fun _ => .self _
  | span => exact fun span => (agree_addSpanNode h span).bind_eq fun _ => .self _
  | text =>
    show Agree Eq (textAmong _) (textAmong _)
    simp only [textAmong, textIn]
    exact Agree.bind_eq h fun _ => .self _
  | skipped =>
    have h : (cutAmong? nodes).isSome = (cutAmong? nodes').isSome := h
    show (cutAmong? _).isSome = (cutAmong? _).isSome
    simp only [cutAmong?, cutIn?, Option.orElse_eq_orElse, Option.orElse_eq_or, Option.or_none, h]

/-- Where markup is cut off, no drawing comes of it, whatever the fault is. -/
lemma alike_cut (region : Region) (ending ending' : Ending) :
    region.Alike [.cut ending] [.cut ending'] := by
  cases region with
  | document => exact fun rest => .error _ _
  | skipped => rfl
  | layer => exact Agree.error _ _
  | text => exact Agree.error _ _
  | span => exact fun span => Agree.error _ _
  | _ => exact fun _ => Agree.error _ _

/-! ### Nodes that say nothing -/

/-- Whether an element in the region is passed over whole. -/
def passesOver : Region → Tag → Bool
  | .root, tag => tag.localName ≠ "defs" && tag.localName ≠ "g"
  | .layer, tag => tellsAboutLayer tag
  | _, _ => false

lemma Alike.append_nil (h : region.Alike nodes []) (h' : region.Alike nodes' []) :
    region.Alike (nodes ++ nodes') [] := by
  have hleft := h.between [] nodes'
  rw [List.nil_append, List.nil_append] at hleft
  exact hleft.trans h'

lemma alike_aside (region : Region) : region.Alike [.aside] [] := by
  cases region with
  | document => exact fun rest => .self _
  | skipped => rfl
  | layer => exact Agree.ok rfl
  | text => exact Agree.ok rfl
  | span => exact fun span => Agree.ok rfl
  | _ => exact fun _ => Agree.ok rfl

lemma alike_text (h : region.readsText = false) (raw : String) :
    region.Alike [.text raw] [] := by
  cases region with
  | document => exact fun rest => .self _
  | skipped => rfl
  | layer => exact Agree.ok rfl
  | text => cases h
  | span => cases h
  | _ => exact fun _ => Agree.ok rfl

lemma alike_empty {tag : Tag} (h : region.passesOver tag = true) :
    region.Alike [.empty tag] [] := by
  cases region with
  | root =>
    intro drawing
    simp only [passesOver, Bool.and_eq_true, decide_eq_true_eq] at h
    rw [List.foldlM_cons, Drawing.addNode, if_neg h.2]
    exact .self _
  | layer =>
    have htells : tellsAboutLayer tag = true := h
    show Agree Eq (Layer.ofNodes _) (Layer.ofNodes _)
    unfold Layer.ofNodes
    rw [List.mapM_cons, Shape.ofNode?, if_pos htells]
    exact .self _
  | _ => cases h

lemma alike_element {tag : Tag} (h : region.passesOver tag = true)
    (hnodes : cutAmong? nodes = none) : region.Alike [.element tag nodes] [] := by
  have hpass : passOver tag nodes = .ok () := by rw [passOver, hnodes]
  cases region with
  | root =>
    intro drawing
    simp only [passesOver, Bool.and_eq_true, decide_eq_true_eq] at h
    rw [List.foldlM_cons, Drawing.addNode, if_neg h.1, if_neg h.2, hpass]
    exact .self _
  | layer =>
    have htells : tellsAboutLayer tag = true := h
    show Agree Eq (Layer.ofNodes _) (Layer.ofNodes _)
    unfold Layer.ofNodes
    rw [List.mapM_cons, Shape.ofNode?, if_pos htells, hpass]
    exact .self _
  | _ => cases h

/-! ### Places in a tree -/

/-- The nodes of a tree that has nodes within open elements, with those that come behind at each
level, the innermost first. -/
def enclose : List OpenElement → List (List Node) → List Node → List Node
  | [], _, nodes => nodes
  | (tag, before) :: outer, behind, nodes =>
    enclose outer behind.tail (before.reverse ++ .element tag nodes :: behind.headD [])

lemma closeAll_eq_enclose (nodes : List Node) (opened : List OpenElement) :
    closeAll nodes opened = enclose opened [] nodes.reverse := by
  induction opened generalizing nodes with
  | nil => rfl
  | cons e outer ih =>
    obtain ⟨tag, before⟩ := e
    rw [closeAll, ih, enclose, List.reverse_cons]
    rfl

/-- What events grow into behind a place does not depend on the nodes before it, nor on the tags
around it, but only on how many they are. -/
lemma grow_eq_enclose (ending : Ending) (depth : Nat) (events : List Event) :
    ∃ behind outer, ∀ opened nodes, opened.length = depth →
      grow ending opened nodes events = enclose opened outer (nodes.reverse ++ behind) := by
  induction events generalizing depth with
  | nil =>
    refine ⟨[.cut ending], [], fun opened nodes _ => ?_⟩
    rw [grow, closeAll_eq_enclose, List.reverse_cons]
  | cons event events ih =>
    have hpush (node : Node) : ∃ behind outer, ∀ opened nodes, opened.length = depth →
        grow ending opened (node :: nodes) events =
          enclose opened outer (nodes.reverse ++ behind) := by
      obtain ⟨behind, outer, h⟩ := ih depth
      refine ⟨node :: behind, outer, fun opened nodes hdepth => ?_⟩
      rw [h opened _ hdepth, List.reverse_cons, List.append_assoc]
      rfl
    cases event with
    | text raw => exact hpush (.text raw)
    | literal raw => exact hpush (.literal raw)
    | empty tag => exact hpush (.empty tag)
    | aside => exact hpush .aside
    | start tag =>
      obtain ⟨behind, outer, h⟩ := ih (depth + 1)
      refine ⟨.element tag behind :: outer.headD [], outer.tail, fun opened nodes hdepth => ?_⟩
      rw [grow, h _ _ (by rw [List.length_cons, hdepth]), enclose, List.reverse_nil,
        List.nil_append]
    | close =>
      cases depth with
      | zero =>
        obtain ⟨behind, outer, h⟩ := ih 0
        refine ⟨behind, outer, fun opened nodes hdepth => ?_⟩
        obtain rfl := List.length_eq_zero_iff.1 hdepth
        exact h [] nodes rfl
      | succ depth =>
        obtain ⟨behind, outer, h⟩ := ih depth
        refine ⟨[], behind :: outer, fun opened nodes hdepth => ?_⟩
        obtain ⟨⟨tag, before⟩, opened, rfl⟩ := List.exists_cons_of_length_eq_add_one hdepth
        rw [grow, h _ _ (Nat.succ.inj hdepth), enclose, List.reverse_cons, List.append_assoc,
          List.append_nil]
        rfl

/-- Before the root, nodes may take the place of others if they are read alike; behind it any may. -/
lemma agree_ofNodes_behind {before : List Node}
    (h : (before.foldl behind .document).Alike nodes nodes') (rest : List Node) :
    Agree Eq (Drawing.ofNodes (before ++ nodes ++ rest))
      (Drawing.ofNodes (before ++ nodes' ++ rest)) := by
  induction before with
  | nil => exact h rest
  | cons node before ih =>
    rw [List.foldl_cons] at h
    cases node with
    | text raw => exact ih h
    | literal raw => exact ih h
    | aside => exact ih h
    | empty tag =>
      simp only [List.cons_append, Drawing.ofNodes]
      rw [behind] at h
      split
      · exact .self _
      case isFalse hsvg =>
        rw [if_neg hsvg] at h
        exact ih h
    | element tag children => exact .self _
    | cut ending => exact .error _ _

/-- Nodes that are read alike may take the place of each other in a tree. -/
lemma agree_ofNodes_enclose {opened : List OpenElement} {before : List Node}
    (h : (within opened before).Alike nodes nodes') (behind : List Node)
    (outer : List (List Node)) :
    Agree Eq (Drawing.ofNodes (enclose opened outer (before.reverse ++ nodes ++ behind)))
      (Drawing.ofNodes (enclose opened outer (before.reverse ++ nodes' ++ behind))) := by
  induction opened generalizing before nodes nodes' behind outer with
  | nil => exact agree_ofNodes_behind h behind
  | cons e opened ih =>
    obtain ⟨tag, earlier⟩ := e
    have helement := Alike.element (h.between before.reverse behind)
    simpa [enclose] using ih helement (outer.headD []) outer.tail

/-- The same events grow into trees that are read alike, behind nodes that are, whatever they end
with. -/
lemma agree_ofNodes_grow {opened : List OpenElement} {before : List Node}
    (h : (within opened before).Alike nodes nodes') (ending ending' : Ending)
    (events : List Event) :
    Agree Eq (Drawing.ofNodes (grow ending opened (nodes.reverse ++ before) events))
      (Drawing.ofNodes (grow ending' opened (nodes'.reverse ++ before) events)) := by
  obtain ⟨behind, outer, hgrow⟩ := grow_eq_enclose ending opened.length events
  have hnodes := agree_ofNodes_enclose h behind outer
  -- the end of the events is one more place in the tree
  have hending := grow_append ending opened (nodes'.reverse ++ before) events []
  have hending' := grow_append ending' opened (nodes'.reverse ++ before) events []
  rw [List.append_nil, grow, closeAll_eq_enclose, List.reverse_cons] at hending hending'
  have hcut := agree_ofNodes_enclose
    (alike_cut (within (standing opened (nodes'.reverse ++ before) events).1
      (standing opened (nodes'.reverse ++ before) events).2) ending ending') [] []
  rw [List.append_nil, List.append_nil, ← hending, ← hending'] at hcut
  refine Agree.trans ?_ hcut
  rw [hgrow _ _ rfl, hgrow _ _ rfl]
  simpa using hnodes

end Region

end RenderLayout
