import RenderLayout.Drawing.Decode
import RenderLayout.Proofs.BareDrawing
import RenderLayout.Proofs.Respelling

/-!
Empty elements are decoded alike in both spellings, where the spelling is allowed.

Each reader of nodes agrees on respelled nodes: both readings fail, or they give the same but for
what no layout shows. So the two texts of an empty element make the same layouts.
-/

namespace RenderLayout

open Markup

/-! ### Texts and elements that are passed over -/

mutual

lemma textIn_respelled {site : Site} {node node' : Node} (h : Respelled site node node') :
    Agree Eq (textIn node) (textIn node') := by
  cases h with
  | text raw => exact .refl (fun _ => rfl) _
  | literal raw => exact .ok rfl
  | aside => exact .ok rfl
  | empty tag => exact .ok rfl
  | spelled h => exact .ok rfl
  | element h =>
    rw [textIn, textIn]
    exact textAmong_respelled h
  | cut ending ending' => exact .error _ _

lemma textAmong_respelled {site : Site} {nodes nodes' : List Node}
    (h : RespelledAmong site nodes nodes') : Agree Eq (textAmong nodes) (textAmong nodes') := by
  cases h with
  | nil => exact .ok rfl
  | cons head tail =>
    rw [textAmong, textAmong]
    refine (textIn_respelled head).bind_eq fun first => ?_
    refine (textAmong_respelled tail).bind_eq fun others => ?_
    exact .ok rfl

end

mutual

lemma cutIn?_respelled {site : Site} {node node' : Node} (h : Respelled site node node') :
    (cutIn? node).isSome = (cutIn? node').isSome := by
  cases h with
  | element h =>
    rw [cutIn?, cutIn?]
    exact cutAmong?_respelled h
  | _ => rfl

lemma cutAmong?_respelled {site : Site} {nodes nodes' : List Node}
    (h : RespelledAmong site nodes nodes') :
    (cutAmong? nodes).isSome = (cutAmong? nodes').isSome := by
  cases h with
  | nil => rfl
  | cons head tail =>
    simp only [cutAmong?, Option.orElse_eq_orElse, Option.orElse_eq_or, Option.isSome_or,
      cutIn?_respelled head, cutAmong?_respelled tail]

end

lemma passOver_respelled {site : Site} {nodes nodes' : List Node}
    (h : RespelledAmong site nodes nodes') (tag : Tag) :
    Agree Eq (passOver tag nodes) (passOver tag nodes') := by
  have hcut := cutAmong?_respelled h
  unfold passOver
  split <;> split <;> simp_all
  all_goals first | exact .ok rfl | exact .error _ _

/-! ### Spans -/

namespace Span

lemma bare_eq_iff {span span' : Span} : span.bare = span'.bare ↔
    span.x = span'.x ∧ span.y = span'.y ∧ span.style = span'.style ∧ span.text = span'.text ∧
      span.spans.map bare = span'.spans.map bare := by
  obtain ⟨x, y, style, text, description, spans⟩ := span
  obtain ⟨x', y', style', text', description', spans'⟩ := span'
  simp [bare, bareAll_eq_map]

/-- Spans that are bare alike stay so when both are given the same text behind theirs. -/
lemma bare_addText {span span' : Span} (h : span.bare = span'.bare) (text : String) :
    { span with text := span.text ++ text : Span }.bare =
      { span' with text := span'.text ++ text : Span }.bare := by
  rw [bare_eq_iff] at h ⊢
  simp_all

lemma bare_addSpan {span span' inner inner' : Span} (h : span.bare = span'.bare)
    (hinner : inner.bare = inner'.bare) :
    { span with spans := span.spans ++ [inner] : Span }.bare =
      { span' with spans := span'.spans ++ [inner'] : Span }.bare := by
  rw [bare_eq_iff] at h ⊢
  simp_all

lemma bare_describe (span : Span) (description : String) :
    { span with description := description : Span }.bare = span.bare := by
  cases span
  rfl

mutual

lemma addNode_respelled {site : Site} {node node' : Node} (h : Respelled site node node')
    {span span' : Span} (hspan : span.bare = span'.bare) :
    Agree (fun a b => a.bare = b.bare) (span.addNode node) (span'.addNode node') := by
  cases h with
  | text raw =>
    rw [addNode, addNode]
    refine .step (unescapeText raw) fun text => ?_
    exact .ok (bare_addText hspan text)
  | literal raw => exact .ok (bare_addText hspan raw)
  | aside => exact .ok hspan
  | empty tag =>
    rw [addNode, addNode]
    split
    · refine .step (ofTag tag) fun inner => ?_
      exact .ok (bare_addSpan hspan rfl)
    · exact .ok hspan
  | spelled h =>
    rw [addNode, addNode]
    split
    · refine .step (ofTag _) fun inner => ?_
      exact .ok (bare_addSpan hspan rfl)
    · split
      · exact .ok (hspan.trans (bare_describe span' "").symm)
      · exact .ok hspan
  | element h =>
    rw [addNode, addNode]
    split
    · refine .step (ofTag _) fun inner => ?_
      refine (addNodes_respelled h rfl).bind fun inner inner' hinner => ?_
      exact .ok (bare_addSpan hspan hinner)
    · split
      · refine (textAmong_respelled h).bind_eq fun description => ?_
        exact .ok (by rw [bare_describe, bare_describe, hspan])
      · refine (passOver_respelled h _).bind_eq fun _ => ?_
        exact .ok hspan
  | cut ending ending' => exact .error _ _

lemma addNodes_respelled {site : Site} {nodes nodes' : List Node}
    (h : RespelledAmong site nodes nodes') {span span' : Span} (hspan : span.bare = span'.bare) :
    Agree (fun a b => a.bare = b.bare) (span.addNodes nodes) (span'.addNodes nodes') := by
  cases h with
  | nil => exact .ok hspan
  | cons head tail =>
    rw [addNodes, addNodes]
    exact (addNode_respelled head hspan).bind fun _ _ hspan => addNodes_respelled tail hspan

end

end Span

/-! ### Shapes -/

/-- What two shapes take from the nodes within them so far: the same description, which is still
empty unless an element `desc` has been met, and spans that are bare alike. -/
structure Content.Like (described : Bool) (content content' : Content) : Prop where
  description : content.description = content'.description
  fresh : described = false → content.description = ""
  spans : content.spans.map Span.bare = content'.spans.map Span.bare

namespace Content

variable {site : Site} {content content' : Content}

lemma Like.addSpan {described : Bool} (h : Like described content content') {span span' : Span}
    (hspan : span.bare = span'.bare) :
    Like described { content with spans := content.spans ++ [span] }
      { content' with spans := content'.spans ++ [span'] } where
  description := h.description
  fresh := h.fresh
  spans := by simp [h.spans, hspan]

/-- Once a description has been read, what was before it does not matter. -/
lemma Like.describe {described : Bool} (h : Like described content content')
    (description : String) :
    Like true { content with description := description }
      { content' with description := description } :=
  ⟨rfl, nofun, h.spans⟩

lemma Like.meet {described : Bool} (h : Like described content content') (met : Bool) :
    Like (described || met) content content' :=
  ⟨h.description, fun hnot => h.fresh (Bool.or_eq_false_iff.1 hnot).1, h.spans⟩

lemma addNode_respelled (hshape : site.inShape = true) {node node' : Node}
    (h : Respelled site node node') (hlike : Like site.described content content') :
    Agree (Like (site.behind node).described) (content.addNode node) (content'.addNode node') := by
  cases h with
  | text raw => exact .ok hlike
  | literal raw => exact .ok hlike
  | aside => exact .ok hlike
  | empty tag =>
    rw [addNode, addNode]
    split
    · refine .step (Span.ofTag tag) fun span => ?_
      exact .ok (hlike.addSpan rfl)
    · exact .ok hlike
  | @spelled _ tag hallows =>
    rw [addNode, addNode]
    split
    · refine .step (Span.ofTag tag) fun span => ?_
      exact .ok (hlike.addSpan rfl)
    · split
      case isTrue hdesc =>
        -- both descriptions are still empty, as the site allows no second `desc`
        have hnot : site.described = false := by
          by_contra hmet
          exact hallows.description hshape (by simpa using hmet) hdesc
        refine .ok ⟨hlike.fresh hnot, fun _ => hlike.fresh hnot, hlike.spans⟩
      case isFalse => exact .ok hlike
  | @element _ tag children children' h =>
    rw [addNode, addNode]
    split
    · refine .step (Span.ofTag tag) fun span => ?_
      refine (Span.addNodes_respelled h rfl).bind fun span span' hspan => ?_
      exact .ok ((hlike.addSpan hspan).meet _)
    · split
      case isTrue hdesc =>
        refine (textAmong_respelled h).bind_eq fun description => ?_
        refine .ok ?_
        simp only [Site.behind, hdesc, decide_true, Bool.or_true]
        exact hlike.describe _
      case isFalse =>
        refine (passOver_respelled h tag).bind_eq fun _ => ?_
        exact .ok (hlike.meet _)
  | cut ending ending' => exact .error _ _

lemma foldlM_respelled (hshape : site.inShape = true) {nodes nodes' : List Node}
    (h : RespelledAmong site nodes nodes') (hlike : Like site.described content content') :
    Agree (Like true) (nodes.foldlM addNode content) (nodes'.foldlM addNode content') := by
  induction nodes generalizing site nodes' content content' with
  | nil =>
    cases h
    exact .ok ⟨hlike.description, nofun, hlike.spans⟩
  | cons node nodes ih =>
    cases h with
    | cons head tail =>
      rw [List.foldlM_cons, List.foldlM_cons]
      exact (addNode_respelled hshape head hlike).bind fun _ _ hlike =>
        ih ((site.inShape_behind node).trans hshape) tail hlike

/-- Nothing has been taken before the first node. -/
lemma ofNodes_respelled (hshape : site.inShape = true)
    {nodes nodes' : List Node} (h : RespelledAmong site nodes nodes') :
    Agree (Like true) (ofNodes nodes) (ofNodes nodes') :=
  foldlM_respelled hshape h ⟨rfl, fun _ => rfl, rfl⟩

end Content

namespace Shape

lemma ofElement_of_not_mem {tag : Tag} (h : tag.localName ∉ shapeNames) (children : List Node) :
    ∃ fault, ofElement tag children = .error fault := by
  unfold ofElement
  cases attributesOf tag with
  | error fault => exact ⟨fault, rfl⟩
  | ok attributes =>
    cases Content.ofNodes children with
    | error fault => exact ⟨fault, rfl⟩
    | ok content =>
      simp only [shapeNames, List.mem_cons, List.not_mem_nil, or_false, not_or] at h
      refine ⟨.markup (.unsupported tag.localName), ?_⟩
      simp only [ok_bind]
      split
      case h_1 hname => exact absurd hname h.1
      case h_2 hname => exact absurd hname h.2.1
      case h_3 hname => exact absurd hname h.2.2
      case h_4 => rfl

lemma ofElement_respelled {tag : Tag} {children children' : List Node}
    (h : RespelledAmong { path := [tag.localName, "g", "svg"] } children children') :
    Agree (fun a b => a.bare = b.bare) (ofElement tag children) (ofElement tag children') := by
  by_cases hname : tag.localName ∈ shapeNames
  case neg =>
    obtain ⟨fault, hleft⟩ := ofElement_of_not_mem hname children
    obtain ⟨fault', hright⟩ := ofElement_of_not_mem hname children'
    rw [hleft, hright]
    exact .error fault fault'
  have hshape : ({ path := [tag.localName, "g", "svg"] } : Site).inShape = true := by
    simpa [Site.inShape] using hname
  unfold ofElement
  refine .step (attributesOf tag) fun attributes => ?_
  refine (Content.ofNodes_respelled hshape h).bind fun content content' hlike => ?_
  obtain ⟨description, spans⟩ := content
  obtain ⟨description', spans'⟩ := content'
  obtain rfl : description = description' := hlike.description
  have hspans : spans.map Span.bare = spans'.map Span.bare := hlike.spans
  split
  · exact .same bare (rectOf attributes { description })
  · exact .same bare (circleOf attributes { description })
  · unfold textOf
    refine .step (numberAttribute "text" attributes "x") fun x => ?_
    refine .step (numberAttribute "text" attributes "y") fun y => ?_
    exact .ok (by simp only [bare, TextBox.bare, hspans])
  · exact .error _ _

lemma ofNode?_respelled {site : Site} (hpath : site.path = ["g", "svg"]) {node node' : Node}
    (h : Respelled site node node') :
    Agree (fun a b => a.map bare = b.map bare) (ofNode? node) (ofNode? node') := by
  cases h with
  | text raw => exact .ok rfl
  | literal raw => exact .ok rfl
  | aside => exact .ok rfl
  | empty tag => exact .same (Option.map bare) _
  | spelled h =>
    rw [ofNode?, ofNode?]
    split
    · exact .ok rfl
    · exact .same (Option.map bare) _
  | element h =>
    rw [ofNode?, ofNode?]
    split
    · refine (passOver_respelled h _).bind_eq fun _ => ?_
      exact .ok rfl
    · rw [Site.inside, hpath] at h
      exact (ofElement_respelled h).bind fun a b hbare => .ok (congrArg some hbare)
  | cut ending ending' => exact .error _ _

end Shape

lemma Layer.ofNodes_respelled {nodes nodes' : List Node}
    (h : RespelledAmong { path := ["g", "svg"] } nodes nodes') :
    Agree (fun a b => a.map Shape.bare = b.map Shape.bare) (Layer.ofNodes nodes)
      (Layer.ofNodes nodes') := by
  unfold ofNodes
  have hshapes := h.forall₂.imp fun _ _ hnode =>
    hnode.elim fun _ hnode => Shape.ofNode?_respelled hnode.1 hnode.2
  refine (Agree.mapM hshapes).bind fun shapes shapes' hshapes => ?_
  refine .ok ?_
  induction hshapes with
  | nil => rfl
  | @cons a b _ _ hbare _ ih => cases a <;> cases b <;> simp_all

/-! ### Drawings -/

namespace Drawing

lemma bare_eq_iff {drawing drawing' : Drawing} : drawing.bare = drawing'.bare ↔
    drawing.canvas = drawing'.canvas ∧
      drawing.sheets.filter (· ≠ "") = drawing'.sheets.filter (· ≠ "") ∧
      drawing.pathEffects = drawing'.pathEffects ∧
      drawing.layers.map (·.map Shape.bare) = drawing'.layers.map (·.map Shape.bare) := by
  simp only [bare, mk.injEq]

lemma bare_addSheet {drawing drawing' : Drawing} (h : drawing.bare = drawing'.bare)
    (sheet : String) :
    { drawing with sheets := drawing.sheets ++ [sheet] : Drawing }.bare =
      { drawing' with sheets := drawing'.sheets ++ [sheet] : Drawing }.bare := by
  rw [bare_eq_iff] at h ⊢
  simp only [List.filter_append]
  exact ⟨h.1, congrArg (· ++ _) h.2.1, h.2.2⟩

lemma bare_addEmptySheet (drawing : Drawing) :
    { drawing with sheets := drawing.sheets ++ [""] : Drawing }.bare = drawing.bare := by
  simp [bare]

lemma bare_addLayer {drawing drawing' : Drawing} (h : drawing.bare = drawing'.bare)
    {layer layer' : Layer} (hlayer : layer.map Shape.bare = layer'.map Shape.bare) :
    { drawing with layers := drawing.layers ++ [layer] : Drawing }.bare =
      { drawing' with layers := drawing'.layers ++ [layer'] : Drawing }.bare := by
  rw [bare_eq_iff] at h ⊢
  simp only [List.map_append, List.map_singleton, hlayer, h, and_self]

lemma addPathEffect_bare {drawing drawing' : Drawing} (h : drawing.bare = drawing'.bare)
    (tag : Tag) :
    Agree (fun a b => a.bare = b.bare) (drawing.addPathEffect tag)
      (drawing'.addPathEffect tag) := by
  unfold addPathEffect
  refine .step (attributesOf tag) fun attributes => ?_
  split
  · exact .ok h
  · refine .step (numberAttribute "path-effect" attributes "radius") fun radius => ?_
    rw [bare_eq_iff] at h
    refine .ok (bare_eq_iff.2 ⟨h.1, h.2.1, ?_, h.2.2.2⟩)
    dsimp only
    rw [h.2.2.1]

lemma addDefinition_respelled {site : Site} {node node' : Node} (h : Respelled site node node')
    {drawing drawing' : Drawing} (hbare : drawing.bare = drawing'.bare) :
    Agree (fun a b => a.bare = b.bare) (drawing.addDefinition node)
      (drawing'.addDefinition node') := by
  cases h with
  | text raw => exact .ok hbare
  | literal raw => exact .ok hbare
  | aside => exact .ok hbare
  | empty tag =>
    rw [addDefinition, addDefinition]
    split
    · exact addPathEffect_bare hbare tag
    · exact .ok hbare
  | @spelled _ tag h =>
    rw [addDefinition, addDefinition]
    by_cases hstyle : tag.localName = "style"
    · rw [if_neg (by rw [hstyle]; decide), if_pos hstyle]
      exact .ok (hbare.trans (bare_addEmptySheet drawing').symm)
    · rw [if_neg hstyle]
      split
      · rw [← bind_pure (addPathEffect drawing tag)]
        exact (addPathEffect_bare hbare tag).bind fun _ _ hbare => .ok hbare
      · exact .ok hbare
  | @element _ tag children children' h =>
    rw [addDefinition, addDefinition]
    split
    · refine (textAmong_respelled h).bind_eq fun sheet => ?_
      exact .ok (bare_addSheet hbare sheet)
    · have hpass : ∀ drawing drawing' : Drawing, drawing.bare = drawing'.bare →
          Agree (fun a b => a.bare = b.bare) (passOver tag children >>= fun _ => .ok drawing)
            (passOver tag children' >>= fun _ => .ok drawing') := fun _ _ hbare =>
        (passOver_respelled h tag).bind fun _ _ _ => .ok hbare
      dsimp only
      split
      · exact (addPathEffect_bare hbare tag).bind hpass
      · exact hpass drawing drawing' hbare
  | cut ending ending' => exact .error _ _

lemma addNode_respelled {site : Site} (hpath : site.path = ["svg"]) {node node' : Node}
    (h : Respelled site node node') {drawing drawing' : Drawing}
    (hbare : drawing.bare = drawing'.bare) :
    Agree (fun a b => a.bare = b.bare) (drawing.addNode node) (drawing'.addNode node') := by
  cases h with
  | text raw => exact .ok hbare
  | literal raw => exact .ok hbare
  | aside => exact .ok hbare
  | empty tag =>
    rw [addNode, addNode]
    split
    · exact .ok (bare_addLayer hbare rfl)
    · exact .ok hbare
  | @spelled _ tag h =>
    rw [addNode, addNode]
    by_cases hdefs : tag.localName = "defs"
    · rw [if_neg (by rw [hdefs]; decide), if_pos hdefs]
      exact .ok hbare
    · rw [if_neg hdefs]
      split
      · exact .ok (bare_addLayer hbare rfl)
      · exact .ok hbare
  | @element _ tag _ _ h =>
    rw [addNode, addNode]
    split
    · refine Agree.foldlM (h.forall₂.imp ?_) hbare
      rintro _ _ ⟨_, -, hnode⟩ _ _
      exact addDefinition_respelled hnode
    · split
      case isTrue hg =>
        rw [Site.inside, hg, hpath] at h
        exact (Layer.ofNodes_respelled h).bind fun _ _ hlayer => .ok (bare_addLayer hbare hlayer)
      case isFalse =>
        refine (passOver_respelled h tag).bind_eq fun _ => ?_
        exact .ok hbare
  | cut ending ending' => exact .error _ _

/-- The root has to be an `svg`, and what is in it is decoded alike. -/
lemma ofNodes_respelled {site : Site} (hpath : site.path = []) (hroot : site.rooted = false)
    {nodes nodes' : List Node}
    (h : RespelledAmong site nodes nodes') :
    Agree (fun a b => a.bare = b.bare) (ofNodes nodes) (ofNodes nodes') := by
  induction nodes generalizing site nodes' with
  | nil =>
    cases h
    exact .error _ _
  | cons node nodes ih =>
    cases h with
    | @cons _ _ _ _ others head tail =>
      have hbehind : (site.behind node).path = [] := (site.path_behind node).trans hpath
      cases head with
      | text _ | literal _ | aside =>
        show Agree _ (ofNodes nodes) (ofNodes others)
        exact ih hbehind hroot tail
      | empty tag =>
        rw [ofNodes, ofNodes]
        split
        case isTrue => exact .same bare _
        case isFalse hname => exact ih hbehind (by simp [Site.behind, hroot, hname]) tail
      | @spelled _ tag hallows =>
        rw [ofNodes, ofNodes, if_pos (hallows.root hpath hroot), if_pos (hallows.root hpath hroot)]
        show Agree _ (ofTag tag) (ofTag tag >>= pure)
        rw [bind_pure]
        exact .same bare _
      | @element _ tag children children' h =>
        rw [ofNodes, ofNodes]
        split
        case isTrue hsvg =>
          rw [Site.inside, hpath, hsvg] at h
          refine .step (ofTag tag) fun drawing => ?_
          refine Agree.foldlM (h.forall₂.imp ?_) rfl
          rintro _ _ ⟨_, hpath, hnode⟩ _ _
          exact addNode_respelled hpath hnode
        case isFalse => exact .error _ _
      | cut ending ending' => exact .error _ _

end Drawing

/-- Both texts of an empty element fail to decode, or the two drawings make the same layout among
any others, or both none. -/
def Markup.EmptyElement.MeansSame (e : EmptyElement) : Prop :=
  ((∃ fault, Drawing.ofMarkup e.selfClosing = .error fault) ∧
      ∃ fault, Drawing.ofMarkup e.endTagged = .error fault) ∨
    ∃ drawing drawing', Drawing.ofMarkup e.selfClosing = .ok drawing ∧
      Drawing.ofMarkup e.endTagged = .ok drawing' ∧
      ∀ canvas page (others : Table Drawing), compile canvas (others.insert page drawing) =
        compile canvas (others.insert page drawing')

/-- **Both spellings of an empty element mean the same**, where they are allowed. -/
theorem Markup.EmptyElement.meansSame_of_allows (e : EmptyElement) (h : e.site.Allows e.tag) :
    e.MeansSame := by
  have hagree := Drawing.ofNodes_respelled rfl rfl (e.nodes_respelled h)
  unfold MeansSame Drawing.ofMarkup
  generalize Drawing.ofNodes (nodes e.selfClosing) = left at hagree ⊢
  generalize Drawing.ofNodes (nodes e.endTagged) = right at hagree ⊢
  cases hagree with
  | ok hbare => exact Or.inr ⟨_, _, rfl, rfl, compile_insert_of_bare hbare⟩
  | error fault fault' => exact Or.inl ⟨⟨fault, rfl⟩, ⟨fault', rfl⟩⟩

/-- A rectangle whose only description is empty. -/
def emptyDescription : EmptyElement where
  before := "<svg width=\"1024\" height=\"613\"><defs/><g><rect>"
  content := "desc"
  after := "</rect></g></svg>"

theorem meansSame_emptyDescription :
    emptyDescription.site.Allows emptyDescription.tag ∧
      (Drawing.ofMarkup emptyDescription.selfClosing).toOption.isSome = true ∧
      emptyDescription.MeansSame :=
  ⟨by decide +kernel, by decide +kernel,
    emptyDescription.meansSame_of_allows (by decide +kernel)⟩

/-- The text of the layout whose only page has a markup. -/
def textOfMarkup? (markup : String) : Option String := do
  let drawing ← (Drawing.ofMarkup markup).toOption
  let layout ← (compile {} (Table.empty.insert "p" drawing)).toOption
  return layout.text

lemma textOfMarkup?_eq (e : EmptyElement) (h : e.MeansSame) :
    textOfMarkup? e.selfClosing = textOfMarkup? e.endTagged := by
  unfold textOfMarkup?
  rcases h with ⟨⟨_, hleft⟩, ⟨_, hright⟩⟩ | ⟨drawing, drawing', hleft, hright, hsame⟩
  · rw [hleft, hright]
    rfl
  · rw [hleft, hright]
    simp only [Except.toOption, Option.bind_eq_bind, Option.bind_some, hsame]

/-- A rectangle with an empty description behind one that is not. -/
def secondDescription : EmptyElement where
  before := "<svg width=\"1024\" height=\"613\"><g><rect><desc>pos1:$f(x)</desc>"
  content := "desc"
  after := "</rect></g></svg>"

/-- An element before the root. -/
def leadingElement : EmptyElement where
  before := ""
  content := "a"
  after := "<svg width=\"1024\" height=\"613\"><g/></svg>"

/-- The empty tag leaves the description as it is, and the two tags take it back; the empty tag is
passed over before the root, and the two tags are taken for it. -/
theorem spelling_matters : ¬ secondDescription.MeansSame ∧ ¬ leadingElement.MeansSame := by
  have hdescription : textOfMarkup? secondDescription.selfClosing ≠
      textOfMarkup? secondDescription.endTagged := by decide +kernel
  have hleading : textOfMarkup? leadingElement.selfClosing ≠
      textOfMarkup? leadingElement.endTagged := by decide +kernel
  exact ⟨fun h => hdescription (textOfMarkup?_eq _ h), fun h => hleading (textOfMarkup?_eq _ h)⟩

end RenderLayout
