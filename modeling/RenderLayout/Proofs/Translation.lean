import RenderLayout.Compile
import RenderLayout.Proofs.Names
import RenderLayout.Proofs.Outcome
import RenderLayout.Proofs.Tables

/-!
Work on a draft, taken apart into what comes of it and what it does to the draft.

What comes of a page is settled by the page: no draft that earlier pages have left behind can change
it. The draft gets the fonts and styles of the page as far as the work comes, and the page itself
only if the work comes to its end.
-/

namespace RenderLayout

namespace Drafting

variable {α β : Type}

lemma run_pure (a : α) (draft : Draft) : (pure a : Drafting α).run.run draft = (.ok a, draft) := rfl

lemma run_lift (outcome : Except PageFault α) (draft : Draft) :
    (liftM outcome : Drafting α).run.run draft = (outcome, draft) := rfl

lemma run_modify (f : Draft → Draft) (draft : Draft) :
    (modify f : Drafting PUnit).run.run draft = (.ok ⟨⟩, f draft) := rfl

lemma run_bind (work : Drafting α) (next : α → Drafting β) (draft : Draft) :
    (work >>= next).run.run draft =
      match work.run.run draft with
      | (.ok a, draft) => (next a).run.run draft
      | (.error fault, draft) => (.error fault, draft) := by
  rw [ExceptT.run_bind, StateT.run_bind]
  rcases work.run.run draft with ⟨_ | _, _⟩ <;> rfl

/-- Whatever the draft is, this comes of the work, and this is done to the draft. -/
def Gives (work : Drafting α) (outcome : Except PageFault α) (effect : Draft → Draft) : Prop :=
  ∀ draft, work.run.run draft = (outcome, effect draft)

/-- The effect of work on the members of a list in turn, up to the first that has a fault. -/
def inTurn (outcome : α → Except PageFault β) (effect : α → Draft → Draft) :
    List α → Draft → Draft
  | [], draft => draft
  | a :: rest, draft =>
    match outcome a with
    | .ok _ => inTurn outcome effect rest (effect a draft)
    | .error _ => effect a draft

lemma gives_mapM {work : α → Drafting β} {outcome : α → Except PageFault β}
    {effect : α → Draft → Draft} (h : ∀ a, Gives (work a) (outcome a) (effect a)) (l : List α) :
    Gives (l.mapM work) (l.mapM outcome) (inTurn outcome effect l) := by
  induction l with
  | nil => exact run_pure []
  | cons a rest ih =>
    intro draft
    rw [List.mapM_cons, List.mapM_cons, run_bind, h a draft, inTurn]
    cases outcome a with
    | error fault => rfl
    | ok b =>
      dsimp only
      rw [run_bind, ih]
      cases rest.mapM outcome <;> rfl

/-- Of a list without a fault every member has its effect. -/
lemma inTurn_of_ok {outcome : α → Except PageFault β} {effect : α → Draft → Draft} {l : List α}
    {bs : List β} (h : l.mapM outcome = .ok bs) (draft : Draft) :
    inTurn outcome effect l draft = l.foldl (fun draft a => effect a draft) draft := by
  rw [mapM_eq_ok_iff] at h
  induction h generalizing draft with
  | nil => rfl
  | cons ha _ ih => rw [inTurn, ha, List.foldl_cons, ih]

end Drafting

/-! ### Shapes -/

namespace Shape

def kind : Shape → Kind
  | .rect _ => .box
  | .circle _ => .circle
  | .text _ => .text

/-- The declarations of the shape itself. -/
def declarations : Shape → String
  | .rect r => r.style
  | .circle c => c.style
  | .text t => t.style

def classList : Shape → String
  | .rect r => r.classes
  | .circle c => c.classes
  | .text t => t.classes

end Shape

namespace Placed

/-- The component of a shape whose style goes by a name. A text stands where its span does. -/
def drawn (placed : Placed) (drawing : Drawing) (style : String) : Component :=
  match placed.shape with
  | .rect r => {
    kind := .box
    layer := placed.layer
    pos1 := ⟨r.x, r.y⟩
    pos2 := some ⟨r.x + r.width, r.y + r.height⟩
    cornerRadius := drawing.cornerRadius? r.pathEffect
    style := some style
    bindings := Binding.ofText r.description }
  | .circle c => {
    kind := .circle
    layer := placed.layer
    pos1 := ⟨c.cx, c.cy⟩
    radius := some c.r
    style := some style
    bindings := Binding.ofText c.description }
  | .text t =>
    let span := t.spans.headD {}
    { kind := .text
      layer := placed.layer
      pos1 := ⟨span.x, span.y⟩
      style := some style
      font := some (fontOf t span).key
      text := some span.text
      bindings := Binding.ofText t.description }

/-- A text enters its font and that of its span, and uses one of them. -/
def enterFonts (placed : Placed) (draft : Draft) : Draft :=
  match placed.shape with
  | .text t =>
    let span := t.spans.headD {}
    ((draft.resolveFont t.style).resolveFont span.style).useFont (fontOf t span).key
  | _ => draft

lemma drawn_style (placed : Placed) (drawing : Drawing) (name : String) :
    (placed.drawn drawing name).style = some name := by
  unfold drawn
  cases placed.shape <;> rfl

end Placed

lemma TextBox.singleSpan_eq_ok_iff {text : TextBox} {layer index : Nat} {span : Span} :
    text.singleSpan layer index = .ok span ↔ text.spans = [span] ∧ span.spans = [] := by
  unfold singleSpan
  constructor
  · intro h
    split at h
    · cases h
    · rename_i hnested
      split at h
      · rename_i hspans
        obtain rfl := Except.ok.inj h
        simpa [hspans] using hnested
      · cases h
  · rintro ⟨hspans, hnested⟩
    simp [hspans, hnested]

namespace PageContext

variable (context : PageContext) (placed : Placed) (number : Nat)

def styleName (shape : Shape) : String :=
  componentStyleName context.page shape.kind number

/-- The style of the component of a shape. -/
def style (shape : Shape) : Except PageFault Style :=
  cascade context.page context.classes (context.styleName number shape) shape.declarations
    shape.classList

/-- What comes of the component of a shape. -/
def made : Except PageFault Component := do
  placed.check
  let _ ← context.style number placed.shape
  return placed.drawn context.drawing (context.styleName number placed.shape)

/-- What the component of a shape does to the draft. -/
def enter (draft : Draft) : Draft :=
  match placed.check, context.style number placed.shape with
  | .ok _, .ok style =>
    (placed.enterFonts draft).addStyle (context.styleName number placed.shape) style
  | .ok _, .error _ => placed.enterFonts draft
  | .error _, _ => draft

lemma enterStyle_run (kind : Kind) (declarations classList : String) (draft : Draft) :
    (context.enterStyle kind number declarations classList).run.run draft =
      match cascade context.page context.classes (componentStyleName context.page kind number)
        declarations classList with
      | .ok style => (.ok (componentStyleName context.page kind number),
          draft.addStyle (componentStyleName context.page kind number) style)
      | .error fault => (.error fault, draft) := by
  unfold enterStyle
  dsimp only
  rw [Drafting.run_bind, Drafting.run_lift]
  cases cascade context.page context.classes (componentStyleName context.page kind number)
    declarations classList <;> rfl

lemma component_gives :
    Drafting.Gives (context.component placed number) (context.made placed number)
      (context.enter placed number) := by
  intro draft
  obtain ⟨layer, index, shape⟩ := placed
  unfold component made enter style styleName
  cases shape with
  | rect r =>
    dsimp only [box, Shape.kind, Shape.declarations, Shape.classList]
    rw [Drafting.run_bind, enterStyle_run]
    cases cascade context.page context.classes (componentStyleName context.page .box number)
      r.style r.classes <;> rfl
  | circle c =>
    dsimp only [circle, Shape.kind, Shape.declarations, Shape.classList]
    rw [Drafting.run_bind, enterStyle_run]
    cases cascade context.page context.classes (componentStyleName context.page .circle number)
      c.style c.classes <;> rfl
  | text t =>
    dsimp only [text, Shape.kind, Shape.declarations, Shape.classList, Placed.check,
      Placed.enterFonts, Placed.drawn]
    cases hspan : t.singleSpan layer index with
    | error fault =>
      rw [Drafting.run_bind, Drafting.run_lift]
      rfl
    | ok span =>
      rw [(TextBox.singleSpan_eq_ok_iff.1 hspan).1]
      simp only [Drafting.run_bind, Drafting.run_lift, Drafting.run_modify, enterStyle_run]
      cases cascade context.page context.classes (componentStyleName context.page .text number)
        t.style t.classes <;> rfl

variable {context placed number} {component : Component}

lemma made_eq_ok_iff : context.made placed number = .ok component ↔
    placed.check = .ok () ∧ (∃ style, context.style number placed.shape = .ok style) ∧
      component = placed.drawn context.drawing (context.styleName number placed.shape) := by
  unfold made
  cases placed.check with
  | error fault => simp [bind, Except.bind]
  | ok _ =>
    cases context.style number placed.shape with
    | error fault => simp [bind, Except.bind]
    | ok style => simp [bind, Except.bind, pure, Except.pure, eq_comm]

/-- An entry of the style table that is due to the component of a numbered shape. -/
structure IsEntry (context : PageContext) (p : Placed × Nat) (e : String × Style) : Prop where
  name : e.1 = context.styleName p.2 p.1.shape
  style : context.style p.2 p.1.shape = .ok e.2

lemma enter_of_ok {style : Style} (hcheck : placed.check = .ok ())
    (hstyle : context.style number placed.shape = .ok style) (draft : Draft) :
    context.enter placed number draft =
      (placed.enterFonts draft).addStyle (context.styleName number placed.shape) style := by
  rw [enter, hcheck, hstyle]

end PageContext

/-! ### Pages -/

namespace Drawing

/-- The components of a drawing, once the styles of its classes are known. -/
def components (page : String) (drawing : Drawing) (classes : Table Style) :
    Except PageFault Page :=
  drawing.placed.zipIdx.mapM fun p => PageContext.made ⟨page, drawing, classes⟩ p.1 p.2

/-- What the components of a drawing do to the draft. -/
def enterComponents (page : String) (drawing : Drawing) (classes : Table Style) : Draft → Draft :=
  Drafting.inTurn (fun p => PageContext.made ⟨page, drawing, classes⟩ p.1 p.2)
    (fun p => PageContext.enter ⟨page, drawing, classes⟩ p.1 p.2) drawing.placed.zipIdx

/-- What comes of a drawing as a page. -/
def toPage (page : String) (drawing : Drawing) : Except PageFault Page := do
  let classes ← drawing.classStyles page
  drawing.components page classes

/-- What comes of a drawing as a page of a canvas. -/
def toCheckedPage (canvas : Canvas) (page : String) (drawing : Drawing) :
    Except PageFault Page := do
  drawing.check canvas
  drawing.toPage page

end Drawing

namespace Draft

/-- What a drawing does to the draft. -/
def enterDrawing (page : String) (drawing : Drawing) (draft : Draft) : Draft :=
  match drawing.classStyles page with
  | .error _ => draft
  | .ok classes =>
    let entered := drawing.enterComponents page classes (draft.addClasses classes)
    match drawing.components page classes with
    | .error _ => entered
    | .ok components => entered.addPage page components

lemma addDrawing_eq (draft : Draft) (page : String) (drawing : Drawing) :
    draft.addDrawing page drawing =
      ((drawing.toPage page).map fun _ => (), draft.enterDrawing page drawing) := by
  unfold addDrawing Drafting.addDrawing Drawing.toPage enterDrawing
  rw [Drafting.run_bind, Drafting.run_lift]
  cases drawing.classStyles page with
  | error fault => rfl
  | ok classes =>
    have hmapM := Drafting.gives_mapM
      (fun p : Placed × Nat => PageContext.component_gives ⟨page, drawing, classes⟩ p.1 p.2)
      drawing.placed.zipIdx (draft.addClasses classes)
    dsimp only
    rw [Drafting.run_bind, Drafting.run_modify]
    dsimp only
    rw [Drafting.run_bind, hmapM]
    show _ = ((drawing.components page classes).map _, _)
    unfold Drawing.components Drawing.enterComponents
    cases drawing.placed.zipIdx.mapM
      fun p => PageContext.made ⟨page, drawing, classes⟩ p.1 p.2 <;> rfl

/-- What comes of a page does not depend on the draft. -/
lemma addChecked_eq (canvas : Canvas) (draft : Draft) (page : String) (drawing : Drawing) :
    draft.addChecked canvas page drawing =
      (drawing.toCheckedPage canvas page).map fun _ => draft.enterDrawing page drawing := by
  unfold addChecked Drawing.toCheckedPage
  rw [addDrawing_eq]
  cases drawing.check canvas with
  | error fault => rfl
  | ok _ =>
    show _ = (drawing.toPage page).map _
    cases drawing.toPage page <;> rfl

end Draft

/-! ### A page that is made -/

@[simp] lemma Placed.styles_enterFonts (placed : Placed) (draft : Draft) :
    (placed.enterFonts draft).styles = draft.styles := by
  unfold enterFonts
  cases placed.shape <;> rfl

@[simp] lemma Placed.pages_enterFonts (placed : Placed) (draft : Draft) :
    (placed.enterFonts draft).pages = draft.pages := by
  unfold enterFonts
  cases placed.shape <;> rfl

namespace Draft

lemma styles_addClasses (classes : Table Style) (draft : Draft) :
    (draft.addClasses classes).styles = draft.styles.insertAll classes.pairs := by
  unfold addClasses Table.insertAll
  induction classes.pairs generalizing draft with
  | nil => rfl
  | cons p rest ih => exact ih (draft.addClass p.1 p.2)

lemma pages_addClasses (classes : Table Style) (draft : Draft) :
    (draft.addClasses classes).pages = draft.pages := by
  unfold addClasses
  induction classes.pairs generalizing draft with
  | nil => rfl
  | cons p rest ih => exact ih (draft.addClass p.1 p.2)

end Draft

namespace Drawing

variable {page : String} {drawing : Drawing} {result : Page} {classes : Table Style}

lemma toPage_eq_ok_iff : drawing.toPage page = .ok result ↔
    ∃ classes, drawing.classStyles page = .ok classes ∧
      drawing.components page classes = .ok result :=
  bind_eq_ok_iff

lemma toCheckedPage_eq_ok_iff {canvas : Canvas} :
    drawing.toCheckedPage canvas page = .ok result ↔
      drawing.check canvas = .ok () ∧ drawing.toPage page = .ok result := by
  unfold toCheckedPage
  rw [bind_eq_ok_iff]
  exact ⟨fun ⟨_, hcheck, h⟩ => ⟨hcheck, h⟩, fun ⟨hcheck, h⟩ => ⟨(), hcheck, h⟩⟩

/-- The components of a page are those of its shapes, in order. -/
lemma made_of_component (h : drawing.components page classes = .ok result) {number : Nat}
    {component : Component} (hcomponent : result[number]? = some component) :
    ∃ placed, drawing.placed[number]? = some placed ∧
      PageContext.made ⟨page, drawing, classes⟩ placed number = .ok component := by
  obtain ⟨p, hp, hmade⟩ := forall₂_getElem?_right (mapM_eq_ok_iff.1 h) hcomponent
  rw [List.getElem?_zipIdx, Option.map_eq_some_iff] at hp
  obtain ⟨placed, hplaced, rfl⟩ := hp
  rw [Nat.zero_add] at hmade
  exact ⟨placed, hplaced, hmade⟩

/-- The styles that the components of a page are entered with, each under its name. -/
lemma styles_enterComponents (h : drawing.components page classes = .ok result)
    (draft : Draft) :
    ∃ entries,
      List.Forall₂ (PageContext.IsEntry ⟨page, drawing, classes⟩) drawing.placed.zipIdx entries ∧
      (drawing.enterComponents page classes draft).styles = draft.styles.insertAll entries := by
  unfold components at h
  unfold enterComponents
  rw [Drafting.inTurn_of_ok h]
  rw [mapM_eq_ok_iff] at h
  generalize drawing.placed.zipIdx = shapes at h ⊢
  induction h generalizing draft with
  | nil => exact ⟨[], .nil, rfl⟩
  | @cons p component rest _ hmade _ ih =>
    obtain ⟨hcheck, ⟨style, hstyle⟩, -⟩ := PageContext.made_eq_ok_iff.1 hmade
    obtain ⟨entries, hentries, hstyles⟩ :=
      ih (PageContext.enter ⟨page, drawing, classes⟩ p.1 p.2 draft)
    refine ⟨(_, style) :: entries, .cons ⟨rfl, hstyle⟩ hentries, ?_⟩
    rw [List.foldl_cons, hstyles, PageContext.enter_of_ok hcheck hstyle]
    unfold Draft.addStyle
    rw [Placed.styles_enterFonts]
    rfl

lemma pages_enterComponents (draft : Draft) :
    (drawing.enterComponents page classes draft).pages = draft.pages := by
  unfold enterComponents
  induction drawing.placed.zipIdx generalizing draft with
  | nil => rfl
  | cons p rest ih =>
    have henter :
        (PageContext.enter ⟨page, drawing, classes⟩ p.1 p.2 draft).pages = draft.pages := by
      unfold PageContext.enter
      split
      · exact p.1.pages_enterFonts draft
      · exact p.1.pages_enterFonts draft
      · rfl
    rw [Drafting.inTurn]
    split
    · rw [ih, henter]
    · exact henter

end Drawing

namespace Draft

variable {page : String} {drawing : Drawing} {result : Page}

lemma pages_enterDrawing (h : drawing.toPage page = .ok result) (draft : Draft) :
    (draft.enterDrawing page drawing).pages = draft.pages.insert page result := by
  obtain ⟨classes, hclasses, hcomponents⟩ := Drawing.toPage_eq_ok_iff.1 h
  rw [enterDrawing, hclasses]
  dsimp only
  rw [hcomponents]
  unfold addPage
  dsimp only
  rw [Drawing.pages_enterComponents, pages_addClasses]

lemma styles_enterDrawing (h : drawing.toPage page = .ok result) (draft : Draft) :
    ∃ classes entries, drawing.classStyles page = .ok classes ∧
      List.Forall₂ (PageContext.IsEntry ⟨page, drawing, classes⟩) drawing.placed.zipIdx entries ∧
      (draft.enterDrawing page drawing).styles =
        (draft.styles.insertAll classes.pairs).insertAll entries := by
  obtain ⟨classes, hclasses, hcomponents⟩ := Drawing.toPage_eq_ok_iff.1 h
  obtain ⟨entries, hentries, hstyles⟩ :=
    Drawing.styles_enterComponents hcomponents (draft.addClasses classes)
  refine ⟨classes, entries, hclasses, hentries, ?_⟩
  rw [enterDrawing, hclasses]
  dsimp only
  rw [hcomponents, ← styles_addClasses, ← hstyles]
  rfl

/-- The names of the components of a page are different from each other. -/
lemma nodup_entries {context : PageContext} {shapes : List Placed}
    {entries : List (String × Style)}
    (h : List.Forall₂ context.IsEntry shapes.zipIdx entries) : (entries.map (·.1)).Nodup := by
  have hnames : entries.map (·.1) =
      shapes.zipIdx.map fun p => context.styleName p.2 p.1.shape := by
    generalize shapes.zipIdx = numbered at h ⊢
    induction h with
    | nil => rfl
    | cons he _ ih => rw [List.map_cons, List.map_cons, ih, he.name]
  have hnumbers : (shapes.zipIdx.map (·.2)).Nodup := by
    rw [List.zipIdx_map_snd]
    exact List.nodup_range'
  rw [hnames]
  refine List.pairwise_map.2 ((List.pairwise_map.1 hnumbers).imp fun hne heq => hne ?_)
  exact (componentStyleName_inj heq).2.2

/-- The style of a component of a page that is made goes by its name. -/
lemma find?_enterDrawing_component (h : drawing.toPage page = .ok result) (draft : Draft)
    {placed : Placed} {number : Nat} (hplaced : drawing.placed[number]? = some placed) :
    ∃ classes style, drawing.classStyles page = .ok classes ∧
      PageContext.style ⟨page, drawing, classes⟩ number placed.shape = .ok style ∧
      (draft.enterDrawing page drawing).styles.find?
        (componentStyleName page placed.shape.kind number) = some style := by
  obtain ⟨classes, entries, hclasses, hentries, hstyles⟩ := styles_enterDrawing h draft
  have hshape : drawing.placed.zipIdx[number]? = some (placed, number) := by
    rw [List.getElem?_zipIdx, hplaced, Option.map_some, Nat.zero_add]
  obtain ⟨⟨name, style⟩, he, rfl, hstyle⟩ := forall₂_getElem?_left hentries hshape
  refine ⟨classes, style, hclasses, hstyle, ?_⟩
  rw [hstyles]
  exact Table.find?_insertAll_of_mem _ (List.mem_of_getElem? he) (nodup_entries hentries)

/-- A name of no component of the page is left to its classes and to earlier pages. -/
lemma find?_enterDrawing_of_ne (h : drawing.toPage page = .ok result) (draft : Draft)
    {name : String} (hname : ∀ kind number, componentStyleName page kind number ≠ name) :
    ∃ classes, drawing.classStyles page = .ok classes ∧
      (draft.enterDrawing page drawing).styles.find? name =
        (classes.find? name).or (draft.styles.find? name) := by
  obtain ⟨classes, entries, hclasses, hentries, hstyles⟩ := styles_enterDrawing h draft
  refine ⟨classes, hclasses, ?_⟩
  rw [hstyles, Table.find?_insertAll_of_ne, Table.find?_insertAll_pairs]
  intro e he
  obtain ⟨i, hi⟩ := List.mem_iff_getElem?.1 he
  obtain ⟨p, -, hkey, -⟩ := forall₂_getElem?_right hentries hi
  rw [hkey]
  exact hname _ _

/-- A page comes of the drawing of its name. -/
lemma drawing_of_page {l : List (String × Drawing)}
    (hmade : ∀ p ∈ l, ∃ result, p.2.toPage p.1 = .ok result) (draft : Draft)
    (h : (l.foldl (fun draft p => draft.enterDrawing p.1 p.2) draft).pages.find? page =
      some result) :
    (∃ drawing, (page, drawing) ∈ l ∧ drawing.toPage page = .ok result) ∨
      draft.pages.find? page = some result := by
  induction l generalizing draft with
  | nil => exact Or.inr h
  | cons p rest ih =>
    obtain ⟨result', hresult⟩ := hmade p List.mem_cons_self
    rcases ih (fun q hq => hmade q (List.mem_cons_of_mem _ hq)) _ h with ⟨drawing, hmem, hd⟩ | h
    · exact Or.inl ⟨drawing, List.mem_cons_of_mem _ hmem, hd⟩
    · rw [pages_enterDrawing hresult, Table.find?_insert] at h
      split at h
      case isTrue hp =>
        obtain rfl := Option.some.inj h
        subst hp
        exact Or.inl ⟨p.2, List.mem_cons_self, hresult⟩
      case isFalse => exact Or.inr h

end Draft

/-! ### All pages -/

/-- What comes of a drawing among others. -/
def Drawing.outcome (canvas : Canvas) (p : String × Drawing) : Except Failure Page :=
  (p.2.toCheckedPage canvas p.1).mapError (.page p.1)

lemma foldlM_addChecked (canvas : Canvas) (l : List (String × Drawing)) (draft : Draft) :
    l.foldlM (fun draft p => (draft.addChecked canvas p.1 p.2).mapError (.page p.1)) draft =
      (l.mapM (Drawing.outcome canvas)).map
        fun _ => l.foldl (fun draft p => draft.enterDrawing p.1 p.2) draft := by
  induction l generalizing draft with
  | nil => rfl
  | cons p rest ih =>
    rw [List.foldlM_cons, List.mapM_cons, Draft.addChecked_eq]
    unfold Drawing.outcome
    cases p.2.toCheckedPage canvas p.1 with
    | error fault => rfl
    | ok page =>
      show rest.foldlM _ _ = _
      rw [ih]
      unfold Drawing.outcome
      cases rest.mapM fun p => (p.2.toCheckedPage canvas p.1).mapError (Failure.page p.1) <;> rfl

/-- The draft that all pages have been entered in. -/
def Draft.entered (drawings : Table Drawing) : Draft :=
  drawings.pairs.foldl (fun draft p => draft.enterDrawing p.1 p.2) {}

/-- **Compilation page by page**: there is a layout if every drawing makes a page on its own. -/
theorem compile_eq (canvas : Canvas) (drawings : Table Drawing) :
    compile canvas drawings =
      (drawings.pairs.mapM (Drawing.outcome canvas)).map fun _ =>
        (Draft.entered drawings).layout.unify (Draft.entered drawings).classes := by
  unfold compile Draft.ofDrawings
  rw [foldlM_addChecked]
  cases drawings.pairs.mapM (Drawing.outcome canvas) <;> rfl

/-- A run fails as the first of its drawings that makes no page. -/
lemma fault?_compile (canvas : Canvas) (drawings : Table Drawing) :
    fault? (compile canvas drawings) = drawings.pairs.findSome?
      fun p => (fault? (p.2.toCheckedPage canvas p.1)).map (.page p.1) := by
  rw [compile_eq]
  show fault? (_ <$> _) = _
  rw [fault?_map, fault?_mapM]
  simp only [Drawing.outcome, fault?_mapError]

lemma compile_eq_ok_iff {canvas : Canvas} {drawings : Table Drawing} {layout : Layout} :
    compile canvas drawings = .ok layout ↔
      (∀ p ∈ drawings.pairs, ∃ page, p.2.toCheckedPage canvas p.1 = .ok page) ∧
        layout = (Draft.entered drawings).layout.unify (Draft.entered drawings).classes := by
  have hpages : (∃ pages, drawings.pairs.mapM (Drawing.outcome canvas) = .ok pages) ↔
      ∀ p ∈ drawings.pairs, ∃ page, p.2.toCheckedPage canvas p.1 = .ok page := by
    rw [← fault?_eq_none_iff, fault?_mapM, List.findSome?_eq_none_iff]
    simp only [Drawing.outcome, fault?_mapError, Option.map_eq_none_iff, fault?_eq_none_iff]
  rw [compile_eq, ← hpages]
  cases drawings.pairs.mapM (Drawing.outcome canvas) with
  | error failure => simp [Except.map]
  | ok pages => simp [Except.map, eq_comm]

end RenderLayout
