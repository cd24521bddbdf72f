import RenderLayout.Proofs.Translation

/-!
What of a drawing no layout shows: the descriptions of spans, and style sheets that are empty.

A drawing without them is compiled to the same layout, among any others.
-/

namespace RenderLayout

/-! ### Spans and shapes -/

mutual

/-- The span without its description, and those within it without theirs. -/
def Span.bare : Span → Span
  | ⟨x, y, style, text, _, spans⟩ => ⟨x, y, style, text, "", bareAll spans⟩

def Span.bareAll : List Span → List Span
  | [] => []
  | span :: spans => span.bare :: bareAll spans

end

namespace Span

lemma bareAll_eq_map (spans : List Span) : bareAll spans = spans.map bare := by
  induction spans with
  | nil => rfl
  | cons span spans ih => rw [bareAll, ih, List.map_cons]

@[simp] lemma x_bare (span : Span) : span.bare.x = span.x := by cases span; rfl

@[simp] lemma y_bare (span : Span) : span.bare.y = span.y := by cases span; rfl

@[simp] lemma style_bare (span : Span) : span.bare.style = span.style := by cases span; rfl

@[simp] lemma text_bare (span : Span) : span.bare.text = span.text := by cases span; rfl

@[simp] lemma spans_bare (span : Span) : span.bare.spans = span.spans.map bare := by
  cases span
  exact bareAll_eq_map _

end Span

def TextBox.bare (text : TextBox) : TextBox := { text with spans := text.spans.map Span.bare }

lemma TextBox.singleSpan_bare (layer index : Nat) (text : TextBox) :
    text.bare.singleSpan layer index = (text.singleSpan layer index).map Span.bare := by
  have hnested : (text.bare.spans.any fun span => !span.spans.isEmpty) =
      text.spans.any fun span => !span.spans.isEmpty := by
    simp [bare, Function.comp_def]
  unfold singleSpan
  rw [hnested]
  split
  · rfl
  · unfold bare
    rcases text.spans with _ | ⟨span, _ | ⟨next, spans⟩⟩
    · rfl
    · rfl
    · simp [Except.map]

def Shape.bare : Shape → Shape
  | .text t => .text t.bare
  | shape => shape

namespace Shape

@[simp] lemma kind_bare (shape : Shape) : shape.bare.kind = shape.kind := by cases shape <;> rfl

@[simp] lemma declarations_bare (shape : Shape) :
    shape.bare.declarations = shape.declarations := by cases shape <;> rfl

@[simp] lemma classList_bare (shape : Shape) : shape.bare.classList = shape.classList := by
  cases shape <;> rfl

end Shape

def Drawing.bare (drawing : Drawing) : Drawing :=
  { drawing with
    sheets := drawing.sheets.filter (· ≠ "")
    layers := drawing.layers.map fun layer => layer.map Shape.bare }

def Placed.bare (placed : Placed) : Placed := { placed with shape := placed.shape.bare }

namespace Placed

variable (placed : Placed)

lemma check_bare : placed.bare.check = placed.check := by
  obtain ⟨layer, index, shape⟩ := placed
  cases shape with
  | text t =>
    show (do let _ ← t.bare.singleSpan layer index) = do let _ ← t.singleSpan layer index
    rw [TextBox.singleSpan_bare]
    cases t.singleSpan layer index <;> rfl
  | _ => rfl

/-- The span of a text, or one that stands for it, has nothing that its bare form has not. -/
lemma headD_bare (spans : List Span) : (spans.map Span.bare).headD {} = (spans.headD {}).bare := by
  cases spans <;> rfl

lemma drawn_bare (drawing : Drawing) (name : String) :
    placed.bare.drawn drawing.bare name = placed.drawn drawing name := by
  obtain ⟨layer, index, shape⟩ := placed
  cases shape with
  | text t =>
    simp only [drawn, bare, Shape.bare, TextBox.bare, fontOf, headD_bare, Span.x_bare, Span.y_bare,
      Span.text_bare, Span.style_bare]
  | _ => rfl

lemma enterFonts_bare (draft : Draft) : placed.bare.enterFonts draft = placed.enterFonts draft := by
  obtain ⟨layer, index, shape⟩ := placed
  cases shape with
  | text t =>
    simp only [enterFonts, bare, Shape.bare, TextBox.bare, fontOf, headD_bare, Span.style_bare]
  | _ => rfl

end Placed

/-! ### Pages -/

namespace PageContext

variable (page : String) (drawing : Drawing) (classes : Table Style) (placed : Placed)
  (number : Nat)

lemma style_bare (shape : Shape) :
    PageContext.style ⟨page, drawing.bare, classes⟩ number shape.bare =
      PageContext.style ⟨page, drawing, classes⟩ number shape := by
  simp only [style, styleName, Shape.kind_bare, Shape.declarations_bare, Shape.classList_bare]

lemma styleName_bare :
    PageContext.styleName ⟨page, drawing.bare, classes⟩ number placed.bare.shape =
      PageContext.styleName ⟨page, drawing, classes⟩ number placed.shape := by
  simp only [styleName, Placed.bare, Shape.kind_bare]

lemma made_bare :
    PageContext.made ⟨page, drawing.bare, classes⟩ placed.bare number =
      PageContext.made ⟨page, drawing, classes⟩ placed number := by
  unfold made
  rw [Placed.check_bare, styleName_bare, Placed.drawn_bare]
  simp only [Placed.bare, style_bare]

lemma enter_bare (draft : Draft) :
    PageContext.enter ⟨page, drawing.bare, classes⟩ placed.bare number draft =
      PageContext.enter ⟨page, drawing, classes⟩ placed number draft := by
  unfold enter
  rw [Placed.check_bare, styleName_bare, Placed.enterFonts_bare]
  simp only [Placed.bare, style_bare]

end PageContext

lemma Drafting.inTurn_map {α β γ : Type} (f : γ → α) (outcome : α → Except PageFault β)
    (effect : α → Draft → Draft) (l : List γ) (draft : Draft) :
    inTurn outcome effect (l.map f) draft =
      inTurn (fun c => outcome (f c)) (fun c => effect (f c)) l draft := by
  induction l generalizing draft with
  | nil => rfl
  | cons c l ih =>
    rw [List.map_cons, inTurn, inTurn]
    split <;> simp_all

namespace Drawing

variable (page : String) (drawing : Drawing)

lemma placed_bare : drawing.bare.placed = drawing.placed.map Placed.bare := by
  simp [placed, bare, List.zipIdx_map, List.flatMap_map, List.map_flatMap]
  rfl

lemma check_bare (canvas : Canvas) : drawing.bare.check canvas = drawing.check canvas := by
  have htexts : drawing.bare.checkTexts = drawing.checkTexts := by
    unfold checkTexts
    rw [placed_bare]
    induction drawing.placed with
    | nil => rfl
    | cons placed rest ih =>
      show (do placed.bare.check; (rest.map Placed.bare).forM Placed.check) =
        do placed.check; rest.forM Placed.check
      rw [ih, Placed.check_bare]
  unfold check
  rw [htexts]
  rfl

/-- An empty sheet has no rules. -/
lemma classStyles_bare : drawing.bare.classStyles page = drawing.classStyles page := by
  have hrules : drawing.bare.sheets.flatMap Sheet.rules =
      drawing.sheets.flatMap Sheet.rules := by
    unfold bare
    dsimp only
    induction drawing.sheets with
    | nil => rfl
    | cons sheet sheets ih =>
      by_cases h : sheet = ""
      · rw [List.filter_cons_of_neg (by simp [h]), ih, List.flatMap_cons, h]
        rfl
      · rw [List.filter_cons_of_pos (by simp [h]), List.flatMap_cons, List.flatMap_cons, ih]
  unfold classStyles Sheet.classStyles
  rw [hrules]

lemma components_bare (classes : Table Style) :
    drawing.bare.components page classes = drawing.components page classes := by
  unfold components
  rw [placed_bare, List.zipIdx_map, List.mapM_map]
  exact congrArg (List.mapM · _)
    (funext fun p => PageContext.made_bare page drawing classes p.1 p.2)

lemma enterComponents_bare (classes : Table Style) :
    drawing.bare.enterComponents page classes = drawing.enterComponents page classes := by
  funext draft
  unfold enterComponents
  rw [placed_bare, List.zipIdx_map, Drafting.inTurn_map]
  congr 1
  · exact funext fun p => PageContext.made_bare page drawing classes p.1 p.2
  · exact funext fun p => funext (PageContext.enter_bare page drawing classes p.1 p.2)

lemma outcome_bare (canvas : Canvas) (p : String × Drawing) :
    Drawing.outcome canvas (p.1, p.2.bare) = Drawing.outcome canvas p := by
  simp only [outcome, toCheckedPage, toPage, check_bare, classStyles_bare, components_bare]

lemma enterDrawing_bare (draft : Draft) :
    draft.enterDrawing page drawing.bare = draft.enterDrawing page drawing := by
  simp only [Draft.enterDrawing, classStyles_bare, components_bare, enterComponents_bare]

end Drawing

/-- **The bare drawings are compiled to the same layout.** -/
theorem compile_bare (canvas : Canvas) (drawings : Table Drawing) :
    compile canvas (drawings.map Drawing.bare) = compile canvas drawings := by
  have hentered : Draft.entered (drawings.map Drawing.bare) = Draft.entered drawings := by
    unfold Draft.entered Table.map
    rw [List.foldl_map]
    simp only [Drawing.enterDrawing_bare]
  have houtcome : Drawing.outcome canvas ∘ (fun p => (p.1, p.2.bare)) = Drawing.outcome canvas :=
    funext fun p => Drawing.outcome_bare canvas p
  rw [compile_eq, compile_eq, hentered]
  unfold Table.map
  rw [List.mapM_map, houtcome]

/-- Drawings that are bare alike make the same layout among others. -/
lemma compile_insert_of_bare {left right : Drawing} (h : left.bare = right.bare) (canvas : Canvas)
    (page : String) (others : Table Drawing) :
    compile canvas (others.insert page left) = compile canvas (others.insert page right) := by
  rw [← compile_bare, Table.map_insert, h, ← Table.map_insert, compile_bare]

end RenderLayout
