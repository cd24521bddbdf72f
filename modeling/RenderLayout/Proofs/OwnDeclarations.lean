import RenderLayout.Proofs.DeclarationText
import RenderLayout.Proofs.PageComponents

/-!
What a shape declares itself, against its classes.

A color that stands in the declarations of a shape is the color of its component, whatever the
classes say. Any other value, `none` among them, is read as if the key were not there: the field is
left open, and the first class that sets it does so for the shape.
-/

namespace RenderLayout

/-- A field that is given is that of the declarations. One that is not given is open in them: it is as
in the first class that sets it, and so it is that of the declarations only if no class does. -/
structure OwnFirst {α : Type} (given : Prop) (own : Option α) (bases : List (Option α))
    (field : Option α) : Prop where
  keeps : given → own.isSome = true ∧ field = own
  fills : ¬ given → own = none ∧ field = bases.findSome? id
  same_iff : field = own ↔ given ∨ ∀ base ∈ bases, base = none

lemma ownFirst_of {α : Type} {given : Prop} {own field : Option α} {bases : List (Option α)}
    (hown : own.isSome = true ↔ given) (hfield : field = (own <|> bases.findSome? id)) :
    OwnFirst given own bases field := by
  subst hfield
  cases own with
  | some value =>
    have hgiven : given := hown.1 rfl
    exact ⟨fun _ => ⟨rfl, rfl⟩, fun h => absurd hgiven h, iff_of_true rfl (Or.inl hgiven)⟩
  | none =>
    have hgiven : ¬ given := fun h => nomatch hown.2 h
    refine ⟨fun h => absurd h hgiven, fun _ => ⟨rfl, rfl⟩, ?_⟩
    show bases.findSome? id = none ↔ _
    rw [List.findSome?_eq_none_iff, or_iff_right hgiven]
    rfl

/-- **Own declarations go first**: the component of a shape, on a page that is put in, goes by the
name of a style whose fill is that of the declarations of the shape wherever these give one, whatever
its classes say, and so for the stroke. A fill or stroke that they give in no color, such as `none`,
is left to the classes. -/
theorem Draft.ownDeclarations_first (draft : Draft) (page : String) (drawing : Drawing)
    (h : (draft.addDrawing page drawing).1 = .ok ()) {n i : Nat} {layer : Layer} {shape : Shape}
    (hlayer : drawing.layers[n]? = some layer) (hshape : layer[i]? = some shape) :
    ∃ components component style own bases,
      (draft.addDrawing page drawing).2.pages.find? page = some components ∧
      components[drawing.shapesBefore n + i]? = some component ∧
      component.style = some (componentStyleName page shape.kind (drawing.shapesBefore n + i)) ∧
      (draft.addDrawing page drawing).2.styles.find?
        (componentStyleName page shape.kind (drawing.shapesBefore n + i)) = some style ∧
      Style.ofDeclarations shape.declarations = .ok own ∧
      List.Forall₂ (fun word base => drawing.classStyle? (String.ofList word) = some base)
        (Text.words shape.classList.toList) bases ∧
      OwnFirst (Declarations.HasColor "fill" shape.declarations) own.fill (bases.map (·.fill))
        style.fill ∧
      OwnFirst (Declarations.HasColor "stroke" shape.declarations) own.stroke
        (bases.map (·.stroke)) style.stroke := by
  obtain ⟨components, classes, component, hpage, hclasses, hcomponent, hmade⟩ :=
    exists_component h hlayer hshape
  obtain ⟨style, own, bases, hfind, hcascade⟩ := exists_cascadeOf h hlayer hshape
  obtain ⟨hown, hbases, hfields⟩ := hcascade
  obtain ⟨hfill, hstroke⟩ := Declarations.ofDeclarations_isSome hown
  refine ⟨components, component, style, own, bases, hpage, hcomponent,
    (PageContext.draws_made hmade).style, hfind, hown, hbases, ?_, ?_⟩
  · exact ownFirst_of hfill (by rw [hfields.fill, List.findSome?_map]; rfl)
  · exact ownFirst_of hstroke (by rw [hfields.stroke, List.findSome?_map]; rfl)

/-- Two boxes of a class with a red fill and a green stroke. The declarations of the first give a
color for the fill, and those of the second `none` for both. -/
def overruled : Drawing where
  sheets := [".x\x7bfill:#ff0000;stroke:#00ff00\x7d"]
  layers := [[
    .rect { style := "fill:#0000ff;stroke:none", classes := "x" },
    .rect { style := "fill:none;stroke:none", classes := "x" }]]

lemma overruled_added : (({} : Draft).addDrawing "p" overruled).1 = .ok () := by
  have hrun : (({} : Draft).addDrawing "p" overruled).1.toOption = some () := by decide +kernel
  exact toOption_eq_some_iff.1 hrun

/-- The first box keeps its fill, but has the stroke of its class. -/
theorem ownDeclarations_first_box :
    (({} : Draft).addDrawing "p" overruled).1 = .ok () ∧
      ∃ style own x, (({} : Draft).addDrawing "p" overruled).2.styles.find? "p-box-0" = some style ∧
        Style.ofDeclarations "fill:#0000ff;stroke:none" = .ok own ∧
        overruled.classStyle? "x" = some x ∧ own.fill.isSome = true ∧ style.fill = own.fill ∧
        own.stroke = none ∧ style.stroke = x.stroke := by
  obtain ⟨components, component, style, own, bases, -, -, -, hstyle, hown, hbases, hfill,
    hstroke⟩ := Draft.ownDeclarations_first {} "p" overruled overruled_added (n := 0) (i := 0) rfl rfl
  have hgiven : Declarations.HasColor "fill" "fill:#0000ff;stroke:none" :=
    Declarations.bytes?_isSome.1 (by decide)
  have hnone : ¬ Declarations.HasColor "stroke" "fill:#0000ff;stroke:none" := by
    rw [← Declarations.bytes?_isSome]
    decide
  have hwords : Text.words "x".toList = [['x']] := by decide
  dsimp only [Shape.classList] at hbases
  rw [hwords] at hbases
  rcases hbases with _ | ⟨hx, _ | _⟩
  obtain ⟨hset, hkept⟩ := hfill.keeps hgiven
  obtain ⟨hopen, hfilled⟩ := hstroke.fills hnone
  refine ⟨overruled_added, style, own, _, hstyle, hown, hx, hset, hkept, hopen, hfilled.trans ?_⟩
  simp

/-- The second box has the fill and the stroke of its class, although its declarations alone give it
none. -/
theorem none_overruled :
    (({} : Draft).addDrawing "p" overruled).1 = .ok () ∧
      overruled.layers.flatten[1]? =
        some (.rect { style := "fill:none;stroke:none", classes := "x" }) ∧
      ∃ components component style own,
        (({} : Draft).addDrawing "p" overruled).2.pages.find? "p" = some components ∧
        components[1]? = some component ∧ component.style = some "p-box-1" ∧
        (({} : Draft).addDrawing "p" overruled).2.styles.find? "p-box-1" = some style ∧
        Style.ofDeclarations "fill:none;stroke:none" = .ok own ∧
        own.fill = none ∧ style.fill ≠ own.fill ∧ own.stroke = none ∧ style.stroke ≠ own.stroke := by
  obtain ⟨components, classes, component, hpage, -, hcomponent, hmade⟩ :=
    Draft.exists_component overruled_added (n := 0) (i := 1) rfl rfl
  obtain ⟨style, own, bases, hstyle, hown, hbases, hfields⟩ :=
    Draft.exists_cascadeOf overruled_added (n := 0) (i := 1) rfl rfl
  have hdeclared : (Style.ofDeclarations "fill:none;stroke:none").toOption.all
      (fun own => own.fill.isNone && own.stroke.isNone) = true := by decide +kernel
  have hsets : ((({} : Draft).addDrawing "p" overruled).2.styles.find? "p-box-1").all
      (fun style => style.fill.isSome && style.stroke.isSome) = true := by decide +kernel
  rw [toOption_eq_some_iff.2 (show Style.ofDeclarations "fill:none;stroke:none" = .ok own from hown),
    Option.all_some, Bool.and_eq_true, Option.isNone_iff_eq_none, Option.isNone_iff_eq_none]
    at hdeclared
  rw [show (({} : Draft).addDrawing "p" overruled).2.styles.find? "p-box-1" = some style from hstyle,
    Option.all_some, Bool.and_eq_true, Option.isSome_iff_ne_none, Option.isSome_iff_ne_none] at hsets
  obtain ⟨hfill, hstroke⟩ := hdeclared
  exact ⟨overruled_added, rfl, components, component, style, own, hpage, hcomponent,
    (PageContext.draws_made hmade).style, hstyle, hown, hfill, hfill ▸ hsets.1, hstroke,
    hstroke ▸ hsets.2⟩

end RenderLayout
