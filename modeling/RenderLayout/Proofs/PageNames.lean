import RenderLayout.Proofs.Acceptance
import RenderLayout.Proofs.RenamedKeys

/-!
What a page is called does not matter to it.

All names on a page begin with the name of the page and a hyphen, so that their order is that of what
follows. A drawing is entered under the names without the page, and what any page makes of it is
this, renamed in order.
-/

namespace RenderLayout

variable {canvas : Canvas} {drawing : Drawing} {page : String}

/-! ### Names without the page -/

lemma strictMono_classStyleName (page : String) : StrictMono (classStyleName page) := by
  intro s t h
  rw [String.lt_iff_toList_lt, toList_classStyleName, toList_classStyleName]
  exact List.append_left_lt (List.cons_lt_cons_self.2 (String.lt_iff_toList_lt.1 h))

/-- What follows the page in the name of a component. -/
def Kind.numbered (kind : Kind) (number : Nat) : String := kind.name ++ "-" ++ toString number

lemma classStyleName_numbered (page : String) (kind : Kind) (number : Nat) :
    classStyleName page (kind.numbered number) = componentStyleName page kind number := by
  apply String.toList_inj.1
  rw [toList_classStyleName, toList_componentStyleName]
  simp [Kind.numbered]

/-- The name with another page in place of the one that it begins with. -/
def replacePage (page other name : String) : String :=
  match Text.after? (page ++ "-").toList name.toList with
  | some rest => classStyleName other (String.ofList rest)
  | none => name

@[simp] lemma replacePage_classStyleName (page other rest : String) :
    replacePage page other (classStyleName page rest) = classStyleName other rest := by
  rw [replacePage, after?_classStyleName]
  simp

@[simp] lemma replacePage_componentStyleName (page other : String) (kind : Kind) (number : Nat) :
    replacePage page other (componentStyleName page kind number) =
      componentStyleName other kind number := by
  rw [← classStyleName_numbered, ← classStyleName_numbered, replacePage_classStyleName]

/-! ### Faults -/

/-- The fault of a page with another name: only the names of styles change. -/
def PageFault.replacePage (page other : String) : PageFault → PageFault
  | .badNumber context number => .badNumber (RenderLayout.replacePage page other context) number
  | .unknownStyle name => .unknownStyle (RenderLayout.replacePage page other name)
  | fault => fault

namespace Drawing

variable (page other : String)

lemma canvasFault?_replacePage (canvas : Canvas) (drawing : Drawing) :
    (drawing.canvasFault? canvas).map (.replacePage page other) = drawing.canvasFault? canvas := by
  unfold canvasFault?
  split <;> rfl

lemma textFault?_replacePage (placed : Placed) :
    (textFault? placed).map (.replacePage page other) = textFault? placed := by
  unfold textFault?
  split
  · split
    · rfl
    · split <;> rfl
  · rfl

lemma numberFault?_replacePage (name declarations : String) :
    (numberFault? name declarations).map (.replacePage page other) =
      numberFault? (replacePage page other name) declarations := by
  unfold numberFault?
  cases fault? (Style.ofDeclarations declarations) <;> rfl

lemma ruleFault?_replacePage (rule : Sheet.Rule) :
    (ruleFault? page rule).map (.replacePage page other) = ruleFault? other rule := by
  rw [ruleFault?, ruleFault?, numberFault?_replacePage, replacePage_classStyleName]

lemma classFault?_replacePage (drawing : Drawing) (word : List Char) :
    (classFault? page drawing word).map (.replacePage page other) =
      classFault? other drawing word := by
  unfold classFault?
  split
  · rfl
  · simp [PageFault.replacePage]

lemma shapeFault?_replacePage (drawing : Drawing) (shape : Shape) (number : Nat) :
    (shapeFault? page drawing shape number).map (.replacePage page other) =
      shapeFault? other drawing shape number := by
  unfold shapeFault?
  rw [Option.map_or, numberFault?_replacePage, replacePage_componentStyleName, List.map_findSome?]
  simp only [Function.comp_def, classFault?_replacePage]

/-- The first fault of a page with another name is the same, but for the names of styles. -/
lemma pageFault?_replacePage (canvas : Canvas) (drawing : Drawing) :
    (pageFault? canvas page drawing).map (.replacePage page other) =
      pageFault? canvas other drawing := by
  unfold pageFault?
  have htext : Option.map (.replacePage page other) ∘ textFault? = textFault? :=
    funext (textFault?_replacePage page other)
  have hrule : Option.map (.replacePage page other) ∘ ruleFault? page = ruleFault? other :=
    funext (ruleFault?_replacePage page other)
  simp only [Option.map_or, List.map_findSome?, canvasFault?_replacePage, htext, hrule,
    Function.comp_def, shapeFault?_replacePage]

end Drawing

/-! ### Drafts with renamed styles -/

/-- A draft whose style names are renamed. -/
def Draft.renameStyles (f : String → String) (hf : StrictMono f) (draft : Draft) : Draft where
  styles := draft.styles.mapKeys f hf
  classes := draft.classes.mapKeys f hf
  fonts := draft.fonts
  pages := draft.pages.map fun page => page.map (·.renameStyle f)

namespace Draft

variable {f : String → String} (hf : StrictMono f)

lemma renameStyles_addStyle (name : String) (style : Style) (draft : Draft) :
    (draft.addStyle name style).renameStyles f hf =
      (draft.renameStyles f hf).addStyle (f name) style := by
  unfold renameStyles addStyle
  simp only [Table.mapKeys_insert]

lemma renameStyles_addClass (draft : Draft) (name : String) (style : Style) :
    (draft.addClass name style).renameStyles f hf =
      (draft.renameStyles f hf).addClass (f name) style := by
  unfold renameStyles addClass Names.add
  simp only [Table.mapKeys_insert]

lemma renameStyles_addClasses (classes : Table Style) (draft : Draft) :
    (draft.addClasses classes).renameStyles f hf =
      (draft.renameStyles f hf).addClasses (classes.mapKeys f hf) := by
  unfold addClasses
  rw [Table.mapKeys, List.foldl_map]
  induction classes.pairs generalizing draft with
  | nil => rfl
  | cons p rest ih => rw [List.foldl_cons, List.foldl_cons, ih, renameStyles_addClass]

lemma renameStyles_enterFonts (placed : Placed) (draft : Draft) :
    (placed.enterFonts draft).renameStyles f hf = placed.enterFonts (draft.renameStyles f hf) := by
  unfold Placed.enterFonts
  cases placed.shape <;> rfl

lemma renameStyles_addPage (name : String) (page : Page) (draft : Draft) :
    (draft.addPage name page).renameStyles f hf =
      (draft.renameStyles f hf).addPage name (page.map (·.renameStyle f)) := by
  unfold renameStyles addPage
  simp only [Table.map_insert]

end Draft

/-! ### A drawing without its page -/

lemma Placed.drawn_renameStyle (placed : Placed) (drawing : Drawing) (f : String → String)
    (name : String) :
    (placed.drawn drawing name).renameStyle f = placed.drawn drawing (f name) := by
  unfold drawn Component.renameStyle
  cases placed.shape <;> rfl

namespace Drawing

/-- The styles of the classes, each under its own name. -/
def classTable (drawing : Drawing) : Table Style :=
  .ofList ((drawing.sheets.flatMap Sheet.rules).map fun rule =>
    (rule.className, (Style.ofDeclarations rule.body).toOption.getD {}))

/-- Enters the font and the style of a numbered shape. -/
def enterShape (drawing : Drawing) (draft : Draft) (p : Placed × Nat) : Draft :=
  (p.1.enterFonts draft).addStyle (p.1.shape.kind.numbered p.2)
    ((drawing.ownStyle? p.1.shape).getD {})

/-- All that the drawing enters in a draft before its page. -/
def stock (drawing : Drawing) : Draft :=
  drawing.placed.zipIdx.foldl drawing.enterShape (({} : Draft).addClasses drawing.classTable)

/-- The components of the drawing. -/
def figures (drawing : Drawing) : Page :=
  drawing.placed.zipIdx.map fun p => p.1.drawn drawing (p.1.shape.kind.numbered p.2)

/-- The layout of the drawing alone, its styles under the names without the page. -/
def nameless (page : String) (drawing : Drawing) : Layout :=
  (drawing.stock.addPage page drawing.figures).layout.unify drawing.stock.classes

variable (h : drawing.InOrder canvas)
include h

lemma classStyles_of_inOrder (page : String) : drawing.classStyles page =
    .ok (drawing.classTable.mapKeys (classStyleName page) (strictMono_classStyleName page)) := by
  refine classStyles_eq_ok_iff.2
    ⟨(drawing.sheets.flatMap Sheet.rules).map fun rule => (classStyleName page rule.className,
      (Style.ofDeclarations rule.body).toOption.getD {}), ?_, ?_⟩
  · refine List.forall₂_map_right_iff.2 (List.forall₂_same.2 fun rule hrule => ?_)
    obtain ⟨sheet, hsheet, hrule⟩ := List.mem_flatMap.1 hrule
    obtain ⟨style, hstyle⟩ := h.rules sheet hsheet rule hrule
    refine styleOf_eq_ok_iff.2 ⟨rfl, ?_⟩
    simp [hstyle, Except.toOption]
  · rw [classTable, Table.ofList, Table.mapKeys_insertAll, Table.mapKeys_empty, List.map_map]
    rfl

lemma made_of_inOrder {classes : Table Style} (hclasses : drawing.classStyles page = .ok classes)
    {p : Placed × Nat} (hp : p ∈ drawing.placed.zipIdx) :
    p.1.check = .ok () ∧ PageContext.style ⟨page, drawing, classes⟩ p.2 p.1.shape =
      .ok ((drawing.ownStyle? p.1.shape).getD {}) := by
  have hnone : pageFault? canvas page drawing = none := pageFault?_eq_none_iff.2 h
  simp only [pageFault?, Option.or_eq_none_iff, List.findSome?_eq_none_iff] at hnone
  obtain ⟨-, htexts, -, hshapes⟩ := hnone
  have hmade : fault? (PageContext.made ⟨page, drawing, classes⟩ p.1 p.2) = none := by
    rw [fault?_made hclasses, htexts p.1 (List.fst_mem_of_mem_zipIdx hp), Option.none_or]
    exact hshapes p hp
  obtain ⟨component, hcomponent⟩ := fault?_eq_none_iff.1 hmade
  obtain ⟨hcheck, ⟨style, hstyle⟩, -⟩ := PageContext.made_eq_ok_iff.1 hcomponent
  refine ⟨hcheck, ?_⟩
  rw [hstyle, (style_eq_ok_iff hclasses).1 hstyle, Option.getD_some]

lemma components_of_inOrder {classes : Table Style}
    (hclasses : drawing.classStyles page = .ok classes) :
    drawing.components page classes =
      .ok (drawing.figures.map (·.renameStyle (classStyleName page))) := by
  unfold components figures
  rw [mapM_eq_ok_iff, List.map_map]
  refine List.forall₂_map_right_iff.2 (List.forall₂_same.2 fun p hp => ?_)
  obtain ⟨hcheck, hstyle⟩ := made_of_inOrder h hclasses hp
  refine PageContext.made_eq_ok_iff.2 ⟨hcheck, ⟨_, hstyle⟩, ?_⟩
  rw [Function.comp_apply, Placed.drawn_renameStyle, classStyleName_numbered]
  rfl

/-- The components of a page enter what they enter without the page, renamed. -/
lemma enterComponents_of_inOrder {classes : Table Style}
    (hclasses : drawing.classStyles page = .ok classes) (draft : Draft) :
    drawing.enterComponents page classes
        (draft.renameStyles (classStyleName page) (strictMono_classStyleName page)) =
      (drawing.placed.zipIdx.foldl drawing.enterShape draft).renameStyles (classStyleName page)
        (strictMono_classStyleName page) := by
  unfold enterComponents
  rw [Drafting.inTurn_of_ok (components_of_inOrder h hclasses)]
  have hmade (p : Placed × Nat) (hp : p ∈ drawing.placed.zipIdx) :=
    made_of_inOrder h hclasses hp
  generalize drawing.placed.zipIdx = shapes at hmade ⊢
  induction shapes generalizing draft with
  | nil => rfl
  | cons p rest ih =>
    obtain ⟨hcheck, hstyle⟩ := hmade p List.mem_cons_self
    rw [List.foldl_cons, List.foldl_cons, PageContext.enter_of_ok hcheck hstyle,
      ← Draft.renameStyles_enterFonts, PageContext.styleName, ← classStyleName_numbered,
      ← Draft.renameStyles_addStyle]
    exact ih (drawing.enterShape draft p) fun q hq => hmade q (List.mem_cons_of_mem _ hq)

lemma enterDrawing_of_inOrder (page : String) :
    ({} : Draft).enterDrawing page drawing =
      (drawing.stock.addPage page drawing.figures).renameStyles (classStyleName page)
        (strictMono_classStyleName page) := by
  have hclasses := classStyles_of_inOrder h page
  rw [Draft.enterDrawing, hclasses]
  dsimp only
  rw [components_of_inOrder h hclasses, Draft.renameStyles_addPage, stock,
    ← enterComponents_of_inOrder h hclasses, Draft.renameStyles_addClasses]
  rfl

/-- A page that is in order alone becomes the layout of its drawing, with the names of the page. -/
lemma compile_of_inOrder (page : String) :
    compile canvas (.ofList [(page, drawing)]) =
      .ok ((drawing.nameless page).renameStyles (classStyleName page)
        (strictMono_classStyleName page)) := by
  have hfault : fault? (drawing.toCheckedPage canvas page) = none := by
    rw [fault?_toCheckedPage, pageFault?_eq_none_iff]
    exact h
  refine compile_eq_ok_iff.2 ⟨fun p hp => ?_, ?_⟩
  · obtain rfl : p = (page, drawing) := List.mem_singleton.1 hp
    exact fault?_eq_none_iff.1 hfault
  · show _ = ((({} : Draft).enterDrawing page drawing).layout).unify
      (({} : Draft).enterDrawing page drawing).classes
    rw [enterDrawing_of_inOrder h, nameless, ← Layout.unify_renameStyles]
    rfl

end Drawing

/-! ### Layouts with the page replaced -/

namespace Layout

/-- The layout with another page in place of one: under its key, and in the names of styles. -/
def replacePage (page other : String) (layout : Layout) : Layout where
  fonts := layout.fonts
  styles := .ofList <| layout.styles.pairs.map fun p =>
    (RenderLayout.replacePage page other p.1, p.2)
  pages := .ofList <| layout.pages.pairs.map fun p =>
    (if p.1 = page then other else p.1,
      p.2.map (·.renameStyle (RenderLayout.replacePage page other)))

/-- The layout has one page, and all its styles are named after that. -/
structure NamedAfter (page : String) (layout : Layout) : Prop where
  pages : layout.pages.keys = [page]
  styles : ∀ name ∈ layout.styles.keys, ∃ rest, name = classStyleName page rest
  components : ∀ name components, layout.pages.find? name = some components →
    ∀ component ∈ components, ∃ rest, component.style = some (classStyleName page rest)

end Layout

namespace Drawing

lemma pages_stock (drawing : Drawing) : drawing.stock.pages = .empty := by
  have hrun (shapes : List (Placed × Nat)) (draft : Draft) :
      (shapes.foldl drawing.enterShape draft).pages = draft.pages := by
    induction shapes generalizing draft with
    | nil => rfl
    | cons p rest ih =>
      rw [List.foldl_cons, ih]
      exact p.1.pages_enterFonts draft
  rw [stock, hrun, Draft.pages_addClasses]

/-- The name that is left of one of equal styles, without the page. -/
def kept (drawing : Drawing) : String → String :=
  survivor (drawing.stock.layout.replacements drawing.stock.classes)

lemma pairs_pages_nameless (page : String) (drawing : Drawing) :
    (drawing.nameless page).pages.pairs =
      [(page, drawing.figures.map (·.renameStyle drawing.kept))] := by
  show ((drawing.stock.pages.insert page drawing.figures).map _).pairs = _
  rw [pages_stock]
  rfl

lemma exists_style_of_mem_figures {component : Component} (h : component ∈ drawing.figures) :
    ∃ name, component.style = some name := by
  obtain ⟨p, -, rfl⟩ := List.mem_map.1 h
  exact ⟨_, p.1.drawn_style drawing _⟩

lemma namedAfter_nameless (page : String) (drawing : Drawing) :
    ((drawing.nameless page).renameStyles (classStyleName page)
      (strictMono_classStyleName page)).NamedAfter page where
  pages := by
    show ((drawing.nameless page).pages.pairs.map _).map _ = _
    rw [pairs_pages_nameless]
    rfl
  styles name hname :=
    Table.exists_of_contains_mapKeys (strictMono_classStyleName page) (Table.mem_keys_iff.1 hname)
  components name components hfind component hcomponent := by
    have hmem : (name, components) ∈ (drawing.nameless page).pages.pairs.map _ :=
      Table.find?_eq_some_iff.1 hfind
    rw [pairs_pages_nameless] at hmem
    obtain ⟨-, rfl⟩ := Prod.mk.inj (List.mem_singleton.1 hmem)
    obtain ⟨other, hother, rfl⟩ := List.mem_map.1 hcomponent
    obtain ⟨figure, hfigure, rfl⟩ := List.mem_map.1 hother
    obtain ⟨rest, hrest⟩ := exists_style_of_mem_figures hfigure
    exact ⟨drawing.kept rest, by simp [Component.renameStyle, hrest]⟩

/-- Replacing the page in what a drawing becomes gives what it becomes as the other page. -/
lemma replacePage_nameless (page other : String) (drawing : Drawing) :
    ((drawing.nameless page).renameStyles (classStyleName page)
        (strictMono_classStyleName page)).replacePage page other =
      (drawing.nameless other).renameStyles (classStyleName other)
        (strictMono_classStyleName other) := by
  have hname : RenderLayout.replacePage page other ∘ classStyleName page = classStyleName other :=
    funext (replacePage_classStyleName page other)
  have hcomponent (component : Component) :
      (component.renameStyle (classStyleName page)).renameStyle
          (RenderLayout.replacePage page other) =
        component.renameStyle (classStyleName other) := by
    unfold Component.renameStyle
    simp only [Option.map_map, hname]
  unfold Layout.replacePage Layout.renameStyles
  congr 1
  · rw [← Table.ofList_pairs ((drawing.nameless other).styles.mapKeys _ _)]
    simp only [Table.mapKeys, List.map_map, Function.comp_def, replacePage_classStyleName]
    rfl
  · rw [← Table.ofList_pairs ((drawing.nameless other).pages.map _)]
    simp only [Table.map, pairs_pages_nameless, List.map_map, List.map_cons, List.map_nil, if_true,
      Function.comp_def, hcomponent]

end Drawing

/-- **A page with another name**: a drawing that has a fault as the only page has the same fault
under any other name, and a drawing that becomes a layout becomes the same one, but for the page in
the key and at the front of all style names. -/
theorem compile_replacePage (canvas : Canvas) (drawing : Drawing) (page other : String) :
    (∃ fault, compile canvas (.ofList [(page, drawing)]) = .error (.page page fault) ∧
      compile canvas (.ofList [(other, drawing)]) =
        .error (.page other (fault.replacePage page other))) ∨
    ∃ layout, compile canvas (.ofList [(page, drawing)]) = .ok layout ∧ layout.NamedAfter page ∧
      compile canvas (.ofList [(other, drawing)]) = .ok (layout.replacePage page other) := by
  have hfault (name : String) : fault? (compile canvas (.ofList [(name, drawing)])) =
      (Drawing.pageFault? canvas name drawing).map (.page name) := by
    rw [fault?_compile, ← Drawing.fault?_toCheckedPage]
    show [(name, drawing)].findSome? _ = _
    rw [List.findSome?_cons, List.findSome?_nil]
    cases fault? (drawing.toCheckedPage canvas name) <;> rfl
  cases h : Drawing.pageFault? canvas page drawing with
  | some fault =>
    refine Or.inl ⟨fault, ?_, ?_⟩
    · rw [← fault?_eq_some_iff, hfault, h, Option.map_some]
    · rw [← fault?_eq_some_iff, hfault, ← Drawing.pageFault?_replacePage page other, h,
        Option.map_some, Option.map_some]
  | none =>
    have horder := Drawing.pageFault?_eq_none_iff.1 h
    refine Or.inr ⟨_, Drawing.compile_of_inOrder horder page,
      Drawing.namedAfter_nameless page drawing, ?_⟩
    rw [Drawing.compile_of_inOrder horder other, Drawing.replacePage_nameless]

end RenderLayout
