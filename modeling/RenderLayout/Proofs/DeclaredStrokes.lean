import RenderLayout.Proofs.ClassStyles

/-!
Strokes, from the texts that declare them.

A class has the stroke that its last rule declares, and a shape the first one of its own
declarations and of those of its classes. What is entered last under a name has its stroke from the
texts of that class or shape.
-/

namespace RenderLayout

/-- The stroke that declarations give, if they can be read. -/
def Declarations.declared? (text : String) : Option Edge := (stroke? text).toOption.join

/-- The first stroke that one of several texts declares. -/
def Declarations.firstStroke? (texts : List String) : Option Edge := texts.findSome? declared?

lemma Declarations.firstStroke?_cons (text : String) (texts : List String) :
    firstStroke? (text :: texts) = (declared? text).or (firstStroke? texts) := by
  rw [firstStroke?, List.findSome?_cons]
  cases declared? text with
  | none => rfl
  | some edge => rfl

lemma Style.stroke_orElse (style base : Style) :
    (style.orElse base).stroke = style.stroke.or base.stroke := by
  simp [orElse]

lemma Style.stroke_ofDeclarations {text : String} {style : Style}
    (h : ofDeclarations text = .ok style) : style.stroke = Declarations.declared? text := by
  obtain ⟨fill, -, h⟩ := bind_eq_ok_iff.1 h
  obtain ⟨stroke, hstroke, h⟩ := bind_eq_ok_iff.1 h
  obtain rfl := Except.ok.inj h
  rw [Declarations.declared?, hstroke]
  rfl

namespace Drawing

variable {drawing : Drawing} {page name className : String} {style : Style} {result : Page}

/-! ### Texts of styles -/

/-- The declarations of a class: those of its last rule. -/
def classText? (drawing : Drawing) (className : String) : Option String :=
  ((drawing.sheets.flatMap Sheet.rules).reverse.find? (·.className = className)).map (·.body)

/-- The declarations of the classes in a list. -/
def classTexts (drawing : Drawing) (words : List (List Char)) : List String :=
  words.filterMap fun word => drawing.classText? (String.ofList word)

/-- The declarations that a shape is drawn with: its own, then those of its classes. -/
def texts (drawing : Drawing) (shape : Shape) : List String :=
  shape.declarations :: drawing.classTexts (Text.words shape.classList.toList)

/-- The texts of the component of a page that goes by a name. -/
def componentTexts? (drawing : Drawing) (page name : String) : Option (List String) :=
  drawing.placed.zipIdx.findSome? fun p =>
    if componentStyleName page p.1.shape.kind p.2 = name then some (drawing.texts p.1.shape)
    else none

/-- The texts that a page leaves under a name: those of a component, or else that of a class. -/
def textsUnder? (drawing : Drawing) (page name : String) : Option (List String) :=
  (drawing.componentTexts? page name).or
    ((Text.after? (page ++ "-").toList name.toList).bind
      fun className => (drawing.classText? (String.ofList className)).map ([·]))

/-! ### Strokes of styles -/

lemma classStyle?_eq (drawing : Drawing) (className : String) :
    drawing.classStyle? className =
      (drawing.classText? className).bind fun text => (Style.ofDeclarations text).toOption := by
  rw [classText?, Option.bind_map]
  rfl

lemma stroke_classStyle? (h : drawing.classStyle? className = some style) :
    ∃ text, drawing.classText? className = some text ∧
      style.stroke = Declarations.declared? text := by
  rw [classStyle?_eq, Option.bind_eq_some_iff] at h
  obtain ⟨text, htext, hstyle⟩ := h
  exact ⟨text, htext, Style.stroke_ofDeclarations (toOption_eq_some_iff.1 hstyle)⟩

/-- A style has its own stroke, or else the first one of its classes. -/
lemma stroke_overClasses? {words : List (List Char)} {own : Style}
    (h : drawing.overClasses? own words = some style) :
    style.stroke = own.stroke.or (Declarations.firstStroke? (drawing.classTexts words)) := by
  unfold overClasses? at h
  induction words generalizing own with
  | nil =>
    obtain rfl : own = style := by simpa using h
    exact Option.or_none.symm
  | cons word words ih =>
    rw [List.foldlM_cons] at h
    obtain ⟨next, hnext, h⟩ := Option.bind_eq_some_iff.1 h
    obtain ⟨base, hbase, rfl⟩ := Option.map_eq_some_iff.1 hnext
    obtain ⟨text, htext, hstroke⟩ := stroke_classStyle? hbase
    have htexts : drawing.classTexts (word :: words) = text :: drawing.classTexts words := by
      rw [classTexts, List.filterMap_cons, htext]
      rfl
    rw [ih h, Style.stroke_orElse, hstroke, htexts, Declarations.firstStroke?_cons, Option.or_assoc]

lemma stroke_ownStyle? {shape : Shape} (h : drawing.ownStyle? shape = some style) :
    style.stroke = Declarations.firstStroke? (drawing.texts shape) := by
  obtain ⟨own, hown, h⟩ := Option.bind_eq_some_iff.1 h
  rw [stroke_overClasses? h, Style.stroke_ofDeclarations (toOption_eq_some_iff.1 hown), texts,
    Declarations.firstStroke?_cons]

/-! ### Strokes under names -/

variable (h : drawing.toPage page = .ok result)
include h

lemma exists_style_of_classText? {text : String}
    (htext : drawing.classText? className = some text) :
    ∃ style, Style.ofDeclarations text = .ok style := by
  obtain ⟨classes, hclasses, -⟩ := toPage_eq_ok_iff.1 h
  obtain ⟨pairs, hpairs, -⟩ := classStyles_eq_ok_iff.1 hclasses
  obtain ⟨rule, hrule, rfl⟩ := Option.map_eq_some_iff.1 htext
  have hmem := List.mem_reverse.1 (List.mem_of_find?_eq_some hrule)
  obtain ⟨i, hi⟩ := List.mem_iff_getElem?.1 hmem
  obtain ⟨p, -, hp⟩ := forall₂_getElem?_left hpairs hi
  exact ⟨p.2, (styleOf_eq_ok_iff.1 hp).2⟩

lemma exists_ownStyle? {placed : Placed} (hplaced : placed ∈ drawing.placed) :
    ∃ style, drawing.ownStyle? placed.shape = some style := by
  obtain ⟨number, hnumber⟩ := List.mem_iff_getElem?.1 hplaced
  obtain ⟨classes, style, hclasses, hstyle, -⟩ := Draft.find?_enterDrawing_component h {} hnumber
  exact ⟨style, (style_eq_ok_iff hclasses).1 hstyle⟩

/-- On a page that is made a class has the stroke of its text. -/
lemma stroke_class (className : String) :
    (drawing.classStyle? className).map (·.stroke) =
      (drawing.classText? className).map Declarations.declared? := by
  rw [classStyle?_eq]
  cases htext : drawing.classText? className with
  | none => rfl
  | some text =>
    obtain ⟨style, hstyle⟩ := exists_style_of_classText? h htext
    rw [Option.bind_some, toOption_eq_some_iff.2 hstyle, Option.map_some, Option.map_some,
      Style.stroke_ofDeclarations hstyle]

/-- On a page that is made a component has the first stroke of its texts. -/
lemma stroke_componentStyle? (name : String) :
    (drawing.componentStyle? page name).map (·.stroke) =
      (drawing.componentTexts? page name).map Declarations.firstStroke? := by
  unfold componentStyle? componentTexts?
  rw [List.map_findSome?, List.map_findSome?]
  refine findSome?_congr fun p hp => ?_
  obtain ⟨style, hstyle⟩ := exists_ownStyle? h (List.fst_mem_of_mem_zipIdx hp)
  dsimp only [Function.comp]
  split
  · rw [hstyle, Option.map_some, Option.map_some, stroke_ownStyle? hstyle]
  · rfl

lemma stroke_styleUnder? (name : String) :
    (drawing.styleUnder? page name).map (·.stroke) =
      (drawing.textsUnder? page name).map Declarations.firstStroke? := by
  rw [styleUnder?, textsUnder?, Option.map_or, Option.map_or, stroke_componentStyle? h]
  cases Text.after? (page ++ "-").toList name.toList with
  | none => rfl
  | some className =>
    have hsingle : Declarations.firstStroke? ∘ ([·]) = Declarations.declared? := by
      funext text
      rw [Function.comp, Declarations.firstStroke?_cons]
      exact Option.or_none
    rw [Option.bind_some, Option.bind_some, stroke_class h, Option.map_map, hsingle]

end Drawing

/-- The texts that come last under a name, the pages taken in order. -/
def lastTexts? (drawings : Table Drawing) (name : String) : Option (List String) :=
  drawings.pairs.reverse.findSome? fun p => p.2.textsUnder? p.1 name

/-- **The stroke under a name** is the first one in the texts that come last under it. -/
lemma stroke_lastStyle? {drawings : Table Drawing}
    (hmade : ∀ p ∈ drawings.pairs, ∃ result, p.2.toPage p.1 = .ok result) (name : String) :
    (lastStyle? drawings name).map (·.stroke) =
      (lastTexts? drawings name).map Declarations.firstStroke? := by
  unfold lastStyle? lastTexts?
  rw [List.map_findSome?, List.map_findSome?]
  refine findSome?_congr fun p hp => ?_
  obtain ⟨result, hresult⟩ := hmade p (List.mem_reverse.1 hp)
  exact Drawing.stroke_styleUnder? hresult name

end RenderLayout
