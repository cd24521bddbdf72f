import RenderLayout.Proofs.Cascade

/-!
When there is a layout, and what is told if there is none.

There is a layout if every page is in order by itself. Otherwise the first page that is not is told,
and of that page its first fault: the canvas comes before the texts, these come before the rules of
the classes, and these before the styles of the shapes.
-/

namespace RenderLayout

variable {canvas : Canvas} {drawing : Drawing} {page : String} {classes : Table Style}
variable {number : Nat} {placed : Placed}

/-! ### Pages in order -/

namespace Drawing

/-- What a page has to satisfy, whatever its name and the other pages are. -/
structure InOrder (canvas : Canvas) (drawing : Drawing) : Prop where
  width : (drawing.canvas.width == canvas.width) = true
  height : (drawing.canvas.height == canvas.height) = true
  /-- Every text has one span, which has none. -/
  texts : ∀ layer ∈ drawing.layers, ∀ text, .text text ∈ layer →
    ∃ span, text.spans = [span] ∧ span.spans = []
  rules : ∀ sheet ∈ drawing.sheets, ∀ rule ∈ Sheet.rules sheet,
    ∃ style, Style.ofDeclarations rule.body = .ok style
  shapes : ∀ layer ∈ drawing.layers, ∀ shape ∈ layer,
    ∃ style, Style.ofDeclarations shape.declarations = .ok style
  /-- Every class of a shape is one of the drawing's own sheets. -/
  classes : ∀ layer ∈ drawing.layers, ∀ shape ∈ layer,
    ∀ word ∈ Text.words shape.classList.toList,
      ∃ sheet ∈ drawing.sheets, ∃ rule ∈ Sheet.rules sheet, rule.className = String.ofList word

/-! ### Faults in order -/

def canvasFault? (canvas : Canvas) (drawing : Drawing) : Option PageFault :=
  if drawing.canvas.width == canvas.width && drawing.canvas.height == canvas.height then none
  else some (.wrongCanvas drawing.canvas canvas)

/-- Spans within spans are told before their number. -/
def textFault? (placed : Placed) : Option PageFault :=
  match placed.shape with
  | .text text =>
    if text.spans.any (!·.spans.isEmpty) then some (.nestedSpan placed.layer placed.index)
    else if text.spans.length = 1 then none
    else some (.spanCount placed.layer placed.index text.spans.length)
  | _ => none

/-- A number that cannot be read is told with the style that it stands in. -/
def numberFault? (name declarations : String) : Option PageFault :=
  (fault? (Style.ofDeclarations declarations)).map (.badNumber name)

def ruleFault? (page : String) (rule : Sheet.Rule) : Option PageFault :=
  numberFault? (classStyleName page rule.className) rule.body

def classFault? (page : String) (drawing : Drawing) (word : List Char) : Option PageFault :=
  if (drawing.sheets.flatMap Sheet.rules).any (·.className = String.ofList word) then none
  else some (.unknownStyle (classStyleName page (String.ofList word)))

/-- The number of a shape is told before its first class that is not known. -/
def shapeFault? (page : String) (drawing : Drawing) (shape : Shape) (number : Nat) :
    Option PageFault :=
  (numberFault? (componentStyleName page shape.kind number) shape.declarations).or
    ((Text.words shape.classList.toList).findSome? (classFault? page drawing))

/-- The first fault of a page. -/
def pageFault? (canvas : Canvas) (page : String) (drawing : Drawing) : Option PageFault :=
  (drawing.canvasFault? canvas).or <|
    (drawing.placed.findSome? textFault?).or <|
      ((drawing.sheets.flatMap Sheet.rules).findSome? (ruleFault? page)).or <|
        drawing.placed.zipIdx.findSome? fun p => shapeFault? page drawing p.1.shape p.2

/-! ### What each stage tells -/

lemma fault?_singleSpan (text : TextBox) (layer index : Nat) :
    fault? (text.singleSpan layer index) = textFault? ⟨layer, index, .text text⟩ := by
  unfold TextBox.singleSpan textFault?
  dsimp only
  split
  · rfl
  · rcases text.spans with _ | ⟨span, _ | ⟨other, rest⟩⟩
    · rfl
    · rfl
    · simp

lemma fault?_check_placed (placed : Placed) : fault? placed.check = textFault? placed := by
  obtain ⟨layer, index, shape⟩ := placed
  unfold Placed.check
  cases shape with
  | rect r => rfl
  | circle c => rfl
  | text t =>
    rw [← fault?_singleSpan]
    exact fault?_map (t.singleSpan layer index) fun _ => ()

lemma fault?_check (canvas : Canvas) (drawing : Drawing) :
    fault? (drawing.check canvas) =
      (drawing.canvasFault? canvas).or (drawing.placed.findSome? textFault?) := by
  have hcanvas : fault? (drawing.checkCanvas canvas) = drawing.canvasFault? canvas := by
    unfold checkCanvas canvasFault?
    show fault? (if (_ && _ : Bool) = true then _ else _) = _
    split <;> rfl
  unfold check
  rw [fault?_seq, hcanvas, checkTexts, fault?_forM]
  simp only [fault?_check_placed]

lemma fault?_classStyles (page : String) (drawing : Drawing) :
    fault? (drawing.classStyles page) =
      (drawing.sheets.flatMap Sheet.rules).findSome? (ruleFault? page) := by
  have hrule (rule : Sheet.Rule) :
      (fault? (Sheet.styleOf page rule)).map (fun bad => PageFault.badNumber bad.name bad.number) =
        ruleFault? page rule := by
    unfold Sheet.styleOf ruleFault? numberFault?
    dsimp only
    cases Style.ofDeclarations rule.body <;> rfl
  unfold classStyles Sheet.classStyles
  rw [fault?_mapError, bind_pure_comp, fault?_map, fault?_mapM, List.map_findSome?]
  simp only [Function.comp_def, hrule]

lemma fault?_overClasses (h : drawing.classStyles page = .ok classes) (style : Style)
    (words : List (List Char)) :
    fault? (overClasses page classes style words) =
      words.findSome? (classFault? page drawing) := by
  induction words generalizing style with
  | nil => rfl
  | cons word words ih =>
    have hknown := contains_classStyles h (String.ofList word)
    rw [overClasses, List.findSome?_cons, classFault?, ← hknown, Table.contains]
    cases classes.find? (classStyleName page (String.ofList word)) with
    | none => rfl
    | some base => exact ih (style.orElse base)

lemma fault?_style (h : drawing.classStyles page = .ok classes) (shape : Shape) (number : Nat) :
    fault? (PageContext.style ⟨page, drawing, classes⟩ number shape) =
      shapeFault? page drawing shape number := by
  unfold PageContext.style cascade shapeFault? numberFault?
  rw [fault?_bind]
  cases Style.ofDeclarations shape.declarations with
  | error number => rfl
  | ok own => exact fault?_overClasses h own _

lemma fault?_made (h : drawing.classStyles page = .ok classes) (placed : Placed) (number : Nat) :
    fault? (PageContext.made ⟨page, drawing, classes⟩ placed number) =
      (textFault? placed).or (shapeFault? page drawing placed.shape number) := by
  unfold PageContext.made
  rw [fault?_seq, fault?_check_placed, fault?_seq, fault?_style h, fault?_pure, Option.or_none]

lemma fault?_toPage (htexts : drawing.placed.findSome? textFault? = none) (page : String) :
    fault? (drawing.toPage page) =
      ((drawing.sheets.flatMap Sheet.rules).findSome? (ruleFault? page)).or
        (drawing.placed.zipIdx.findSome? fun p => shapeFault? page drawing p.1.shape p.2) := by
  have hrules := fault?_classStyles page drawing
  unfold toPage
  rw [fault?_bind]
  cases hclasses : drawing.classStyles page with
  | error fault =>
    rw [hclasses, fault?_error] at hrules
    rw [← hrules]
    rfl
  | ok classes =>
    rw [hclasses, fault?_ok] at hrules
    rw [← hrules, Option.none_or]
    show fault? (drawing.components page classes) = _
    rw [components, fault?_mapM]
    refine findSome?_congr fun p hp => ?_
    have hp : p.1 ∈ drawing.placed := List.fst_mem_of_mem_zipIdx hp
    rw [fault?_made hclasses, List.findSome?_eq_none_iff.1 htexts p.1 hp, Option.none_or]

/-- **The first fault of a page** is what its check and its translation tell, one after another. -/
lemma fault?_toCheckedPage (canvas : Canvas) (page : String) (drawing : Drawing) :
    fault? (drawing.toCheckedPage canvas page) = pageFault? canvas page drawing := by
  unfold toCheckedPage pageFault?
  rw [fault?_seq, fault?_check, Option.or_assoc]
  cases htexts : drawing.placed.findSome? textFault? with
  | some fault => rfl
  | none => rw [fault?_toPage htexts]

/-! ### Pages without a fault -/

lemma canvasFault?_eq_none_iff : drawing.canvasFault? canvas = none ↔
    (drawing.canvas.width == canvas.width) = true ∧
      (drawing.canvas.height == canvas.height) = true := by
  simp [canvasFault?]

lemma textFault?_eq_none_iff : textFault? placed = none ↔
    ∀ text, placed.shape = .text text → ∃ span, text.spans = [span] ∧ span.spans = [] := by
  obtain ⟨layer, index, shape⟩ := placed
  cases shape with
  | rect r => simp [textFault?]
  | circle c => simp [textFault?]
  | text t =>
    rw [← fault?_singleSpan, fault?_eq_none_iff]
    simp only [TextBox.singleSpan_eq_ok_iff, Shape.text.injEq, forall_eq']

lemma numberFault?_eq_none_iff {name declarations : String} :
    numberFault? name declarations = none ↔
      ∃ style, Style.ofDeclarations declarations = .ok style := by
  rw [numberFault?, Option.map_eq_none_iff, fault?_eq_none_iff]

lemma classFault?_eq_none_iff {word : List Char} : classFault? page drawing word = none ↔
    ∃ sheet ∈ drawing.sheets, ∃ rule ∈ Sheet.rules sheet, rule.className = String.ofList word := by
  simp only [classFault?, ite_eq_left_iff, reduceCtorEq, imp_false, not_not, List.any_eq_true,
    List.mem_flatMap, decide_eq_true_eq]
  constructor
  · rintro ⟨rule, ⟨sheet, hsheet, hrule⟩, hname⟩
    exact ⟨sheet, hsheet, rule, hrule, hname⟩
  · rintro ⟨sheet, hsheet, rule, hrule, hname⟩
    exact ⟨rule, ⟨sheet, hsheet, hrule⟩, hname⟩

lemma shapeFault?_eq_none_iff {shape : Shape} : shapeFault? page drawing shape number = none ↔
    (∃ style, Style.ofDeclarations shape.declarations = .ok style) ∧
      ∀ word ∈ Text.words shape.classList.toList, ∃ sheet ∈ drawing.sheets,
        ∃ rule ∈ Sheet.rules sheet, rule.className = String.ofList word := by
  rw [shapeFault?, Option.or_eq_none_iff, numberFault?_eq_none_iff, List.findSome?_eq_none_iff]
  simp only [classFault?_eq_none_iff]

lemma forall_placed_iff {P : Shape → Prop} :
    (∀ placed ∈ drawing.placed, P placed.shape) ↔
      ∀ layer ∈ drawing.layers, ∀ shape ∈ layer, P shape := by
  unfold placed
  constructor
  · intro h layer hlayer shape hshape
    obtain ⟨n, hn⟩ := List.mem_iff_getElem?.1 hlayer
    obtain ⟨index, hindex⟩ := List.mem_iff_getElem?.1 hshape
    refine h ⟨n + 1, index, shape⟩ (List.mem_flatMap.2 ⟨(layer, n), ?_, List.mem_map.2 ?_⟩)
    · exact List.mem_zipIdx_iff_getElem?.2 hn
    · exact ⟨(shape, index), List.mem_zipIdx_iff_getElem?.2 hindex, rfl⟩
  · intro h placed hplaced
    obtain ⟨⟨layer, n⟩, hlayer, hplaced⟩ := List.mem_flatMap.1 hplaced
    obtain ⟨⟨shape, index⟩, hshape, rfl⟩ := List.mem_map.1 hplaced
    exact h layer (List.fst_mem_of_mem_zipIdx hlayer) shape (List.fst_mem_of_mem_zipIdx hshape)

lemma forall_zipIdx_placed_iff {P : Shape → Prop} :
    (∀ p ∈ drawing.placed.zipIdx, P p.1.shape) ↔
      ∀ layer ∈ drawing.layers, ∀ shape ∈ layer, P shape := by
  rw [← forall_placed_iff]
  constructor
  · intro h placed hplaced
    obtain ⟨n, hn⟩ := List.mem_iff_getElem?.1 hplaced
    exact h (placed, n) (List.mem_zipIdx_iff_getElem?.2 hn)
  · intro h p hp
    exact h p.1 (List.fst_mem_of_mem_zipIdx hp)

/-- A page has no fault just when it is in order. -/
lemma pageFault?_eq_none_iff : pageFault? canvas page drawing = none ↔ drawing.InOrder canvas := by
  simp only [pageFault?, Option.or_eq_none_iff, canvasFault?_eq_none_iff,
    List.findSome?_eq_none_iff, textFault?_eq_none_iff, shapeFault?_eq_none_iff, ruleFault?,
    numberFault?_eq_none_iff]
  rw [forall_placed_iff (P := fun shape => ∀ text, shape = .text text →
      ∃ span, text.spans = [span] ∧ span.spans = []),
    forall_zipIdx_placed_iff (P := fun shape =>
      (∃ style, Style.ofDeclarations shape.declarations = .ok style) ∧
        ∀ word ∈ Text.words shape.classList.toList, ∃ sheet ∈ drawing.sheets,
          ∃ rule ∈ Sheet.rules sheet, rule.className = String.ofList word)]
  constructor
  · rintro ⟨⟨hwidth, hheight⟩, htexts, hrules, hshapes⟩
    exact {
      width := hwidth
      height := hheight
      texts := fun layer hlayer text htext => htexts layer hlayer _ htext text rfl
      rules := fun sheet hsheet rule hrule =>
        hrules rule (List.mem_flatMap.2 ⟨sheet, hsheet, hrule⟩)
      shapes := fun layer hlayer shape hshape => (hshapes layer hlayer shape hshape).1
      classes := fun layer hlayer shape hshape => (hshapes layer hlayer shape hshape).2 }
  · intro h
    refine ⟨⟨h.width, h.height⟩, ?_, ?_, ?_⟩
    · rintro layer hlayer _ hshape text rfl
      exact h.texts layer hlayer text hshape
    · intro rule hrule
      obtain ⟨sheet, hsheet, hrule⟩ := List.mem_flatMap.1 hrule
      exact h.rules sheet hsheet rule hrule
    · intro layer hlayer shape hshape
      exact ⟨h.shapes layer hlayer shape hshape, h.classes layer hlayer shape hshape⟩

/-! ### Where a number stands -/

/-- A number that cannot be read stands in the style of that name. -/
inductive Miswritten (page : String) (drawing : Drawing) : String → BadNumber → Prop
  | rule {rule : Sheet.Rule} {number : BadNumber}
    (hrule : rule ∈ drawing.sheets.flatMap Sheet.rules)
    (h : Style.ofDeclarations rule.body = .error number) :
    Miswritten page drawing (classStyleName page rule.className) number
  | shape {placed : Placed} {n : Nat} {number : BadNumber}
    (hplaced : drawing.placed[n]? = some placed)
    (h : Style.ofDeclarations placed.shape.declarations = .error number) :
    Miswritten page drawing (componentStyleName page placed.shape.kind n) number

lemma of_numberFault? {name declarations context : String} {bad : BadNumber}
    (h : numberFault? name declarations = some (.badNumber context bad)) :
    context = name ∧ Style.ofDeclarations declarations = .error bad := by
  obtain ⟨number, hnumber, heq⟩ := Option.map_eq_some_iff.1 h
  cases heq
  exact ⟨rfl, fault?_eq_some_iff.1 hnumber⟩

/-- A number is told with the name of the style that it stands in. -/
lemma miswritten_of_pageFault? {context : String} {bad : BadNumber}
    (h : pageFault? canvas page drawing = some (.badNumber context bad)) :
    Miswritten page drawing context bad := by
  simp only [pageFault?, Option.or_eq_some_iff] at h
  rcases h with h | ⟨-, h | ⟨-, h | ⟨-, h⟩⟩⟩
  · unfold canvasFault? at h
    split at h <;> cases h
  · obtain ⟨placed, -, h⟩ := List.exists_of_findSome?_eq_some h
    unfold textFault? at h
    split at h
    · split at h
      · cases h
      · split at h <;> cases h
    · cases h
  · obtain ⟨rule, hrule, h⟩ := List.exists_of_findSome?_eq_some h
    obtain ⟨rfl, hbad⟩ := of_numberFault? h
    exact .rule hrule hbad
  · obtain ⟨p, hp, h⟩ := List.exists_of_findSome?_eq_some h
    rcases Option.or_eq_some_iff.1 h with h | ⟨-, h⟩
    · obtain ⟨rfl, hbad⟩ := of_numberFault? h
      exact .shape (List.mem_zipIdx_iff_getElem?.1 hp) hbad
    · obtain ⟨word, -, h⟩ := List.exists_of_findSome?_eq_some h
      unfold classFault? at h
      split at h <;> cases h

end Drawing

/-! ### Runs -/

/-- Of the pages that are not in order the first one is told. -/
lemma first_page_of_error {drawings : Table Drawing} {failure : Failure}
    (h : compile canvas drawings = .error failure) :
    ∃ page drawing fault, failure = .page page fault ∧ drawings.find? page = some drawing ∧
      Drawing.pageFault? canvas page drawing = some fault ∧
      ∀ earlier other, drawings.find? earlier = some other → earlier < page →
        other.InOrder canvas := by
  rw [← fault?_eq_some_iff, fault?_compile, List.findSome?_eq_some_iff] at h
  obtain ⟨before, ⟨page, drawing⟩, behind, hsplit, hfault, hbefore⟩ := h
  rw [Drawing.fault?_toCheckedPage] at hfault
  obtain ⟨fault, hpage, rfl⟩ := Option.map_eq_some_iff.1 hfault
  refine ⟨page, drawing, fault, rfl, ?_, hpage, ?_⟩
  · rw [Table.find?_eq_some_iff, hsplit]
    simp
  · intro earlier other hother hlt
    -- the pairs behind the page have later names, so the earlier one is before it
    have hinc := drawings.increasing
    rw [Table.find?_eq_some_iff, hsplit] at hother
    rw [hsplit] at hinc
    rcases List.mem_append.1 hother with hmem | hmem
    · have hnone := hbefore _ hmem
      rw [Option.map_eq_none_iff, Drawing.fault?_toCheckedPage] at hnone
      exact Drawing.pageFault?_eq_none_iff.1 hnone
    · have hlast : Increasing ((page, drawing) :: behind) := (List.pairwise_append.1 hinc).2.1
      exact absurd hlt (hlast.not_mem_lower hmem)

/-- **Acceptance**: there is a layout just when every page is in order by itself. Otherwise the
first page that is not in order is told, with its first fault, as it would be on its own, and a
number that cannot be read with the name of its style. -/
theorem compile_accepts (canvas : Canvas) (drawings : Table Drawing) :
    ((∃ layout, compile canvas drawings = .ok layout) ↔
      ∀ page drawing, drawings.find? page = some drawing → drawing.InOrder canvas) ∧
    ∀ failure, compile canvas drawings = .error failure →
      ∃ page drawing fault, failure = .page page fault ∧ drawings.find? page = some drawing ∧
        Drawing.pageFault? canvas page drawing = some fault ∧ ¬ drawing.InOrder canvas ∧
        (∀ earlier other, drawings.find? earlier = some other → earlier < page →
          other.InOrder canvas) ∧
        compile canvas (.ofList [(page, drawing)]) = .error failure ∧
        ∀ context bad, fault = .badNumber context bad → drawing.Miswritten page context bad := by
  constructor
  · rw [← fault?_eq_none_iff, fault?_compile, List.findSome?_eq_none_iff]
    simp only [Option.map_eq_none_iff, Drawing.fault?_toCheckedPage,
      Drawing.pageFault?_eq_none_iff, Table.find?_eq_some_iff, Prod.forall]
  · intro failure h
    obtain ⟨page, drawing, fault, rfl, hdrawing, hfault, hearlier⟩ := first_page_of_error h
    refine ⟨page, drawing, fault, rfl, hdrawing, hfault, ?_, hearlier, ?_, ?_⟩
    · rw [← Drawing.pageFault?_eq_none_iff, hfault]
      exact Option.some_ne_none fault
    · rw [← fault?_eq_some_iff, fault?_compile]
      show [(page, drawing)].findSome? _ = _
      rw [List.findSome?_cons, Drawing.fault?_toCheckedPage, hfault]
      rfl
    · rintro context bad rfl
      exact Drawing.miswritten_of_pageFault? hfault

end RenderLayout
