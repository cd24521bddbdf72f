import RenderLayout.Proofs.Names
import RenderLayout.Proofs.StyleEquality
import RenderLayout.Proofs.Tables
import RenderLayout.Proofs.Translation

/-!
The style of a shape, from the drawing alone.

A class has the style of its last rule in the sheets of the drawing. A shape has its own
declarations, closed with its classes in the order of its list. A page that is made enters these
styles, each under its name.
-/

namespace RenderLayout

namespace Drawing

/-- The style of a class: that of its last rule. -/
def classStyle? (drawing : Drawing) (className : String) : Option Style := do
  let rule ← (drawing.sheets.flatMap Sheet.rules).reverse.find? (·.className = className)
  (Style.ofDeclarations rule.body).toOption

/-- The style with its open fields as in the classes of a list. -/
def overClasses? (drawing : Drawing) (style : Style) (words : List (List Char)) : Option Style :=
  words.foldlM (fun style word => style.orElse <$> drawing.classStyle? (String.ofList word)) style

/-- The style of a shape: its own declarations, then its classes. -/
def ownStyle? (drawing : Drawing) (shape : Shape) : Option Style := do
  let own ← (Style.ofDeclarations shape.declarations).toOption
  drawing.overClasses? own (Text.words shape.classList.toList)

variable {drawing : Drawing} {page className name : String} {classes : Table Style}

/-! ### Classes -/

lemma styleOf_eq_ok_iff {rule : Sheet.Rule} {p : String × Style} :
    Sheet.styleOf page rule = .ok p ↔
      p.1 = classStyleName page rule.className ∧ Style.ofDeclarations rule.body = .ok p.2 := by
  obtain ⟨key, style⟩ := p
  unfold Sheet.styleOf
  dsimp only
  cases Style.ofDeclarations rule.body with
  | error number => simp
  | ok style' => simp [eq_comm]

lemma classStyles_eq_ok_iff : drawing.classStyles page = .ok classes ↔
    ∃ pairs, List.Forall₂ (fun rule p => Sheet.styleOf page rule = .ok p)
      (drawing.sheets.flatMap Sheet.rules) pairs ∧ classes = .ofList pairs := by
  unfold classStyles Sheet.classStyles
  rw [mapError_eq_ok_iff, bind_eq_ok_iff]
  refine exists_congr fun pairs => and_congr mapM_eq_ok_iff ?_
  exact ⟨fun h => (Except.ok.inj h).symm, fun h => congrArg Except.ok h.symm⟩

/-- Of the rules of a class the last one counts, whatever the page is called. -/
lemma find?_styles_eq {rules : List Sheet.Rule} {pairs : List (String × Style)}
    (h : List.Forall₂ (fun rule p => Sheet.styleOf page rule = .ok p) rules pairs) :
    (pairs.find? (·.1 = classStyleName page className)).map (·.2) =
      (rules.find? (·.className = className)).bind
        fun rule => (Style.ofDeclarations rule.body).toOption := by
  induction h with
  | nil => rfl
  | @cons rule p rules pairs hp _ ih =>
    obtain ⟨hkey, hstyle⟩ := styleOf_eq_ok_iff.1 hp
    by_cases hname : rule.className = className
    · simp [hkey, hname, hstyle, Except.toOption]
    · have hne : p.1 ≠ classStyleName page className := by
        rw [hkey]
        exact fun heq => hname (classStyleName_inj heq)
      simpa [List.find?_cons, hname, hne] using ih

lemma find?_classStyles (h : drawing.classStyles page = .ok classes) (className : String) :
    classes.find? (classStyleName page className) = drawing.classStyle? className := by
  obtain ⟨pairs, hpairs, rfl⟩ := classStyles_eq_ok_iff.1 h
  rw [Table.find?_ofList, find?_styles_eq (List.rel_reverse hpairs)]
  rfl

lemma className_of_contains (h : drawing.classStyles page = .ok classes)
    (hname : classes.contains name = true) : ∃ className, name = classStyleName page className := by
  obtain ⟨pairs, hpairs, rfl⟩ := classStyles_eq_ok_iff.1 h
  obtain ⟨style, hstyle⟩ := Table.contains_iff.1 hname
  rw [Table.find?_ofList, Option.map_eq_some_iff] at hstyle
  obtain ⟨p, hp, -⟩ := hstyle
  obtain ⟨i, hi⟩ := List.mem_iff_getElem?.1 (List.mem_reverse.1 (List.mem_of_find?_eq_some hp))
  obtain ⟨rule, -, hrule⟩ := forall₂_getElem?_right hpairs hi
  have hkey : p.1 = name := by simpa using List.find?_some hp
  exact ⟨rule.className, by rw [← hkey, (styleOf_eq_ok_iff.1 hrule).1]⟩

/-- A class has a style if a rule of the sheets has its name. -/
lemma contains_classStyles (h : drawing.classStyles page = .ok classes) (className : String) :
    classes.contains (classStyleName page className) =
      (drawing.sheets.flatMap Sheet.rules).any (·.className = className) := by
  rw [Table.contains, find?_classStyles h, classStyle?, Bool.eq_iff_iff, List.any_eq_true]
  constructor
  · intro hsome
    obtain ⟨style, hstyle⟩ := Option.isSome_iff_exists.1 hsome
    obtain ⟨rule, hrule, -⟩ := Option.bind_eq_some_iff.1 hstyle
    have hname := List.find?_some hrule
    exact ⟨rule, List.mem_reverse.1 (List.mem_of_find?_eq_some hrule), hname⟩
  · rintro ⟨rule, hmem, hname⟩
    have hfound : ((drawing.sheets.flatMap Sheet.rules).reverse.find?
        (·.className = className)).isSome = true :=
      List.find?_isSome.2 ⟨rule, List.mem_reverse.2 hmem, hname⟩
    obtain ⟨last, hlast⟩ := Option.isSome_iff_exists.1 hfound
    obtain ⟨pairs, hpairs, -⟩ := classStyles_eq_ok_iff.1 h
    obtain ⟨i, hi⟩ := List.mem_iff_getElem?.1 (List.mem_reverse.1 (List.mem_of_find?_eq_some hlast))
    obtain ⟨p, -, hp⟩ := forall₂_getElem?_left hpairs hi
    have hstyle := toOption_eq_some_iff.2 (styleOf_eq_ok_iff.1 hp).2
    exact Option.isSome_iff_exists.2 ⟨p.2, Option.bind_eq_some_iff.2 ⟨last, hlast, hstyle⟩⟩

/-- What holds of the style of every rule holds of every class. -/
lemma of_classStyle? {P : Style → Prop} {style : Style}
    (hrules : ∀ rule ∈ drawing.sheets.flatMap Sheet.rules, ∀ style,
      Style.ofDeclarations rule.body = .ok style → P style)
    (h : drawing.classStyle? className = some style) : P style := by
  obtain ⟨rule, hrule, hstyle⟩ := Option.bind_eq_some_iff.1 h
  have hmem := List.mem_reverse.1 (List.mem_of_find?_eq_some hrule)
  exact hrules rule hmem style (toOption_eq_some_iff.1 hstyle)

/-! ### Shapes -/

lemma overClasses_eq_ok_iff (h : drawing.classStyles page = .ok classes) {style result : Style}
    {words : List (List Char)} :
    overClasses page classes style words = .ok result ↔
      drawing.overClasses? style words = some result := by
  unfold overClasses?
  induction words generalizing style with
  | nil => simp [overClasses]
  | cons word words ih =>
    rw [overClasses, List.foldlM_cons, find?_classStyles h]
    cases drawing.classStyle? (String.ofList word) with
    | none => simp
    | some base => exact ih

lemma style_eq_ok_iff (h : drawing.classStyles page = .ok classes) {number : Nat} {shape : Shape}
    {style : Style} :
    PageContext.style ⟨page, drawing, classes⟩ number shape = .ok style ↔
      drawing.ownStyle? shape = some style := by
  unfold PageContext.style cascade ownStyle?
  rw [bind_eq_ok_iff]
  simp only [mapError_eq_ok_iff, overClasses_eq_ok_iff h, bind, Option.bind_eq_some_iff,
    toOption_eq_some_iff]

/-- What holds of the declarations of a shape and of every rule, and of a style over another one,
holds of the style of the shape. -/
lemma of_ownStyle? {P : Style → Prop} {shape : Shape} {style : Style}
    (horElse : ∀ style base, P style → P base → P (style.orElse base))
    (hrules : ∀ rule ∈ drawing.sheets.flatMap Sheet.rules, ∀ style,
      Style.ofDeclarations rule.body = .ok style → P style)
    (hown : ∀ style, Style.ofDeclarations shape.declarations = .ok style → P style)
    (h : drawing.ownStyle? shape = some style) : P style := by
  have hover (words : List (List Char)) (own : Style) (hP : P own)
      (h : drawing.overClasses? own words = some style) : P style := by
    unfold overClasses? at h
    induction words generalizing own with
    | nil =>
      obtain rfl : own = style := by simpa using h
      exact hP
    | cons word words ih =>
      rw [List.foldlM_cons] at h
      obtain ⟨next, hnext, h⟩ := Option.bind_eq_some_iff.1 h
      obtain ⟨base, hbase, rfl⟩ := Option.map_eq_some_iff.1 hnext
      exact ih _ (horElse own base hP (of_classStyle? hrules hbase)) h
  obtain ⟨own, hdeclared, h⟩ := Option.bind_eq_some_iff.1 h
  exact hover _ own (hown own (toOption_eq_some_iff.1 hdeclared)) h

lemma nanFree_ownStyle? {shape : Shape} {style : Style} (h : drawing.ownStyle? shape = some style) :
    style.NaNFree :=
  of_ownStyle? (fun _ _ hs hb => hs.orElse hb) (fun _ _ _ hs => Style.nanFree_ofDeclarations hs)
    (fun _ hs => Style.nanFree_ofDeclarations hs) h

end Drawing

end RenderLayout
