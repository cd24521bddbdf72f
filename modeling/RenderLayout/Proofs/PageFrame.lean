import RenderLayout.Proofs.Acceptance
import RenderLayout.Proofs.FontKeys
import RenderLayout.Proofs.References

/-!
What a drawing that is added to a draft leaves alone.

A drawing enters styles under names that begin with its page, and it chooses and uses fonts. However
far it comes before a fault, nothing is lost by that, and what belongs to other pages stays as it is.
Only a drawing without a fault puts a page in, and one with a rule that cannot be read does nothing.
-/

namespace RenderLayout

variable {drawing : Drawing} {page : String} {classes : Table Style}

/-- The name begins with the name of the page and a hyphen. -/
def IsNameOf (page name : String) : Prop := (page ++ "-").toList <+: name.toList

lemma isNameOf_classStyleName (page className : String) :
    IsNameOf page (classStyleName page className) := by
  unfold IsNameOf classStyleName
  rw [String.toList_append (t := className)]
  exact List.prefix_append _ _

lemma isNameOf_componentStyleName (page : String) (kind : Kind) (number : Nat) :
    IsNameOf page (componentStyleName page kind number) := by
  unfold IsNameOf
  rw [toList_componentStyleName]
  exact ⟨_, by simp; rfl⟩

/-- Calls, and nothing else, have been made on a book that was empty. -/
def FontBook.Reached (book : FontBook) : Prop := ∃ calls, book = run {} calls

lemma FontBook.reached_run (calls : List Call) : Reached (run {} calls) := ⟨calls, rfl⟩

namespace Draft

/-! ### Work for one page -/

/-- Only names of the page come to have other styles, only its classes are added, and the book of
fonts is called. -/
structure Confined (page : String) (drawing : Drawing) (before after : Draft) : Prop where
  styles : ∀ name, ¬ IsNameOf page name → after.styles.find? name = before.styles.find? name
  classes : ∀ name, before.classes.contains name = true → after.classes.contains name = true
  added : ∀ name, after.classes.contains name = true → before.classes.contains name = true ∨
    ∃ rule ∈ drawing.sheets.flatMap Sheet.rules, name = classStyleName page rule.className
  fonts : ∃ calls, after.fonts = before.fonts.run calls

variable {before middle after : Draft}

lemma Confined.refl (draft : Draft) : Confined page drawing draft draft where
  styles _ _ := rfl
  classes _ h := h
  added _ h := Or.inl h
  fonts := ⟨[], rfl⟩

lemma Confined.trans (h₁ : Confined page drawing before middle)
    (h₂ : Confined page drawing middle after) : Confined page drawing before after where
  styles name hname := (h₂.styles name hname).trans (h₁.styles name hname)
  classes name h := h₂.classes name (h₁.classes name h)
  added name h := (h₂.added name h).elim (h₁.added name) Or.inr
  fonts := by
    obtain ⟨calls, h₁⟩ := h₁.fonts
    obtain ⟨more, h₂⟩ := h₂.fonts
    exact ⟨calls ++ more, by rw [h₂, h₁, FontBook.run_append]⟩

lemma confined_addStyle {name : String} (hname : IsNameOf page name) (style : Style)
    (draft : Draft) : Confined page drawing draft (draft.addStyle name style) where
  styles other hother := by
    have hne : name ≠ other := fun heq => hother (heq ▸ hname)
    unfold addStyle
    rw [Table.find?_insert, if_neg hne]
  classes _ h := h
  added _ h := Or.inl h
  fonts := ⟨[], rfl⟩

lemma confined_addClass {rule : Sheet.Rule} (hrule : rule ∈ drawing.sheets.flatMap Sheet.rules)
    (style : Style) (draft : Draft) :
    Confined page drawing draft (draft.addClass (classStyleName page rule.className) style) where
  styles other hother := by
    have hne : classStyleName page rule.className ≠ other :=
      fun heq => hother (heq ▸ isNameOf_classStyleName page rule.className)
    unfold addClass
    rw [Table.find?_insert, if_neg hne]
  classes other h := by
    unfold addClass
    rw [Names.contains_add, h, Bool.or_true]
  added other h := by
    unfold addClass at h
    rw [Names.contains_add, Bool.or_eq_true, decide_eq_true_eq] at h
    exact h.elim (fun heq => Or.inr ⟨rule, hrule, heq.symm⟩) Or.inl
  fonts := ⟨[], rfl⟩

lemma confined_resolveFont (declarations : String) (draft : Draft) :
    Confined page drawing draft (draft.resolveFont declarations) where
  styles _ _ := rfl
  classes _ h := h
  added _ h := Or.inl h
  fonts := ⟨[.choose declarations], rfl⟩

lemma confined_useFont (key : String) (draft : Draft) :
    Confined page drawing draft (draft.useFont key) where
  styles _ _ := rfl
  classes _ h := h
  added _ h := Or.inl h
  fonts := ⟨[.use key], rfl⟩

/-- The classes that are added are those of the drawing. -/
lemma confined_addClasses (h : drawing.classStyles page = .ok classes) (draft : Draft) :
    Confined page drawing draft (draft.addClasses classes) := by
  have hrules (p : String × Style) (hp : p ∈ classes.pairs) :
      ∃ rule ∈ drawing.sheets.flatMap Sheet.rules, p.1 = classStyleName page rule.className := by
    have hcontains := Table.contains_of_find? (Table.find?_eq_some_iff.2 (show (p.1, p.2) ∈ _ from hp))
    obtain ⟨className, hname⟩ := Drawing.className_of_contains h hcontains
    rw [hname, Drawing.contains_classStyles h, List.any_eq_true] at hcontains
    obtain ⟨rule, hrule, heq⟩ := hcontains
    exact ⟨rule, hrule, by rw [hname, of_decide_eq_true heq]⟩
  unfold addClasses
  generalize classes.pairs = pairs at hrules
  induction pairs generalizing draft with
  | nil => exact .refl draft
  | cons p rest ih =>
    obtain ⟨rule, hrule, hname⟩ := hrules p List.mem_cons_self
    have hfirst : Confined page drawing draft (draft.addClass p.1 p.2) :=
      hname ▸ confined_addClass hrule p.2 draft
    exact hfirst.trans (ih _ fun q hq => hrules q (List.mem_cons_of_mem _ hq))

end Draft

lemma Placed.confined_enterFonts (placed : Placed) (draft : Draft) :
    Draft.Confined page drawing draft (placed.enterFonts draft) := by
  unfold enterFonts
  cases placed.shape with
  | rect r => exact .refl draft
  | circle c => exact .refl draft
  | text t =>
    exact ((Draft.confined_resolveFont _ _).trans (Draft.confined_resolveFont _ _)).trans
      (Draft.confined_useFont _ _)

/-- The step of a page: a component is entered, or left off at its fault. -/
lemma PageContext.confined_enter (placed : Placed) (number : Nat) (draft : Draft) :
    Draft.Confined page drawing draft (enter ⟨page, drawing, classes⟩ placed number draft) := by
  unfold enter
  split
  · exact (placed.confined_enterFonts draft).trans
      (Draft.confined_addStyle (isNameOf_componentStyleName page _ number) _ _)
  · exact placed.confined_enterFonts draft
  · exact .refl draft

/-- The run of a page, up to the first component that has a fault. -/
lemma Drawing.confined_enterComponents (draft : Draft) :
    Draft.Confined page drawing draft (drawing.enterComponents page classes draft) := by
  unfold enterComponents
  induction drawing.placed.zipIdx generalizing draft with
  | nil => exact .refl draft
  | cons p rest ih =>
    have hfirst := @PageContext.confined_enter drawing page classes p.1 p.2 draft
    rw [Drafting.inTurn]
    split
    · exact hfirst.trans (ih _)
    · exact hfirst

namespace Draft

lemma confined_enterDrawing (page : String) (drawing : Drawing) (draft : Draft) :
    Confined page drawing draft (draft.enterDrawing page drawing) := by
  unfold enterDrawing
  cases hclasses : drawing.classStyles page with
  | error fault => exact .refl draft
  | ok classes =>
    have hentered : Confined page drawing draft
        (drawing.enterComponents page classes (draft.addClasses classes)) :=
      (confined_addClasses hclasses draft).trans (Drawing.confined_enterComponents _)
    dsimp only
    cases drawing.components page classes with
    | error fault => exact hentered
    | ok components => exact ⟨hentered.styles, hentered.classes, hentered.added, hentered.fonts⟩

/-- Styles are lost by no drawing. -/
lemma contains_styles_enterDrawing (draft : Draft) {name : String}
    (h : draft.styles.contains name = true) :
    (draft.enterDrawing page drawing).styles.contains name = true := by
  unfold enterDrawing
  cases drawing.classStyles page with
  | error fault => exact h
  | ok classes =>
    have hentered := ((grows_addClasses classes draft).trans
      (drawing.grows_enterComponents page classes _)).styles name h
    dsimp only
    cases drawing.components page classes with
    | error fault => exact hentered
    | ok components => exact hentered

/-- A drawing with a fault puts no page in. -/
lemma pages_enterDrawing_of_error {fault : PageFault} (h : drawing.toPage page = .error fault)
    (draft : Draft) : (draft.enterDrawing page drawing).pages = draft.pages := by
  unfold Drawing.toPage at h
  unfold enterDrawing
  cases hclasses : drawing.classStyles page with
  | error fault => rfl
  | ok classes =>
    rw [hclasses, ok_bind] at h
    dsimp only
    rw [h]
    exact (Drawing.pages_enterComponents _).trans (pages_addClasses classes draft)

/-! ### Drawings -/

/-- Nothing is lost, and what does not belong to a page is left alone: the styles under other names,
the classes but for those of its rules, the fonts in use, and the other pages. -/
structure KeepsRest (page : String) (drawing : Drawing) (before after : Draft) : Prop where
  styles : ∀ name, before.styles.contains name = true → after.styles.contains name = true
  otherStyles : ∀ name, ¬ IsNameOf page name →
    after.styles.find? name = before.styles.find? name
  classes : ∀ name, before.classes.contains name = true → after.classes.contains name = true
  addedClasses : ∀ name, after.classes.contains name = true →
    before.classes.contains name = true ∨
      ∃ rule ∈ drawing.sheets.flatMap Sheet.rules, name = classStyleName page rule.className
  fonts : ∀ key font, before.fonts.used.find? key = some font →
    after.fonts.used.find? key = some font
  otherPages : ∀ other, other ≠ page → after.pages.find? other = before.pages.find? other

/-- **What a drawing leaves alone**: whatever comes of a drawing that is added to a draft under the
name of a page, nothing is lost and the rest of the draft stays as it is. With a fault no page
changes, and if the fault is that of a rule, which is told with the name of its class, nothing does. -/
theorem addDrawing_keepsRest (draft : Draft) (hfonts : draft.fonts.Reached) (page : String)
    (drawing : Drawing) :
    KeepsRest page drawing draft (draft.addDrawing page drawing).2 ∧
    (∀ fault, (draft.addDrawing page drawing).1 = .error fault →
      (draft.addDrawing page drawing).2.pages = draft.pages) ∧
    ∀ rule ∈ drawing.sheets.flatMap Sheet.rules, ∀ number,
      Style.ofDeclarations rule.body = .error number →
        (∃ bad ∈ drawing.sheets.flatMap Sheet.rules, ∃ number,
          Style.ofDeclarations bad.body = .error number ∧
          (draft.addDrawing page drawing).1 =
            .error (.badNumber (classStyleName page bad.className) number)) ∧
        (draft.addDrawing page drawing).2 = draft := by
  rw [addDrawing_eq]
  refine ⟨?_, ?_, ?_⟩
  · have hconfined := confined_enterDrawing page drawing draft
    refine ⟨fun name => contains_styles_enterDrawing draft, hconfined.styles, hconfined.classes,
      hconfined.added, ?_, ?_⟩
    · obtain ⟨past, hpast⟩ := hfonts
      obtain ⟨calls, hcalls⟩ := hconfined.fonts
      dsimp only
      rw [hcalls, hpast]
      exact ((FontBook.sound_empty.run past).1.run calls).2.used
    · intro other hother
      dsimp only
      cases hresult : drawing.toPage page with
      | error fault => rw [pages_enterDrawing_of_error hresult]
      | ok components =>
        rw [pages_enterDrawing hresult, Table.find?_insert, if_neg hother.symm]
  · intro fault hfault
    cases hresult : drawing.toPage page with
    | error _ => exact pages_enterDrawing_of_error hresult draft
    | ok components =>
      rw [hresult] at hfault
      cases hfault
  · intro rule hrule number hnumber
    -- the first rule with a fault is told, before anything is entered
    obtain ⟨fault, hfault⟩ : ∃ fault, fault? (drawing.classStyles page) = some fault := by
      rw [Drawing.fault?_classStyles]
      refine Option.isSome_iff_exists.1 (List.findSome?_isSome_iff.2 ⟨rule, hrule, ?_⟩)
      rw [Drawing.ruleFault?, Drawing.numberFault?, hnumber]
      rfl
    have hclasses := fault?_eq_some_iff.1 hfault
    rw [Drawing.fault?_classStyles] at hfault
    obtain ⟨bad, hbad, htold⟩ := List.exists_of_findSome?_eq_some hfault
    obtain ⟨number, hnumber, rfl⟩ := Option.map_eq_some_iff.1 htold
    refine ⟨⟨bad, hbad, number, fault?_eq_some_iff.1 hnumber, ?_⟩, ?_⟩
    · unfold Drawing.toPage
      rw [hclasses]
      rfl
    · unfold enterDrawing
      rw [hclasses]

/-- A page with a text, and behind it a box of a class that is not there. -/
def halfway : Drawing where
  sheets := [".x\x7bfill:#00ff00\x7d"]
  layers := [[
    .text { style := "font-size:12px;font-family:Play", spans := [{}] },
    .rect { classes := "y" }]]

/-- A draft with a page, a style and a font that is used. -/
def begun : Draft where
  styles := .ofList [("b-x", {})]
  fonts := .run {} [.choose "font-size:14px;font-family:Play", .use "Play-14"]
  pages := .ofList [("b", [])]

/-- The drawing fails at its box. The page is not put in and the font in use stays, but the class
and the style of the text are left behind. -/
theorem addDrawing_keepsRest_halfway :
    begun.fonts.Reached ∧ KeepsRest "a" halfway begun (begun.addDrawing "a" halfway).2 ∧
      (fault? (begun.addDrawing "a" halfway).1).map (·.message "a") =
        some "Page 'a': unknown referenced style: a-y" ∧
      (begun.addDrawing "a" halfway).2.pages = begun.pages ∧
      (begun.addDrawing "a" halfway).2.styles.keys = ["a-text-0", "a-x", "b-x"] ∧
      (begun.addDrawing "a" halfway).2.fonts.used.contains "Play-14" = true := by
  have hfonts : begun.fonts.Reached := by
    unfold begun
    dsimp only
    exact FontBook.reached_run _
  have htold : (fault? (begun.addDrawing "a" halfway).1).map (·.message "a") =
      some "Page 'a': unknown referenced style: a-y" := by decide +kernel
  have hstyles : (begun.addDrawing "a" halfway).2.styles.keys = ["a-text-0", "a-x", "b-x"] := by
    decide +kernel
  have hused : begun.fonts.used.contains "Play-14" = true := by decide +kernel
  obtain ⟨fault, hfault, -⟩ := Option.map_eq_some_iff.1 htold
  obtain ⟨hkeeps, hpages, -⟩ := addDrawing_keepsRest begun hfonts "a" halfway
  obtain ⟨font, hfont⟩ := Table.contains_iff.1 hused
  exact ⟨hfonts, hkeeps, htold, hpages fault (fault?_eq_some_iff.1 hfault), hstyles,
    Table.contains_of_find? (hkeeps.fonts _ font hfont)⟩

end Draft

end RenderLayout
