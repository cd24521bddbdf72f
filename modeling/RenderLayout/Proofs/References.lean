import RenderLayout.Proofs.Translation
import RenderLayout.Proofs.Unify

/-!
What components refer to.

Whatever drawings are added to a draft, and however far each of them comes, the styles and fonts
that the components of its pages name are in its tables. Tables never get smaller under way, so that
this holds of the pages from before a fault too. In the layout of a whole run the fonts are just
those that components name.
-/

namespace RenderLayout

variable {drawing : Drawing} {page : String} {result : Page} {classes : Table Style}

/-- Every font stands under its own key. -/
def Keyed (fonts : Table Font) : Prop := ∀ key font, fonts.find? key = some font → font.key = key

structure FontBook.Keyed (book : FontBook) : Prop where
  chosen : RenderLayout.Keyed book.chosen
  used : RenderLayout.Keyed book.used

/-- What a component refers to is there; it always has a style. -/
structure Component.Resolved (styles : Table Style) (fonts : Table Font) (component : Component) :
    Prop where
  style : ∃ name, component.style = some name ∧ styles.contains name = true
  font : ∀ key, component.font = some key → fonts.contains key = true

namespace Draft

/-- What is named in a draft is in its tables. -/
structure Closed (draft : Draft) : Prop where
  components : ∀ name page, draft.pages.find? name = some page →
    ∀ component ∈ page, component.Resolved draft.styles draft.fonts.used
  classes : ∀ name, draft.classes.contains name = true → draft.styles.contains name = true
  fonts : draft.fonts.Keyed

/-! ### Growing tables -/

/-- The tables lose no name, new classes come with their styles, and the pages stay. -/
structure Grows (before after : Draft) : Prop where
  pages : after.pages = before.pages
  styles : ∀ name, before.styles.contains name = true → after.styles.contains name = true
  used : ∀ key, before.fonts.used.contains key = true → after.fonts.used.contains key = true
  classes : ∀ name, after.classes.contains name = true →
    before.classes.contains name = true ∨ after.styles.contains name = true
  keyed : before.fonts.Keyed → after.fonts.Keyed

variable {before middle after draft : Draft}

lemma Grows.refl (draft : Draft) : Grows draft draft where
  pages := rfl
  styles _ h := h
  used _ h := h
  classes _ h := Or.inl h
  keyed h := h

lemma Grows.trans (h₁ : Grows before middle) (h₂ : Grows middle after) : Grows before after where
  pages := h₂.pages.trans h₁.pages
  styles name h := h₂.styles name (h₁.styles name h)
  used key h := h₂.used key (h₁.used key h)
  classes name h := by
    rcases h₂.classes name h with h | h
    · exact (h₁.classes name h).imp_right (h₂.styles name)
    · exact Or.inr h
  keyed h := h₂.keyed (h₁.keyed h)

lemma Resolved.grow {component : Component} (h : Grows before after)
    (hc : component.Resolved before.styles before.fonts.used) :
    component.Resolved after.styles after.fonts.used where
  style := by
    obtain ⟨name, hname, hstyle⟩ := hc.style
    exact ⟨name, hname, h.styles name hstyle⟩
  font key hkey := h.used key (hc.font key hkey)

lemma Closed.grow (hclosed : before.Closed) (h : Grows before after) : after.Closed where
  components name page hpage component hmem := by
    rw [h.pages] at hpage
    exact Resolved.grow h (hclosed.components name page hpage component hmem)
  classes name hname := by
    rcases h.classes name hname with hname | hname
    · exact h.styles name (hclosed.classes name hname)
    · exact hname
  fonts := h.keyed hclosed.fonts

/-- A page whose components name what is there keeps a draft closed. -/
lemma Closed.addPage (hclosed : draft.Closed)
    (hpage : ∀ component ∈ result, component.Resolved draft.styles draft.fonts.used) :
    (draft.addPage page result).Closed where
  components name other hother := by
    unfold Draft.addPage at hother
    dsimp only at hother
    rw [Table.find?_insert] at hother
    split at hother
    · obtain rfl := Option.some.inj hother
      exact hpage
    · exact hclosed.components name other hother
  classes := hclosed.classes
  fonts := hclosed.fonts

end Draft

lemma Keyed.insert {fonts : Table Font} (h : Keyed fonts) (font : Font) :
    Keyed (fonts.insert font.key font) := by
  intro key other hother
  rw [Table.find?_insert] at hother
  split at hother
  case isTrue hkey =>
    obtain rfl := Option.some.inj hother
    exact hkey
  case isFalse => exact h key other hother

namespace FontBook

lemma Keyed.resolve {book : FontBook} (h : book.Keyed) (declarations : String) :
    (book.resolve declarations).2.Keyed where
  chosen := by
    unfold FontBook.resolve
    dsimp only
    split
    · exact h.chosen
    · exact h.chosen.insert _
  used := by
    rw [used_resolve]
    exact h.used

lemma contains_chosen_resolve (book : FontBook) (declarations key : String) :
    (book.resolve declarations).2.chosen.contains key =
      (decide ((Font.choose declarations).key = key) || book.chosen.contains key) := by
  rw [Table.contains, find?_chosen_resolve]
  by_cases hkey : (Font.choose declarations).key = key <;> simp [hkey, Table.contains]

lemma Keyed.use {book : FontBook} (h : book.Keyed) (key : String) : (book.use key).Keyed where
  chosen := by
    rw [chosen_use]
    exact h.chosen
  used := by
    intro name font hfont
    rw [find?_used_use] at hfont
    split at hfont
    case isTrue hkey =>
      rw [← hkey.1]
      exact h.chosen key font hfont
    case isFalse => exact h.used name font hfont

lemma contains_used_use (book : FontBook) (key name : String) :
    (book.use key).used.contains name =
      (decide (key = name) && book.chosen.contains key || book.used.contains name) := by
  rw [Table.contains, find?_used_use]
  by_cases hkey : key = name
  · subst hkey
    cases hchosen : book.chosen.contains key with
    | true =>
      rw [if_pos ⟨rfl, rfl⟩]
      simpa [Table.contains] using hchosen
    | false => simp [Table.contains]
  · simp [hkey, Table.contains]

end FontBook

namespace Draft

variable {draft : Draft}

lemma grows_addStyle (name : String) (style : Style) (draft : Draft) :
    Grows draft (draft.addStyle name style) where
  pages := rfl
  styles other h := by
    unfold addStyle
    rw [Table.contains_insert, h, Bool.or_true]
  used _ h := h
  classes _ h := Or.inl h
  keyed h := h

lemma grows_addClass (draft : Draft) (name : String) (style : Style) :
    Grows draft (draft.addClass name style) where
  pages := rfl
  styles other h := by
    unfold addClass
    rw [Table.contains_insert, h, Bool.or_true]
  used _ h := h
  classes other h := by
    unfold addClass at h ⊢
    dsimp only at h ⊢
    rw [Names.contains_add, Bool.or_eq_true] at h
    rw [Table.contains_insert, Bool.or_eq_true]
    exact h.symm.imp_right Or.inl
  keyed h := h

lemma grows_addClasses (classes : Table Style) (draft : Draft) :
    Grows draft (draft.addClasses classes) := by
  unfold addClasses
  induction classes.pairs generalizing draft with
  | nil => exact .refl draft
  | cons p rest ih => exact (grows_addClass draft p.1 p.2).trans (ih _)

lemma grows_resolveFont (declarations : String) (draft : Draft) :
    Grows draft (draft.resolveFont declarations) where
  pages := rfl
  styles _ h := h
  used _ h := by
    unfold resolveFont
    rwa [FontBook.used_resolve]
  classes _ h := Or.inl h
  keyed h := h.resolve declarations

lemma grows_useFont (key : String) (draft : Draft) : Grows draft (draft.useFont key) where
  pages := rfl
  styles _ h := h
  used name h := by
    unfold useFont
    rw [FontBook.contains_used_use, h, Bool.or_true]
  classes _ h := Or.inl h
  keyed h := h.use key

end Draft

/-! ### Shapes and drawings -/

namespace Placed

variable (placed : Placed)

lemma grows_enterFonts (draft : Draft) : draft.Grows (placed.enterFonts draft) := by
  unfold enterFonts
  cases placed.shape with
  | rect r => exact .refl draft
  | circle c => exact .refl draft
  | text t =>
    exact ((Draft.grows_resolveFont _ _).trans (Draft.grows_resolveFont _ _)).trans
      (Draft.grows_useFont _ _)

/-- The font of a text is that of the text or that of its span. -/
lemma fontOf_eq_or (text : TextBox) (span : Span) :
    fontOf text span = (Font.choose text.style).font ∨
      fontOf text span = (Font.choose span.style).font := by
  unfold fontOf
  dsimp only
  split
  · exact Or.inr rfl
  · exact Or.inl rfl

/-- A text uses the font that it is drawn in. -/
lemma used_enterFonts (drawing : Drawing) (name : String) (draft : Draft) (key : String) :
    (placed.enterFonts draft).fonts.used.contains key = true ↔
      (placed.drawn drawing name).font = some key ∨ draft.fonts.used.contains key = true := by
  unfold enterFonts drawn
  cases placed.shape with
  | rect r => simp
  | circle c => simp
  | text t =>
    have hchosen (book : FontBook) (span : Span) :
        ((book.resolve t.style).2.resolve span.style).2.chosen.contains (fontOf t span).key =
          true := by
      rw [FontBook.contains_chosen_resolve, FontBook.contains_chosen_resolve]
      rcases fontOf_eq_or t span with h | h <;> simp [h, Font.Choice.key]
    unfold Draft.useFont Draft.resolveFont
    dsimp only
    rw [FontBook.contains_used_use, hchosen]
    simp

end Placed

namespace PageContext

variable (context : PageContext) (placed : Placed) (number : Nat)

lemma grows_enter (draft : Draft) : draft.Grows (context.enter placed number draft) := by
  unfold enter
  split
  · exact (placed.grows_enterFonts draft).trans (Draft.grows_addStyle _ _ _)
  · exact placed.grows_enterFonts draft
  · exact .refl draft

variable {context placed number} {component : Component}

/-- A component finds what it refers to as soon as it is entered. -/
lemma resolved_enter (h : context.made placed number = .ok component) (draft : Draft) :
    component.Resolved (context.enter placed number draft).styles
      (context.enter placed number draft).fonts.used := by
  obtain ⟨hcheck, ⟨style, hstyle⟩, rfl⟩ := made_eq_ok_iff.1 h
  rw [enter_of_ok hcheck hstyle]
  refine ⟨⟨context.styleName number placed.shape, placed.drawn_style _ _, ?_⟩, ?_⟩
  · unfold Draft.addStyle
    simp [Table.contains_insert]
  · intro key hkey
    exact (placed.used_enterFonts context.drawing _ draft key).2 (Or.inl hkey)

end PageContext

namespace Drawing

/-- Entering components grows the draft also when one of them fails. -/
lemma grows_inTurn (context : PageContext) (l : List (Placed × Nat)) (draft : Draft) :
    draft.Grows (Drafting.inTurn (fun p => context.made p.1 p.2) (fun p => context.enter p.1 p.2) l
      draft) := by
  induction l generalizing draft with
  | nil => exact .refl draft
  | cons p rest ih =>
    rw [Drafting.inTurn]
    split
    · exact (context.grows_enter p.1 p.2 draft).trans (ih _)
    · exact context.grows_enter p.1 p.2 draft

lemma grows_enterComponents (page : String) (drawing : Drawing) (classes : Table Style)
    (draft : Draft) : draft.Grows (drawing.enterComponents page classes draft) :=
  grows_inTurn ⟨page, drawing, classes⟩ drawing.placed.zipIdx draft

/-- The components of a page find what they refer to once all of them are entered. -/
lemma resolved_components (h : drawing.components page classes = .ok result) (draft : Draft) :
    ∀ component ∈ result,
      component.Resolved (drawing.enterComponents page classes draft).styles
        (drawing.enterComponents page classes draft).fonts.used := by
  unfold components at h
  unfold enterComponents
  rw [mapM_eq_ok_iff] at h
  generalize drawing.placed.zipIdx = shapes at h ⊢
  induction h generalizing draft with
  | nil => simp
  | @cons p first shapes components hfirst _ ih =>
    rw [Drafting.inTurn, hfirst]
    intro component hmem
    rcases List.mem_cons.1 hmem with rfl | hmem
    · exact Draft.Resolved.grow (grows_inTurn _ shapes _) (PageContext.resolved_enter hfirst draft)
    · exact ih _ component hmem

end Drawing

namespace Draft

/-- The step of a run: a drawing keeps a draft closed, whether it becomes a page or not. -/
lemma Closed.enterDrawing {draft : Draft} (h : draft.Closed) (page : String) (drawing : Drawing) :
    (draft.enterDrawing page drawing).Closed := by
  unfold Draft.enterDrawing
  cases drawing.classStyles page with
  | error fault => exact h
  | ok classes =>
    have hentered : (drawing.enterComponents page classes (draft.addClasses classes)).Closed :=
      h.grow ((grows_addClasses classes draft).trans (drawing.grows_enterComponents page classes _))
    dsimp only
    cases hcomponents : drawing.components page classes with
    | error fault => exact hentered
    | ok components => exact hentered.addPage (Drawing.resolved_components hcomponents _)

lemma closed_empty : ({} : Draft).Closed where
  components _ _ h := by cases h
  classes _ h := by cases h
  fonts := ⟨fun _ _ h => (by cases h), fun _ _ h => (by cases h)⟩

lemma Closed.run {draft : Draft} (h : draft.Closed) (l : List (String × Drawing)) :
    (l.foldl (fun draft p => draft.enterDrawing p.1 p.2) draft).Closed := by
  induction l generalizing draft with
  | nil => exact h
  | cons p rest ih => exact ih (h.enterDrawing p.1 p.2)

/-- The draft after some drawings were added under some names, those with faults among them. -/
def after (calls : List (String × Drawing)) : Draft :=
  calls.foldl (fun draft call => (draft.addDrawing call.1 call.2).2) {}

/-- **Drafts are closed**: after any drawings under any names, with faults or without, every
component of a page has a style that is there, classes have styles, and fonts that components name
are used; every font stands under its own key. -/
theorem closed_after (calls : List (String × Drawing)) : (after calls).Closed := by
  unfold after
  simp only [addDrawing_eq]
  exact closed_empty.run calls

end Draft

/-! ### Whole runs -/

/-- A component has a font if it is a text. -/
def Component.FontFits (component : Component) : Prop :=
  component.kind = .text ↔ component.font.isSome = true

lemma Placed.fontFits_drawn (placed : Placed) (drawing : Drawing) (name : String) :
    (placed.drawn drawing name).FontFits := by
  unfold Component.FontFits drawn
  cases placed.shape <;> simp

/-- The component of a page names a font. -/
def Page.Names (page : Page) (key : String) : Prop := ∃ component ∈ page, component.font = some key

namespace Drawing

lemma fontFits_toPage (h : drawing.toPage page = .ok result) :
    ∀ component ∈ result, component.FontFits := by
  intro component hmem
  obtain ⟨classes, -, hcomponents⟩ := toPage_eq_ok_iff.1 h
  obtain ⟨number, hnumber⟩ := List.mem_iff_getElem?.1 hmem
  obtain ⟨placed, -, hmade⟩ := made_of_component hcomponents hnumber
  obtain ⟨-, -, rfl⟩ := PageContext.made_eq_ok_iff.1 hmade
  exact placed.fontFits_drawn drawing _

/-- The components of a page use the fonts that they name. -/
lemma used_enterComponents (h : drawing.components page classes = .ok result) (draft : Draft)
    (key : String) :
    (drawing.enterComponents page classes draft).fonts.used.contains key = true ↔
      result.Names key ∨ draft.fonts.used.contains key = true := by
  unfold components at h
  unfold enterComponents
  rw [Drafting.inTurn_of_ok h]
  rw [mapM_eq_ok_iff] at h
  generalize drawing.placed.zipIdx = shapes at h ⊢
  induction h generalizing draft with
  | nil => simp [Page.Names]
  | @cons p first shapes components hfirst _ ih =>
    obtain ⟨hcheck, ⟨style, hstyle⟩, rfl⟩ := PageContext.made_eq_ok_iff.1 hfirst
    have hkey := p.1.used_enterFonts drawing
      (PageContext.styleName ⟨page, drawing, classes⟩ p.2 p.1.shape) draft key
    rw [List.foldl_cons, ih, PageContext.enter_of_ok hcheck hstyle]
    unfold Draft.addStyle
    rw [hkey]
    simp only [Page.Names, List.exists_mem_cons_iff]
    exact or_left_comm.trans or_assoc.symm

end Drawing

namespace Draft

variable {drawings : Table Drawing}

lemma used_addClasses (classes : Table Style) (draft : Draft) :
    (draft.addClasses classes).fonts = draft.fonts := by
  unfold addClasses
  induction classes.pairs generalizing draft with
  | nil => rfl
  | cons p rest ih => exact ih (draft.addClass p.1 p.2)

lemma used_enterDrawing (h : drawing.toPage page = .ok result) (draft : Draft) (key : String) :
    (draft.enterDrawing page drawing).fonts.used.contains key = true ↔
      result.Names key ∨ draft.fonts.used.contains key = true := by
  obtain ⟨classes, hclasses, hcomponents⟩ := Drawing.toPage_eq_ok_iff.1 h
  rw [enterDrawing, hclasses]
  dsimp only
  rw [hcomponents, ← used_addClasses classes draft]
  exact Drawing.used_enterComponents hcomponents _ key

/-- Every font that is used is named by a page of the run. -/
lemma used_run {l : List (String × Drawing)}
    (hmade : ∀ p ∈ l, ∃ result, p.2.toPage p.1 = .ok result) (draft : Draft) {key : String}
    (h : (l.foldl (fun draft p => draft.enterDrawing p.1 p.2) draft).fonts.used.contains key =
      true) :
    (∃ p ∈ l, ∃ result, p.2.toPage p.1 = .ok result ∧ result.Names key) ∨
      draft.fonts.used.contains key = true := by
  induction l generalizing draft with
  | nil => exact Or.inr h
  | cons p rest ih =>
    obtain ⟨result, hresult⟩ := hmade p List.mem_cons_self
    rcases ih (fun q hq => hmade q (List.mem_cons_of_mem _ hq)) _ h with ⟨q, hq, hnames⟩ | h
    · exact Or.inl ⟨q, List.mem_cons_of_mem _ hq, hnames⟩
    · rcases (used_enterDrawing hresult draft key).1 h with hnames | h
      · exact Or.inl ⟨p, List.mem_cons_self, result, hresult, hnames⟩
      · exact Or.inr h

/-- The pages of a run are those of its drawings. -/
lemma contains_pages_run {l : List (String × Drawing)}
    (hmade : ∀ p ∈ l, ∃ result, p.2.toPage p.1 = .ok result) (draft : Draft) (name : String) :
    (l.foldl (fun draft p => draft.enterDrawing p.1 p.2) draft).pages.contains name = true ↔
      (∃ p ∈ l, p.1 = name) ∨ draft.pages.contains name = true := by
  induction l generalizing draft with
  | nil => simp
  | cons p rest ih =>
    obtain ⟨result, hresult⟩ := hmade p List.mem_cons_self
    rw [List.foldl_cons, ih (fun q hq => hmade q (List.mem_cons_of_mem _ hq)),
      pages_enterDrawing hresult, Table.contains_insert, Bool.or_eq_true, decide_eq_true_eq,
      List.exists_mem_cons_iff]
    exact or_left_comm.trans or_assoc.symm

/-- Every drawing of a run has its page. -/
lemma find?_pages_entered (hmade : ∀ p ∈ drawings.pairs, ∃ result, p.2.toPage p.1 = .ok result)
    {p : String × Drawing} (hp : p ∈ drawings.pairs) (hresult : p.2.toPage p.1 = .ok result) :
    (entered drawings).pages.find? p.1 = some result := by
  obtain ⟨other, hother⟩ := Table.contains_iff.1
    ((contains_pages_run hmade {} p.1).2 (Or.inl ⟨p, hp, rfl⟩))
  obtain ⟨drawing, hmem, hdrawing⟩ := (drawing_of_page hmade {} hother).resolve_right (by simp)
  have hfound := Table.find?_eq_some_iff.2 (show (p.1, p.2) ∈ drawings.pairs from hp)
  obtain rfl : p.2 = drawing :=
    Option.some.inj (hfound.symm.trans (Table.find?_eq_some_iff.2 hmem))
  rw [hresult] at hdrawing
  rw [Except.ok.inj hdrawing]
  exact hother

lemma keys_pages_entered (hmade : ∀ p ∈ drawings.pairs, ∃ result, p.2.toPage p.1 = .ok result) :
    (entered drawings).pages.keys = drawings.keys := by
  refine Table.keys_eq fun name => ?_
  have hkey : drawings.contains name = true ↔ ∃ p ∈ drawings.pairs, p.1 = name := by
    rw [← Table.mem_keys_iff, Table.keys, List.mem_map]
  rw [Bool.eq_iff_iff, hkey]
  exact (contains_pages_run hmade {} name).trans (or_iff_left Bool.false_ne_true)

end Draft

namespace Layout

variable {layout : Layout}

lemma dangling_eq_nil_iff : layout.dangling = [] ↔
    ∀ name page, layout.pages.find? name = some page → ∀ component ∈ page,
      ∀ style, component.style = some style → layout.styles.contains style = true := by
  unfold dangling
  simp only [List.flatMap_eq_nil_iff, List.filterMap_eq_nil_iff, List.mem_filterMap,
    ite_eq_left_iff, reduceCtorEq, imp_false, not_not, Prod.forall, ← Table.find?_eq_some_iff]
  constructor
  · intro h name page hpage component hmem style hstyle
    exact h name page hpage style ⟨component, hmem, hstyle⟩
  · rintro h name page hpage style ⟨component, hmem, hstyle⟩
    exact h name page hpage component hmem style hstyle

/-- The components of unified pages are the old ones with other style names. -/
lemma find?_pages_unify_iff {classes : Names} {name : String} {page : Page} :
    (layout.unify classes).pages.find? name = some page ↔
      ∃ old, layout.pages.find? name = some old ∧
        old.map (·.renameStyle (survivor (layout.replacements classes))) = page := by
  rw [unify, Table.find?_map, Option.map_eq_some_iff]

lemma names_rename {page : Page} {rename : String → String} {key : String} :
    Page.Names (page.map (·.renameStyle rename)) key ↔ page.Names key := by
  simp [Page.Names, Component.renameStyle]

/-- Unification leaves no style name without a style if there was none before. -/
lemma dangling_unify {classes : Names} (h : ∀ name page, layout.pages.find? name = some page →
    ∀ component ∈ page, ∃ style, component.style = some style ∧
      layout.styles.contains style = true) :
    (layout.unify classes).dangling = [] := by
  rw [dangling_eq_nil_iff]
  intro name page hpage component hmem style hstyle
  obtain ⟨old, hold, rfl⟩ := find?_pages_unify_iff.1 hpage
  obtain ⟨before, hbefore, rfl⟩ := List.mem_map.1 hmem
  obtain ⟨named, hnamed, hcontains⟩ := h name old hold before hbefore
  obtain ⟨record, hrecord⟩ := Table.contains_iff.1 hcontains
  have hkeeps : KeepsStyle layout.styles (layout.unify classes).styles before _ :=
    keepsStyle_rename before
  obtain ⟨kept, _, hkept, hfound, -⟩ := hkeeps.resolved named record hnamed hrecord
  obtain rfl : kept = style := Option.some.inj (hkept.symm.trans hstyle)
  exact Table.contains_of_find? hfound

end Layout

/-- **Layouts are closed and minimal**: a layout has the pages of its drawings, no component names a
style that is not there, the fonts are just those that components name, and the components that name
one are the texts. -/
theorem compile_closed {canvas : Canvas} {drawings : Table Drawing} {layout : Layout}
    (h : compile canvas drawings = .ok layout) :
    layout.pages.keys = drawings.keys ∧ layout.dangling = [] ∧
    (∀ key, layout.fonts.contains key = true ↔
      ∃ name page, layout.pages.find? name = some page ∧ page.Names key) ∧
    ∀ name page, layout.pages.find? name = some page →
      ∀ component ∈ page, component.FontFits := by
  obtain ⟨hchecked, rfl⟩ := compile_eq_ok_iff.1 h
  have hmade (p : String × Drawing) (hp : p ∈ drawings.pairs) :
      ∃ result, p.2.toPage p.1 = .ok result := by
    obtain ⟨result, hresult⟩ := hchecked p hp
    exact ⟨result, (Drawing.toCheckedPage_eq_ok_iff.1 hresult).2⟩
  have hclosed : (Draft.entered drawings).Closed := Draft.closed_empty.run drawings.pairs
  refine ⟨?_, ?_, ?_, ?_⟩
  · rw [Layout.unify, Table.keys_map]
    exact Draft.keys_pages_entered hmade
  · refine Layout.dangling_unify fun name page hpage component hmem => ?_
    exact (hclosed.components name page hpage component hmem).style
  · intro key
    constructor
    · -- a used font was used for a page, which is still there
      intro hkey
      obtain ⟨p, hp, result, hresult, hnames⟩ :=
        (Draft.used_run hmade {} hkey).resolve_right Bool.false_ne_true
      exact ⟨p.1, _, Layout.find?_pages_unify_iff.2
        ⟨result, Draft.find?_pages_entered hmade hp hresult, rfl⟩, Layout.names_rename.2 hnames⟩
    · rintro ⟨name, page, hpage, hnames⟩
      obtain ⟨old, hold, rfl⟩ := Layout.find?_pages_unify_iff.1 hpage
      obtain ⟨component, hmem, hfont⟩ := Layout.names_rename.1 hnames
      exact (hclosed.components name old hold component hmem).font key hfont
  · intro name page hpage component hmem
    obtain ⟨old, hold, rfl⟩ := Layout.find?_pages_unify_iff.1 hpage
    obtain ⟨before, hbefore, rfl⟩ := List.mem_map.1 hmem
    obtain ⟨drawing, -, hdrawing⟩ := (Draft.drawing_of_page hmade {} hold).resolve_right (by simp)
    exact Drawing.fontFits_toPage hdrawing before hbefore

/-- Two pages, with a text whose span asks for a font of its own and one whose span asks for a
family that there is not. -/
def signs : Table Drawing :=
  .ofList [
    ("a", {
      layers := [[
        .text {
          style := "font-size:12px;font-family:Play"
          spans := [{ style := "font-size:14px;font-family:FiraMono", text := "On" }] },
        .rect {}]] }),
    ("b", {
      layers := [[
        .text {
          style := "font-size:12px;font-family:Play"
          spans := [{ style := "font-size:14px;font-family:Arial", text := "Off" }] }]] })]

/-- Each text names one of the two fonts that it asks for, and the others are not in the layout. -/
theorem compile_closed_signs :
    ∃ layout, compile {} signs = .ok layout ∧ layout.pages.keys = ["a", "b"] ∧
      layout.dangling = [] ∧ layout.fonts.keys = ["FiraMono-14", "Play-12"] := by
  have hfonts : ((compile {} signs).toOption.map fun layout => layout.fonts.keys) =
      some ["FiraMono-14", "Play-12"] := by decide +kernel
  obtain ⟨layout, hlayout, hkeys⟩ := Option.map_eq_some_iff.1 hfonts
  have h := toOption_eq_some_iff.1 hlayout
  obtain ⟨hpages, hdangling, -, -⟩ := compile_closed h
  exact ⟨layout, h, hpages, hdangling, hkeys⟩

end RenderLayout
