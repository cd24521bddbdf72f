import RenderLayout.Proofs.Cascade
import RenderLayout.Proofs.Unify

/-!
The style that a component has in a layout.

It is the style of its shape, or an equal one, as long as no class of another page goes by the name
of the component. Only the page that is named after the page and the kind of the component can have
such a class. It comes later in the order of names, so that its class then replaces the style of the
component.
-/

namespace RenderLayout

variable {drawings : Table Drawing} {drawing : Drawing} {page other : String} {kind : Kind}
variable {number : Nat} {result : Page}

/-- The style of the class, on another page, that goes by the name of a component. -/
def namesakeStyle? (drawings : Table Drawing) (page : String) (kind : Kind) (number : Nat) :
    Option Style := do
  let other ← drawings.find? (kind.namesake page)
  other.classStyle? (toString number)

namespace Draft

/-! ### Later pages -/

/-- A later page changes the style under a component's name only by a class of that name. -/
lemma find?_enterDrawing_later (h : drawing.toPage other = .ok result) (hlt : page < other)
    (draft : Draft) :
    (draft.enterDrawing other drawing).styles.find? (componentStyleName page kind number) =
      (if other = kind.namesake page then drawing.classStyle? (toString number) else none).or
        (draft.styles.find? (componentStyleName page kind number)) := by
  have hname (kind' : Kind) (number' : Nat) :
      componentStyleName other kind' number' ≠ componentStyleName page kind number := fun heq =>
    ne_of_gt hlt (componentStyleName_inj heq).1
  obtain ⟨classes, hclasses, hfind⟩ := find?_enterDrawing_of_ne h draft hname
  rw [hfind]
  split
  case isTrue hother =>
    rw [← classStyleName_namesake, ← hother, Drawing.find?_classStyles hclasses]
  case isFalse hother =>
    have hnone : classes.find? (componentStyleName page kind number) = none := by
      rw [← Table.contains_eq_false_iff]
      by_contra hcontains
      obtain ⟨className, heq⟩ :=
        Drawing.className_of_contains hclasses (Bool.not_eq_false _ ▸ hcontains)
      exact hother (eq_namesake_of_classStyleName hlt heq.symm).1
    rw [hnone]

lemma find?_later {l : List (String × Drawing)} (hinc : Increasing l)
    (hlater : ∀ p ∈ l, page < p.1) (hmade : ∀ p ∈ l, ∃ result, p.2.toPage p.1 = .ok result)
    (draft : Draft) :
    (l.foldl (fun draft p => draft.enterDrawing p.1 p.2) draft).styles.find?
        (componentStyleName page kind number) =
      ((findPair (kind.namesake page) l).bind (·.classStyle? (toString number))).or
        (draft.styles.find? (componentStyleName page kind number)) := by
  induction l generalizing draft with
  | nil => rfl
  | cons p rest ih =>
    obtain ⟨hhead, hrest⟩ := List.pairwise_cons.1 hinc
    obtain ⟨result, hresult⟩ := hmade p List.mem_cons_self
    rw [List.foldl_cons, ih hrest (fun q hq => hlater q (List.mem_cons_of_mem _ hq))
      (fun q hq => hmade q (List.mem_cons_of_mem _ hq)),
      find?_enterDrawing_later hresult (hlater p List.mem_cons_self), findPair]
    by_cases hp : p.1 = kind.namesake page
    · have hnone : findPair (kind.namesake page) rest = none := by
        refine Option.eq_none_iff_forall_ne_some.2 fun d hd => ?_
        have hlt : p.1 < kind.namesake page := hhead _ (mem_of_findPair_eq_some hd)
        exact ne_of_lt hlt hp
      rw [if_pos hp, if_pos hp, hnone]
      rfl
    · rw [if_neg hp, if_neg hp]
      rfl

/-! ### All pages -/

/-- The style of a component in the draft of all pages. -/
lemma find?_entered (hmade : ∀ p ∈ drawings.pairs, ∃ result, p.2.toPage p.1 = .ok result)
    (hdrawing : drawings.find? page = some drawing) {placed : Placed}
    (hplaced : drawing.placed[number]? = some placed) :
    ∃ own, drawing.ownStyle? placed.shape = some own ∧
      (entered drawings).styles.find? (componentStyleName page placed.shape.kind number) =
        some ((namesakeStyle? drawings page placed.shape.kind number).getD own) := by
  have hinc := drawings.increasing
  obtain ⟨earlier, later, hsplit⟩ := List.append_of_mem (Table.find?_eq_some_iff.1 hdrawing)
  rw [hsplit] at hinc
  obtain ⟨hlater, hrest⟩ := List.pairwise_cons.1 (List.pairwise_append.1 hinc).2.1
  obtain ⟨result, hresult⟩ := hmade (page, drawing) (by simp [hsplit])
  -- the page itself enters the style, and the later pages come over it
  obtain ⟨classes, own, hclasses, hown, hfind⟩ := find?_enterDrawing_component hresult
    (earlier.foldl (fun draft p => draft.enterDrawing p.1 p.2) {}) hplaced
  refine ⟨own, (Drawing.style_eq_ok_iff hclasses).1 hown, ?_⟩
  have hnamesake := Table.find?_of_split hsplit (page_lt_namesake page placed.shape.kind)
  unfold entered
  rw [hsplit, List.foldl_append, List.foldl_cons, find?_later hrest hlater
    (fun p hp => hmade p (by simp [hsplit, hp])), hfind, ← hnamesake]
  unfold namesakeStyle?
  dsimp only [bind]
  cases (drawings.find? (placed.shape.kind.namesake page)).bind
    (·.classStyle? (toString number)) <;> rfl

end Draft

/-! ### Layouts -/

/-- **The style of a component** in a layout equals that of its shape, from the declarations of the
shape and the classes of its own page, unless a class of another page goes by the name of the
component; if one does, just when the style of that class equals it too. -/
theorem component_style_iff {canvas : Canvas} {layout : Layout} {components : Page}
    {component : Component} (h : compile canvas drawings = .ok layout)
    (hpage : layout.pages.find? page = some components)
    (hcomponent : components[number]? = some component) :
    ∃ drawing placed name record own, drawings.find? page = some drawing ∧
      drawing.placed[number]? = some placed ∧ component.style = some name ∧
      layout.styles.find? name = some record ∧ drawing.ownStyle? placed.shape = some own ∧
      ((record == own) = true ↔
        ∀ style, namesakeStyle? drawings page placed.shape.kind number = some style →
          (style == own) = true) := by
  obtain ⟨hchecked, rfl⟩ := compile_eq_ok_iff.1 h
  have hmade (p : String × Drawing) (hp : p ∈ drawings.pairs) :
      ∃ result, p.2.toPage p.1 = .ok result := by
    obtain ⟨result, hresult⟩ := hchecked p hp
    exact ⟨result, (Drawing.toCheckedPage_eq_ok_iff.1 hresult).2⟩
  -- the component before its style was renamed, and its shape
  obtain ⟨result, hresult, rfl⟩ := Option.map_eq_some_iff.1 (Table.find?_map _ _ page ▸ hpage)
  obtain ⟨old, hold, rfl⟩ := Option.map_eq_some_iff.1 (List.getElem?_map ▸ hcomponent)
  obtain ⟨drawing, hmem, hpage⟩ := (Draft.drawing_of_page hmade {} hresult).resolve_right (by simp)
  have hdrawing := Table.find?_eq_some_iff.2 hmem
  obtain ⟨classes, -, hcomponents⟩ := Drawing.toPage_eq_ok_iff.1 hpage
  obtain ⟨placed, hplaced, holdmade⟩ := Drawing.made_of_component hcomponents hold
  obtain ⟨own, hown, hentered⟩ := Draft.find?_entered hmade hdrawing hplaced
  have hstyle : old.style = some (componentStyleName page placed.shape.kind number) := by
    rw [(PageContext.made_eq_ok_iff.1 holdmade).2.2, Placed.drawn_style]
    rfl
  have hrenamed : Layout.KeepsStyle (Draft.entered drawings).layout.styles
      ((Draft.entered drawings).layout.unify (Draft.entered drawings).classes).styles old _ :=
    Layout.keepsStyle_rename old
  obtain ⟨name, record, hname, hrecord, hkeeps⟩ := hrenamed.resolved _ _ hstyle hentered
  refine ⟨drawing, placed, name, record, own, hdrawing, hplaced, hname, hrecord, hown, ?_⟩
  have hself : (own == own) = true := (Drawing.nanFree_ownStyle? hown).beq_self
  cases hnamesake : namesakeStyle? drawings page placed.shape.kind number with
  | none =>
    rw [hnamesake, Option.getD_none] at hkeeps
    refine iff_of_true ?_ (by simp)
    rcases hkeeps with ⟨-, rfl⟩ | hequal
    · exact hself
    · exact BEq.symm hequal
  | some style =>
    rw [hnamesake, Option.getD_some] at hkeeps
    have hiff : (record == own) = true ↔ (style == own) = true := by
      rcases hkeeps with ⟨-, rfl⟩ | hequal
      · exact Iff.rfl
      · exact ⟨BEq.trans hequal, BEq.trans (BEq.symm hequal)⟩
    rw [hiff]
    exact ⟨fun hstyle style' heq => Option.some.inj heq ▸ hstyle, fun hall => hall style rfl⟩

/-- A page with a red circle and a box without a fill, and a page named after the box with a class
of its number. -/
def recoloring : Table Drawing :=
  .ofList [
    ("a", {
      sheets := [".x\x7bfill:#ff0000\x7d"]
      layers := [[.rect {}, .circle { classes := "x" }]] }),
    ("a-box", { sheets := [".0\x7bfill:#0000ff\x7d"] })]

/-- The circle keeps its style: no page is named after it. -/
theorem component_style_circle :
    ∃ layout components component name record own, compile {} recoloring = .ok layout ∧
      layout.pages.find? "a" = some components ∧ components[1]? = some component ∧
      component.style = some name ∧ layout.styles.find? name = some record ∧
      (recoloring.find? "a").bind (·.ownStyle? (.circle { classes := "x" })) = some own ∧
      (record == own) = true := by
  have hrun : (do
      let layout ← (compile {} recoloring).toOption
      let components ← layout.pages.find? "a"
      let _ ← components[1]?
      return ()) = some () := by decide +kernel
  obtain ⟨layout, hlayout, hrun⟩ := Option.bind_eq_some_iff.1 hrun
  obtain ⟨components, hcomponents, hrun⟩ := Option.bind_eq_some_iff.1 hrun
  obtain ⟨component, hcomponent, -⟩ := Option.bind_eq_some_iff.1 hrun
  have h := toOption_eq_some_iff.1 hlayout
  obtain ⟨drawing, placed, name, record, own, hdrawing, hplaced, hname, hrecord, hown, hiff⟩ :=
    component_style_iff h hcomponents hcomponent
  have hpage : recoloring.find? "a" = some {
      sheets := [".x\x7bfill:#ff0000\x7d"]
      layers := [[.rect {}, .circle { classes := "x" }]] } := rfl
  obtain rfl := Option.some.inj (hpage.symm.trans hdrawing)
  obtain rfl : ⟨1, 1, .circle { classes := "x" }⟩ = placed := Option.some.inj hplaced
  have hnamesake : (namesakeStyle? recoloring "a" .circle 1).isNone = true := by decide +kernel
  refine ⟨layout, components, component, name, record, own, h, hcomponents, hcomponent, hname,
    hrecord, hown, hiff.2 fun style hstyle => ?_⟩
  cases (Option.isNone_iff_eq_none.1 hnamesake).symm.trans hstyle

/-- The box gets the style of the class on the other page. -/
theorem component_recolored :
    ∃ layout components component name record own, compile {} recoloring = .ok layout ∧
      layout.pages.find? "a" = some components ∧ components[0]? = some component ∧
      component.style = some name ∧ layout.styles.find? name = some record ∧
      (recoloring.find? "a").bind (·.ownStyle? (.rect {})) = some own ∧
      (record == own) = false := by
  have hrun : (do
      let layout ← (compile {} recoloring).toOption
      let components ← layout.pages.find? "a"
      let component ← components[0]?
      let name ← component.style
      let record ← layout.styles.find? name
      let own ← (recoloring.find? "a").bind (·.ownStyle? (.rect {}))
      return record == own) = some false := by decide +kernel
  obtain ⟨layout, hlayout, hrun⟩ := Option.bind_eq_some_iff.1 hrun
  obtain ⟨components, hcomponents, hrun⟩ := Option.bind_eq_some_iff.1 hrun
  obtain ⟨component, hcomponent, hrun⟩ := Option.bind_eq_some_iff.1 hrun
  obtain ⟨name, hname, hrun⟩ := Option.bind_eq_some_iff.1 hrun
  obtain ⟨record, hrecord, hrun⟩ := Option.bind_eq_some_iff.1 hrun
  obtain ⟨own, hown, hrun⟩ := Option.bind_eq_some_iff.1 hrun
  exact ⟨layout, components, component, name, record, own, toOption_eq_some_iff.1 hlayout,
    hcomponents, hcomponent, hname, hrecord, hown, Option.some.inj hrun⟩

end RenderLayout
