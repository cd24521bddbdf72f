import RenderLayout.Proofs.Cascade
import RenderLayout.Proofs.Unify

/-!
What becomes of the style of a class.

All pages enter their styles in one table: a page those of its classes, then those of its components.
Of several styles under a name the last one is left, so that a class is lost when a component of its
page, or a class or a component of a later page, goes by its name and has a different style.
-/

namespace RenderLayout

variable {drawings : Table Drawing} {drawing : Drawing} {page name className : String}

/-! ### The last style under a name -/

namespace Drawing

/-- The style of the component of a page that goes by a name. -/
def componentStyle? (drawing : Drawing) (page name : String) : Option Style :=
  drawing.placed.zipIdx.findSome? fun p =>
    if componentStyleName page p.1.shape.kind p.2 = name then drawing.ownStyle? p.1.shape else none

/-- The style that a page leaves under a name: that of a component, or else that of a class. -/
def styleUnder? (drawing : Drawing) (page name : String) : Option Style :=
  (drawing.componentStyle? page name).or
    ((Text.after? (page ++ "-").toList name.toList).bind
      fun className => drawing.classStyle? (String.ofList className))

lemma find?_classStyles_name {classes : Table Style} (h : drawing.classStyles page = .ok classes)
    (name : String) : classes.find? name =
      (Text.after? (page ++ "-").toList name.toList).bind
        fun className => drawing.classStyle? (String.ofList className) := by
  cases hafter : Text.after? (page ++ "-").toList name.toList with
  | some rest =>
    have hname : name = classStyleName page (String.ofList rest) := by
      refine String.toList_inj.1 ?_
      rw [Text.eq_append_of_after? hafter, toList_classStyleName]
      simp
    rw [Option.bind_some, hname, find?_classStyles h]
  | none =>
    rw [Option.bind_none, ← Table.contains_eq_false_iff]
    by_contra hcontains
    obtain ⟨className, rfl⟩ := className_of_contains h (Bool.not_eq_false _ ▸ hcontains)
    rw [after?_classStyleName] at hafter
    cases hafter

lemma isSome_styleUnder? {style : Style} (h : drawing.classStyle? className = some style) :
    (drawing.styleUnder? page (classStyleName page className)).isSome = true := by
  rw [styleUnder?, after?_classStyleName, Option.bind_some, String.ofList_toList, h,
    Option.isSome_or, Option.isSome_some, Bool.or_true]

end Drawing

/-- The style that comes last under a name, the pages taken in order. -/
def lastStyle? (drawings : Table Drawing) (name : String) : Option Style :=
  drawings.pairs.reverse.findSome? fun p => p.2.styleUnder? p.1 name

lemma isSome_lastStyle? {style : Style} (hdrawing : drawings.find? page = some drawing)
    (hclass : drawing.classStyle? className = some style) :
    (lastStyle? drawings (classStyleName page className)).isSome = true :=
  List.findSome?_isSome_iff.2 ⟨(page, drawing),
    List.mem_reverse.2 (Table.find?_eq_some_iff.1 hdrawing), Drawing.isSome_styleUnder? hclass⟩

/-! ### The draft of all pages -/

namespace Draft

/-- A page comes over the styles of earlier pages. -/
lemma find?_enterDrawing {result : Page} (h : drawing.toPage page = .ok result) (draft : Draft)
    (name : String) :
    (draft.enterDrawing page drawing).styles.find? name =
      (drawing.styleUnder? page name).or (draft.styles.find? name) := by
  obtain ⟨classes, entries, hclasses, hentries, hstyles⟩ := styles_enterDrawing h draft
  unfold Drawing.styleUnder?
  rw [← Drawing.find?_classStyles_name hclasses, Option.or_assoc]
  cases hcomponent : drawing.componentStyle? page name with
  | some style =>
    -- the component of that name is entered behind all classes
    obtain ⟨⟨placed, number⟩, hmem, hstyle⟩ := List.exists_of_findSome?_eq_some hcomponent
    dsimp only at hstyle
    split at hstyle
    case isFalse => cases hstyle
    case isTrue hname =>
      have hplaced := List.mem_zipIdx_iff_getElem?.1 hmem
      obtain ⟨others, own, hothers, hown, hfind⟩ := find?_enterDrawing_component h draft hplaced
      rw [← hname, hfind, ← hstyle, (Drawing.style_eq_ok_iff hothers).1 hown, Option.some_or]
  | none =>
    rw [hstyles, Table.find?_insertAll_of_ne, Table.find?_insertAll_pairs, Option.none_or]
    intro e he hname
    obtain ⟨i, hi⟩ := List.mem_iff_getElem?.1 he
    obtain ⟨p, hp, hkey, hstyle⟩ := forall₂_getElem?_right hentries hi
    have hnone := List.findSome?_eq_none_iff.1 hcomponent p (List.mem_of_getElem? hp)
    have hp : componentStyleName page p.1.shape.kind p.2 = name := hkey.symm.trans hname
    rw [if_pos hp, (Drawing.style_eq_ok_iff hclasses).1 hstyle] at hnone
    cases hnone

lemma find?_foldl_enterDrawing {l : List (String × Drawing)}
    (hmade : ∀ p ∈ l, ∃ result, p.2.toPage p.1 = .ok result) (draft : Draft) (name : String) :
    (l.foldl (fun draft p => draft.enterDrawing p.1 p.2) draft).styles.find? name =
      (l.reverse.findSome? fun p => p.2.styleUnder? p.1 name).or (draft.styles.find? name) := by
  induction l generalizing draft with
  | nil => rfl
  | cons p rest ih =>
    obtain ⟨result, hresult⟩ := hmade p List.mem_cons_self
    rw [List.foldl_cons, ih fun q hq => hmade q (List.mem_cons_of_mem _ hq),
      find?_enterDrawing hresult, List.reverse_cons, List.findSome?_append, Option.or_assoc]
    simp

/-- In the draft of all pages every name has the style that comes last under it. -/
lemma find?_entered_eq (hmade : ∀ p ∈ drawings.pairs, ∃ result, p.2.toPage p.1 = .ok result)
    (name : String) : (entered drawings).styles.find? name = lastStyle? drawings name := by
  rw [entered, find?_foldl_enterDrawing hmade, Table.find?_empty, Option.or_none]
  rfl

lemma entered_of_ofDrawings {canvas : Canvas} {draft : Draft}
    (h : ofDrawings canvas drawings = .ok draft) :
    draft = entered drawings ∧ ∀ p ∈ drawings.pairs, ∃ result, p.2.toPage p.1 = .ok result := by
  have hrun : ofDrawings canvas drawings =
      (drawings.pairs.mapM (Drawing.outcome canvas)).map fun _ => entered drawings :=
    foldlM_addChecked canvas drawings.pairs {}
  rw [hrun] at h
  cases hpages : drawings.pairs.mapM (Drawing.outcome canvas) with
  | error failure =>
    rw [hpages] at h
    cases h
  | ok pages =>
    rw [hpages] at h
    refine ⟨(Except.ok.inj h).symm, fun p hp => ?_⟩
    obtain ⟨i, hi⟩ := List.mem_iff_getElem?.1 hp
    obtain ⟨result, -, hresult⟩ := forall₂_getElem?_left (mapM_eq_ok_iff.1 hpages) hi
    exact ⟨result, (Drawing.toCheckedPage_eq_ok_iff.1 (mapError_eq_ok_iff.1 hresult)).2⟩

end Draft

/-- A style goes on under its survivor, or an equal one does. -/
lemma Layout.find?_survivor {layout : Layout} (classes : Names) {style : Style}
    (h : layout.styles.find? name = some style) :
    ∃ record, (layout.unify classes).styles.find?
      (survivor (layout.replacements classes) name) = some record ∧
        (record = style ∨ (style == record) = true) := by
  have hkeeps : KeepsStyle layout.styles (layout.unify classes).styles
      { (default : Component) with style := some name } _ := keepsStyle_rename _
  obtain ⟨other, record, hother, hrecord, hequal⟩ := hkeeps.resolved name style rfl h
  obtain rfl : survivor (layout.replacements classes) name = other := Option.some.inj hother
  exact ⟨record, hrecord, hequal.imp_left And.right⟩

/-! ### Layouts -/

/-- **The style of a class** in a layout: the record under the name that unification gives the class
equals the style of its last rule just when the style that comes last under the name of the class
does. A record that equals it is in the layout under any name just when such a style comes last under
some name. -/
theorem class_style_kept_iff {canvas : Canvas} {layout : Layout} {own : Style}
    (h : compile canvas drawings = .ok layout) (hdrawing : drawings.find? page = some drawing)
    (hclass : drawing.classStyle? className = some own) :
    ∃ draft record, Draft.ofDrawings canvas drawings = .ok draft ∧
      layout = draft.layout.unify draft.classes ∧
      layout.styles.find? (survivor (draft.layout.replacements draft.classes)
        (classStyleName page className)) = some record ∧
      ((record == own) = true ↔
        ∃ last, lastStyle? drawings (classStyleName page className) = some last ∧
          (last == own) = true) ∧
      ((∃ name kept, layout.styles.find? name = some kept ∧ (kept == own) = true) ↔
        ∃ name last, lastStyle? drawings name = some last ∧ (last == own) = true) := by
  obtain ⟨draft, hdraft, hlayout⟩ := bind_eq_ok_iff.1 h
  obtain rfl := Except.ok.inj hlayout
  obtain ⟨hentered, hmade⟩ := Draft.entered_of_ofDrawings hdraft
  have hlast (name : String) : draft.layout.styles.find? name = lastStyle? drawings name := by
    rw [hentered]
    exact Draft.find?_entered_eq hmade name
  obtain ⟨last, hsome⟩ : ∃ last, lastStyle? drawings (classStyleName page className) = some last :=
    Option.isSome_iff_exists.1 (isSome_lastStyle? hdrawing hclass)
  obtain ⟨record, hrecord, hkept⟩ :=
    Layout.find?_survivor draft.classes ((hlast _).trans hsome)
  refine ⟨draft, record, hdraft, rfl, hrecord, ?_, ?_, ?_⟩
  · simp only [hsome, Option.some.injEq, exists_eq_left']
    rcases hkept with rfl | hequal
    · exact Iff.rfl
    · exact ⟨BEq.trans hequal, BEq.trans (BEq.symm hequal)⟩
  · rintro ⟨name, kept, hfind, hequal⟩
    exact ⟨name, kept, (hlast name).symm.trans (Layout.find?_styles_of_unify hfind), hequal⟩
  · rintro ⟨name, last, hname, hequal⟩
    obtain ⟨kept, hfind, hsame⟩ :=
      Layout.find?_survivor draft.classes ((hlast name).trans hname)
    refine ⟨_, kept, hfind, ?_⟩
    rcases hsame with rfl | hsame
    · exact hequal
    · exact BEq.trans (BEq.symm hsame) hequal

/-- Two pages with a class of the same style. -/
def twins : Table Drawing :=
  .ofList [
    ("a", { sheets := [".x\x7bfill:#ff0000\x7d"] }),
    ("b", { sheets := [".y\x7bfill:#ff0000\x7d"] })]

/-- The class of the second page is kept under the name of that of the first one. -/
theorem class_style_kept_twins :
    ∃ layout record own, compile {} twins = .ok layout ∧
      (twins.find? "b").bind (·.classStyle? "y") = some own ∧
      layout.styles.find? "a-x" = some record ∧ (record == own) = true := by
  have hrun : (do
      let layout ← (compile {} twins).toOption
      let drawing ← twins.find? "b"
      let own ← drawing.classStyle? "y"
      let last ← lastStyle? twins (classStyleName "b" "y")
      let draft ← (Draft.ofDrawings {} twins).toOption
      let name := survivor (draft.layout.replacements draft.classes) (classStyleName "b" "y")
      return (name, last == own)) = some ("a-x", true) := by decide +kernel
  obtain ⟨layout, hlayout, hrun⟩ := Option.bind_eq_some_iff.1 hrun
  obtain ⟨drawing, hdrawing, hrun⟩ := Option.bind_eq_some_iff.1 hrun
  obtain ⟨own, hown, hrun⟩ := Option.bind_eq_some_iff.1 hrun
  obtain ⟨last, hlast, hrun⟩ := Option.bind_eq_some_iff.1 hrun
  obtain ⟨draft, hdraft, hrun⟩ := Option.bind_eq_some_iff.1 hrun
  obtain ⟨hname, hequal⟩ := Prod.mk.inj (Option.some.inj hrun)
  obtain ⟨draft', record, hdraft', -, hrecord, hkept, -⟩ :=
    class_style_kept_iff (toOption_eq_some_iff.1 hlayout) hdrawing hown
  obtain rfl : draft = draft' :=
    Except.ok.inj ((toOption_eq_some_iff.1 hdraft).symm.trans hdraft')
  rw [hname] at hrecord
  refine ⟨layout, record, own, toOption_eq_some_iff.1 hlayout, ?_, hrecord,
    hkept.2 ⟨last, hlast, hequal⟩⟩
  rw [hdrawing, Option.bind_some, hown]

/-- A class that goes by the name of the first box, which is drawn in another color. -/
def overprinting : Table Drawing :=
  .ofList [("p", {
    sheets := [".box-0\x7bfill:#ff0000\x7d"]
    layers := [[.rect { style := "fill:#0000ff" }]] })]

/-- No record of the layout equals the style of the class. -/
theorem class_style_lost :
    ∃ layout own, compile {} overprinting = .ok layout ∧
      (overprinting.find? "p").bind (·.classStyle? "box-0") = some own ∧
      ∀ name record, layout.styles.find? name = some record → (record == own) = false := by
  have hrun : (do
      let layout ← (compile {} overprinting).toOption
      let own ← (overprinting.find? "p").bind (·.classStyle? "box-0")
      return layout.styles.pairs.all fun p => !(p.2 == own)) = some true := by decide +kernel
  obtain ⟨layout, hlayout, hrun⟩ := Option.bind_eq_some_iff.1 hrun
  obtain ⟨own, hown, hrun⟩ := Option.bind_eq_some_iff.1 hrun
  refine ⟨layout, own, toOption_eq_some_iff.1 hlayout, hown, fun name record hrecord => ?_⟩
  have hall := List.all_eq_true.1 (Option.some.inj hrun) _ (Table.find?_eq_some_iff.1 hrecord)
  simpa using hall

end RenderLayout
