import RenderLayout.Drawing.Decode
import RenderLayout.Proofs.DeclaredStrokes
import RenderLayout.Proofs.LayoutNumbers
import RenderLayout.Proofs.References

/-!
Which drawings are written without a null.

Numbers are read from any decimal and from the words for infinity and for what is not a number, and
long decimals overflow. The layout of drawings is written in numbers alone just if those that its
components and styles take from the drawings are finite.
-/

namespace RenderLayout

open Number

lemma Number.isFinite_of_beq {x y : Float} (h : (x == y) = true) : x.isFinite = y.isFinite := by
  show x.toModel.unpack.isFinite = y.toModel.unpack.isFinite
  rw [beq_iff, compare_eq_eq_iff] at h
  obtain ⟨-, heq | ⟨⟨s, hs⟩, t, ht⟩⟩ := h
  · rw [heq]
  · rw [hs, ht]
    rfl

/-! ### Styles of declarations -/

/-- The declarations of a drawing: the bodies of its rules, and those of its shapes. -/
def Drawing.declared (drawing : Drawing) : List String :=
  (drawing.sheets.flatMap Sheet.rules).map (·.body) ++
    drawing.placed.map (·.shape.declarations)

section Declared

variable {P : Style → Prop} {drawing : Drawing}

/-- What holds of all styles in a draft goes on to hold when a drawing is entered. -/
lemma Draft.of_styles_enterDrawing {page : String} {result : Page}
    (hresult : drawing.toPage page = .ok result)
    (horElse : ∀ style base, P style → P base → P (style.orElse base))
    (hdeclared : ∀ text ∈ drawing.declared, ∀ style,
      Style.ofDeclarations text = .ok style → P style)
    {draft : Draft} (h : ∀ name style, draft.styles.find? name = some style → P style) :
    ∀ name style, (draft.enterDrawing page drawing).styles.find? name = some style → P style := by
  obtain ⟨classes, entries, hclasses, hentries, hstyles⟩ := styles_enterDrawing hresult draft
  intro name style hfound
  rw [hstyles] at hfound
  rcases Table.mem_or_of_find?_insertAll hfound with hentry | hfound
  · obtain ⟨i, hi⟩ := List.mem_iff_getElem?.1 hentry
    obtain ⟨⟨placed, number⟩, hplaced, -, hstyle⟩ := forall₂_getElem?_right hentries hi
    have hmem := List.fst_mem_of_mem_zipIdx (List.mem_of_getElem? hplaced)
    refine Drawing.of_ownStyle? horElse (fun rule hrule => ?_) ?_
      ((Drawing.style_eq_ok_iff hclasses).1 hstyle)
    · exact hdeclared _ (List.mem_append_left _ (List.mem_map_of_mem hrule))
    · exact hdeclared _ (List.mem_append_right _ (List.mem_map.2 ⟨placed, hmem, rfl⟩))
  · rcases Table.mem_or_of_find?_insertAll hfound with hclass | hfound
    · have hclass := Table.find?_eq_some_iff.2 hclass
      obtain ⟨className, rfl⟩ :=
        Drawing.className_of_contains hclasses (Table.contains_of_find? hclass)
      rw [Drawing.find?_classStyles hclasses] at hclass
      refine Drawing.of_classStyle? (fun rule hrule => ?_) hclass
      exact hdeclared _ (List.mem_append_left _ (List.mem_map_of_mem hrule))
    · exact h name style hfound

/-- What holds of the style of every declaration, and of a style over another one, holds of all
styles. -/
lemma Draft.of_styles_entered {drawings : Table Drawing}
    (hmade : ∀ p ∈ drawings.pairs, ∃ result, p.2.toPage p.1 = .ok result)
    (horElse : ∀ style base, P style → P base → P (style.orElse base))
    (hdeclared : ∀ p ∈ drawings.pairs, ∀ text ∈ p.2.declared, ∀ style,
      Style.ofDeclarations text = .ok style → P style) :
    ∀ name style, (entered drawings).styles.find? name = some style → P style := by
  have hrun : ∀ (l : List (String × Drawing)), (∀ p ∈ l, p ∈ drawings.pairs) → ∀ draft : Draft,
      (∀ name style, draft.styles.find? name = some style → P style) → ∀ name style,
        (l.foldl (fun draft p => draft.enterDrawing p.1 p.2) draft).styles.find? name =
          some style → P style := by
    intro l
    induction l with
    | nil => exact fun _ draft h => h
    | cons p l ih =>
      intro hl draft h
      have hp := hl p List.mem_cons_self
      obtain ⟨result, hresult⟩ := hmade p hp
      exact ih (fun q hq => hl q (List.mem_cons_of_mem p hq)) _
        (of_styles_enterDrawing hresult horElse (hdeclared p hp) h)
  exact hrun drawings.pairs (fun _ hp => hp) {} nofun

end Declared

/-- A style as declarations can give it: without NaN, and with neither an angle nor a shadow. -/
structure Style.Declarable (style : Style) : Prop where
  nanFree : style.NaNFree
  rotation : style.rotation = none
  shadow : style.shadow = none

lemma Style.declarable_ofDeclarations {text : String} {style : Style}
    (h : Style.ofDeclarations text = .ok style) : style.Declarable := by
  have hnan := Style.nanFree_ofDeclarations h
  obtain ⟨fill, -, h⟩ := bind_eq_ok_iff.1 h
  obtain ⟨stroke, -, h⟩ := bind_eq_ok_iff.1 h
  obtain rfl := Except.ok.inj h
  exact ⟨hnan, rfl, rfl⟩

lemma Style.Declarable.orElse {style base : Style} (hs : style.Declarable)
    (hb : base.Declarable) : (style.orElse base).Declarable where
  nanFree := hs.nanFree.orElse hb.nanFree
  rotation := by simp [Style.orElse, hs.rotation, hb.rotation]
  shadow := by simp [Style.orElse, hs.shadow, hb.shadow]

/-- The stroke of a style, if it has one, reaches a finite distance. -/
def Style.StrokeFinite (style : Style) : Prop :=
  ∀ edge, style.stroke = some edge → edge.distance.isFinite = true

/-- In the texts that come last under a name, the first stroke that is declared reaches a finite
distance. -/
def StrokesFinite (drawings : Table Drawing) : Prop :=
  ∀ name texts, lastTexts? drawings name = some texts →
    ∀ edge, Declarations.firstStroke? texts = some edge → edge.distance.isFinite = true

lemma Draft.strokeFinite_entered_iff {drawings : Table Drawing}
    (hmade : ∀ p ∈ drawings.pairs, ∃ result, p.2.toPage p.1 = .ok result) :
    (∀ name style, (entered drawings).styles.find? name = some style → style.StrokeFinite) ↔
      StrokesFinite drawings := by
  constructor
  · intro h name texts htexts edge hedge
    have hstroke := stroke_lastStyle? hmade name
    rw [htexts, Option.map_some, Option.map_eq_some_iff] at hstroke
    obtain ⟨style, hstyle, hstroke⟩ := hstroke
    exact h name style ((find?_entered_eq hmade name).trans hstyle) edge (hstroke.trans hedge)
  · intro h name style hstyle edge hedge
    have hstroke := stroke_lastStyle? hmade name
    rw [← find?_entered_eq hmade, hstyle, Option.map_some, eq_comm,
      Option.map_eq_some_iff] at hstroke
    obtain ⟨texts, htexts, hstroke⟩ := hstroke
    exact h name texts htexts edge (hstroke.trans hedge)

lemma Drawing.mem_declared_of_classText? {drawing : Drawing} {className text : String}
    (h : drawing.classText? className = some text) : text ∈ drawing.declared := by
  obtain ⟨rule, hrule, rfl⟩ := Option.map_eq_some_iff.1 h
  have hmem := List.mem_reverse.1 (List.mem_of_find?_eq_some hrule)
  exact List.mem_append_left _ (List.mem_map_of_mem hmem)

/-- The texts under a name are declared in the drawing. -/
lemma Drawing.mem_declared_of_textsUnder? {drawing : Drawing} {page name text : String}
    {texts : List String} (h : drawing.textsUnder? page name = some texts) (htext : text ∈ texts) :
    text ∈ drawing.declared := by
  rcases Option.or_eq_some_iff.1 h with hcomponent | ⟨-, hclass⟩
  · obtain ⟨⟨placed, number⟩, hmem, hnamed⟩ := List.exists_of_findSome?_eq_some hcomponent
    dsimp only at hnamed
    split at hnamed
    case isFalse => cases hnamed
    case isTrue =>
      obtain rfl := Option.some.inj hnamed
      rcases List.mem_cons.1 htext with rfl | htext
      · exact List.mem_append_right _
          (List.mem_map.2 ⟨placed, List.fst_mem_of_mem_zipIdx hmem, rfl⟩)
      · obtain ⟨word, -, hword⟩ := List.mem_filterMap.1 htext
        exact mem_declared_of_classText? hword
  · obtain ⟨className, -, hclass⟩ := Option.bind_eq_some_iff.1 hclass
    obtain ⟨body, hbody, rfl⟩ := Option.map_eq_some_iff.1 hclass
    obtain rfl := List.mem_singleton.1 htext
    exact mem_declared_of_classText? hbody

/-- If no declared stroke is infinite, none is the first one anywhere. -/
lemma strokesFinite_of_declared {drawings : Table Drawing}
    (h : ∀ p ∈ drawings.pairs, ∀ text ∈ p.2.declared, ∀ edge,
      Declarations.declared? text = some edge → edge.distance.isFinite = true) :
    StrokesFinite drawings := by
  intro name texts htexts edge hedge
  obtain ⟨p, hp, hunder⟩ := List.exists_of_findSome?_eq_some htexts
  obtain ⟨text, htext, hdeclared⟩ := List.exists_of_findSome?_eq_some hedge
  have hmem : text ∈ p.2.declared := Drawing.mem_declared_of_textsUnder? hunder htext
  exact h p (List.mem_reverse.1 hp) text hmem edge hdeclared

lemma Style.Declarable.isFinite_iff {style : Style} (h : style.Declarable) :
    style.IsFinite ↔ style.StrokeFinite := by
  constructor
  · exact fun hfinite => hfinite.stroke
  · intro hstroke
    refine ⟨hstroke, fun angle hangle => ?_, fun edge hedge => ?_⟩
    · rw [h.rotation] at hangle
      cases hangle
    · rw [h.shadow] at hedge
      cases hedge

lemma Style.strokeFinite_of_beq {a b : Style} (h : (a == b) = true) (hb : b.StrokeFinite) :
    a.StrokeFinite := by
  intro edge hedge
  have hstroke := (Style.beq_iff.1 h).2.1
  rw [hedge] at hstroke
  cases hother : b.stroke with
  | none =>
    rw [hother] at hstroke
    cases hstroke
  | some other =>
    rw [hother] at hstroke
    have hdistance := (Edge.beq_iff.1 hstroke).2
    rw [isFinite_of_beq hdistance]
    exact hb other hother

/-! ### Shapes -/

/-- The text of a shape leaves a property as it is. -/
def Unbound (description property : String) : Prop :=
  (Binding.ofText description).find? property = none

instance (description property : String) : Decidable (Unbound description property) :=
  inferInstanceAs (Decidable (_ = _))

instance (point : Point) : Decidable point.IsFinite := inferInstanceAs (Decidable (_ ∧ _))

/-- The numbers that the component of a shape is written with are finite. -/
def Drawing.DrawsFinite (drawing : Drawing) : Shape → Prop
  | .rect r =>
    (Unbound r.description "pos1" → Point.IsFinite ⟨r.x, r.y⟩) ∧
      (Unbound r.description "pos2" → Point.IsFinite ⟨r.x + r.width, r.y + r.height⟩) ∧
      ∀ radius, drawing.cornerRadius? r.pathEffect = some radius → radius.isFinite = true
  | .circle c =>
    (Unbound c.description "pos1" → Point.IsFinite ⟨c.cx, c.cy⟩) ∧ c.r.isFinite = true
  | .text t =>
    Unbound t.description "pos1" → Point.IsFinite ⟨(t.spans.headD {}).x, (t.spans.headD {}).y⟩

instance (drawing : Drawing) (shape : Shape) : Decidable (drawing.DrawsFinite shape) :=
  match shape with
  | .rect r =>
    inferInstanceAs (Decidable (
      (Unbound r.description "pos1" → Point.IsFinite ⟨r.x, r.y⟩) ∧
        (Unbound r.description "pos2" → Point.IsFinite ⟨r.x + r.width, r.y + r.height⟩) ∧
        ∀ radius ∈ drawing.cornerRadius? r.pathEffect, radius.isFinite = true))
  | .circle c =>
    inferInstanceAs (Decidable (
      (Unbound c.description "pos1" → Point.IsFinite ⟨c.cx, c.cy⟩) ∧ c.r.isFinite = true))
  | .text t =>
    inferInstanceAs (Decidable (Unbound t.description "pos1" →
      Point.IsFinite ⟨(t.spans.headD {}).x, (t.spans.headD {}).y⟩))

lemma Placed.drawsFinite_iff {placed : Placed} {drawing : Drawing} {name : String} :
    drawing.DrawsFinite placed.shape ↔
      (placed.drawn drawing name).RadiiFinite ∧ (placed.drawn drawing name).PositionsFinite := by
  obtain ⟨layer, index, shape⟩ := placed
  cases shape with
  | rect r =>
    constructor
    · rintro ⟨hpos1, hpos2, hradius⟩
      exact ⟨⟨nofun, hradius⟩,
        ⟨hpos1, fun hnone point hpoint => Option.some.inj hpoint ▸ hpos2 hnone⟩⟩
    · rintro ⟨hradii, hpositions⟩
      exact ⟨hpositions.pos1, fun hnone => hpositions.pos2 hnone _ rfl, hradii.cornerRadius⟩
  | circle c =>
    constructor
    · rintro ⟨hpos1, hr⟩
      exact ⟨⟨fun r hradius => Option.some.inj hradius ▸ hr, nofun⟩, ⟨hpos1, nofun⟩⟩
    · rintro ⟨hradii, hpositions⟩
      exact ⟨hpositions.pos1, hradii.radius _ rfl⟩
  | text t =>
    constructor
    · exact fun hpos1 => ⟨⟨nofun, nofun⟩, ⟨hpos1, nofun⟩⟩
    · exact fun h => h.2.pos1

/-- The components of a page are finite just if the shapes of its drawing are drawn so. -/
lemma Drawing.drawsFinite_iff {page : String} {drawing : Drawing} {result : Page}
    (h : drawing.toPage page = .ok result) :
    (∀ placed ∈ drawing.placed, drawing.DrawsFinite placed.shape) ↔
      ∀ c ∈ result, c.RadiiFinite ∧ c.PositionsFinite := by
  obtain ⟨classes, -, hcomponents⟩ := toPage_eq_ok_iff.1 h
  have hmade := mapM_eq_ok_iff.1 hcomponents
  have hnumbered : (∀ placed ∈ drawing.placed, drawing.DrawsFinite placed.shape) ↔
      ∀ p ∈ drawing.placed.zipIdx, drawing.DrawsFinite p.1.shape := by
    constructor
    · exact fun hall p hp => hall p.1 (List.fst_mem_of_mem_zipIdx hp)
    · intro hall placed hplaced
      obtain ⟨number, hnumber⟩ := List.mem_iff_getElem?.1 hplaced
      exact hall (placed, number) (List.mem_iff_getElem?.2 ⟨number, by simp [hnumber]⟩)
  rw [hnumbered]
  clear hnumbered hcomponents h
  generalize drawing.placed.zipIdx = shapes at hmade
  induction hmade with
  | nil => simp
  | @cons p c shapes result hp _ ih =>
    rw [List.forall_mem_cons, List.forall_mem_cons]
    refine and_congr ?_ ih
    rw [(PageContext.made_eq_ok_iff.1 hp).2.2]
    exact Placed.drawsFinite_iff

/-! ### Layouts -/

namespace Layout

variable {layout : Layout} {classes : Names}

/-- Of equal styles one is left, so that an infinite stroke stays in the layout. -/
lemma strokeFinite_unify (hnan : ∀ name style, layout.styles.find? name = some style →
      style.NaNFree) :
    (∀ name style, (layout.unify classes).styles.find? name = some style → style.StrokeFinite) ↔
      ∀ name style, layout.styles.find? name = some style → style.StrokeFinite := by
  constructor
  · intro h name style hstyle
    obtain ⟨kept, hkept⟩ :=
      exists_represents classes (Alike.of_nanFree hstyle (hnan name style hstyle))
    obtain ⟨left, hleft⟩ := Table.contains_iff.1 (represents_left hkept)
    obtain ⟨first, second, hfirst, hsecond, hequal⟩ := hkept.alike
    obtain rfl : style = first := Option.some.inj (hstyle.symm.trans hfirst)
    obtain rfl : left = second :=
      Option.some.inj ((find?_styles_of_unify hleft).symm.trans hsecond)
    exact Style.strokeFinite_of_beq hequal (h kept left hleft)
  · exact fun h name style hstyle => h name style (find?_styles_of_unify hstyle)

/-- New names of styles change no number of a component. -/
lemma finite_unify :
    (∀ name page, (layout.unify classes).pages.find? name = some page →
        ∀ c ∈ page, c.RadiiFinite ∧ c.PositionsFinite) ↔
      ∀ name page, layout.pages.find? name = some page →
        ∀ c ∈ page, c.RadiiFinite ∧ c.PositionsFinite := by
  constructor
  · intro h name page hpage c hc
    have hrenamed := h name _ (find?_pages_unify_iff.2 ⟨page, hpage, rfl⟩) _
      (List.mem_map_of_mem hc)
    exact ⟨⟨hrenamed.1.radius, hrenamed.1.cornerRadius⟩, ⟨hrenamed.2.pos1, hrenamed.2.pos2⟩⟩
  · intro h name page hpage c hc
    obtain ⟨old, hold, rfl⟩ := find?_pages_unify_iff.1 hpage
    obtain ⟨before, hbefore, rfl⟩ := List.mem_map.1 hc
    have hfinite := h name old hold before hbefore
    exact ⟨⟨hfinite.1.radius, hfinite.1.cornerRadius⟩, ⟨hfinite.2.pos1, hfinite.2.pos2⟩⟩

end Layout

/-- The pages of a draft have the numbers of their drawings. -/
lemma Draft.finite_entered {drawings : Table Drawing}
    (hmade : ∀ p ∈ drawings.pairs, ∃ result, p.2.toPage p.1 = .ok result) :
    (∀ name page, (entered drawings).pages.find? name = some page →
        ∀ c ∈ page, c.RadiiFinite ∧ c.PositionsFinite) ↔
      ∀ p ∈ drawings.pairs, ∀ placed ∈ p.2.placed, p.2.DrawsFinite placed.shape := by
  constructor
  · intro h p hp
    obtain ⟨result, hresult⟩ := hmade p hp
    exact (Drawing.drawsFinite_iff hresult).2
      (h p.1 result (find?_pages_entered hmade hp hresult))
  · intro h name page hpage
    obtain ⟨drawing, hmem, hdrawing⟩ := (drawing_of_page hmade {} hpage).resolve_right (by simp)
    exact (Drawing.drawsFinite_iff hdrawing).1 (h _ hmem)

/-- A layout is written in numbers: there is no null in its text, what is written as a number is
finite, and what is written as a position is an expression or a pair of decimals. -/
structure Layout.WritesNumbers (layout : Layout) : Prop where
  no_null : ¬ Json.HasNull layout.text
  numbers : layout.NumbersFinite
  positions : ∀ name page, layout.pages.find? name = some page → ∀ c ∈ page, c.WritesPairs

lemma Layout.writesNumbers_iff {layout : Layout} : layout.WritesNumbers ↔
    (∀ name style, layout.styles.find? name = some style → style.IsFinite) ∧
      ∀ name page, layout.pages.find? name = some page →
        ∀ c ∈ page, c.RadiiFinite ∧ c.PositionsFinite := by
  constructor
  · rintro ⟨-, hnumbers, hpositions⟩
    refine ⟨hnumbers.styles, fun name page hpage c hc => ⟨hnumbers.radii name page hpage c hc, ?_⟩⟩
    exact Component.writesPairs_iff.1 (hpositions name page hpage c hc)
  · rintro ⟨hstyles, hpages⟩
    have hnumbers : layout.NumbersFinite :=
      ⟨hstyles, fun name page hpage c hc => (hpages name page hpage c hc).1⟩
    refine ⟨not_hasNull_text_iff.2 hnumbers, hnumbers, fun name page hpage c hc => ?_⟩
    exact Component.writesPairs_iff.2 (hpages name page hpage c hc).2

/-- **Layouts are written in numbers** just if the shapes of their drawings are drawn with finite
numbers, and the strokes that their declarations come to are finite. -/
theorem compile_writesNumbers_iff {canvas : Canvas} {drawings : Table Drawing} {layout : Layout}
    (h : compile canvas drawings = .ok layout) :
    layout.WritesNumbers ↔
      (∀ p ∈ drawings.pairs, ∀ placed ∈ p.2.placed, p.2.DrawsFinite placed.shape) ∧
      StrokesFinite drawings := by
  obtain ⟨hchecked, rfl⟩ := compile_eq_ok_iff.1 h
  have hmade (p : String × Drawing) (hp : p ∈ drawings.pairs) :
      ∃ result, p.2.toPage p.1 = .ok result := by
    obtain ⟨result, hresult⟩ := hchecked p hp
    exact ⟨result, (Drawing.toCheckedPage_eq_ok_iff.1 hresult).2⟩
  have hdeclarable := Draft.of_styles_entered hmade (fun _ _ hs hb => hs.orElse hb)
    fun p _ text _ style hstyle => Style.declarable_ofDeclarations hstyle
  have hstyle (name : String) (style : Style)
      (hfound : ((Draft.entered drawings).layout.unify
        (Draft.entered drawings).classes).styles.find? name = some style) :
      style.IsFinite ↔ style.StrokeFinite :=
    (hdeclarable name style (Layout.find?_styles_of_unify hfound)).isFinite_iff
  rw [Layout.writesNumbers_iff, Layout.finite_unify, ← Draft.finite_entered hmade,
    ← Draft.strokeFinite_entered_iff hmade, and_comm]
  refine and_congr Iff.rfl ?_
  rw [forall₂_congr fun name style => imp_congr_right (hstyle name style)]
  exact Layout.strokeFinite_unify fun name style hfound => (hdeclarable name style hfound).nanFree

/-- A page with a circle in a stroke, whose place is an expression. -/
def gauge : String :=
  "<svg width=\"1024\" height=\"613\"><g><circle cx=\"nan\" r=\"3\" style=\"stroke:#000000\">" ++
    "<desc>pos1:$at(x)</desc></circle></g></svg>"

theorem writesNumbers_gauge : ∃ drawing layout, Drawing.ofMarkup gauge = .ok drawing ∧
    compile {} (.ofList [("p", drawing)]) = .ok layout ∧ layout.WritesNumbers := by
  have hfinite : ((Drawing.ofMarkup gauge).toOption.bind fun drawing => do
      let _ ← (compile {} (.ofList [("p", drawing)])).toOption
      return decide (∀ placed ∈ drawing.placed, drawing.DrawsFinite placed.shape) &&
        drawing.declared.all fun text => (Declarations.declared? text).all fun edge =>
          edge.distance.isFinite) = some true := by
    decide +kernel
  obtain ⟨drawing, hdrawing, h⟩ := Option.bind_eq_some_iff.1 hfinite
  obtain ⟨layout, hlayout, h⟩ := Option.bind_eq_some_iff.1 h
  have hcompiled := toOption_eq_some_iff.1 hlayout
  have hboth := Option.some.inj h
  rw [Bool.and_eq_true, decide_eq_true_iff, List.all_eq_true] at hboth
  have honly : ∀ p ∈ (Table.ofList [("p", drawing)]).pairs, p = ("p", drawing) := fun p hp =>
    List.mem_singleton.1 hp
  refine ⟨drawing, layout, toOption_eq_some_iff.1 hdrawing, hcompiled,
    (compile_writesNumbers_iff hcompiled).2 ⟨fun p hp => ?_, ?_⟩⟩
  · rw [honly p hp]
    exact hboth.1
  · refine strokesFinite_of_declared fun p hp text htext edge hedge => ?_
    rw [honly p hp] at htext
    have hfinite := hboth.2 text htext
    rwa [hedge, Option.all_some] at hfinite

/-- A page with a circle whose radius is the word for infinity. -/
def boundless : String :=
  "<svg width=\"1024\" height=\"613\"><g><circle r=\"inf\"/></g></svg>"

/-- A radius that is not finite is read, and written as a null. -/
theorem hasNull_boundless : ∃ drawing layout, Drawing.ofMarkup boundless = .ok drawing ∧
    compile {} (.ofList [("p", drawing)]) = .ok layout ∧ Json.HasNull layout.text := by
  have hnull : ((Drawing.ofMarkup boundless).toOption.bind fun drawing => do
      let layout ← (compile {} (.ofList [("p", drawing)])).toOption
      return layout.json.nullFree) = some false := by
    decide +kernel
  obtain ⟨drawing, hdrawing, h⟩ := Option.bind_eq_some_iff.1 hnull
  obtain ⟨layout, hlayout, h⟩ := Option.bind_eq_some_iff.1 h
  exact ⟨drawing, layout, toOption_eq_some_iff.1 hdrawing, toOption_eq_some_iff.1 hlayout,
    (Json.hasNull_render_iff layout.json).2 (Option.some.inj h)⟩

end RenderLayout
