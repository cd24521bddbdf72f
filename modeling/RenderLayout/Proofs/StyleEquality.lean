import Mathlib.Data.List.TakeWhile
import Mathlib.Tactic.Common
import RenderLayout.Proofs.Numerals
import RenderLayout.Proofs.Outcome
import RenderLayout.Style.Sheet

/-!
Equality of styles.

Styles are compared field by field, so that their equality is symmetric and transitive as that of
floats is, and a style equals itself if it holds no NaN. Declarations give no NaN.
-/

namespace RenderLayout

/-! ### Symmetry and transitivity -/

instance partialEquivBEqFloat : PartialEquivBEq Float where
  symm := Number.beq_symm
  trans := Number.beq_trans

instance partialEquivBEqOption {α : Type} [BEq α] [PartialEquivBEq α] :
    PartialEquivBEq (Option α) where
  symm {a b} h := by
    cases a <;> cases b
    case some.some x y => exact BEq.symm (a := x) (b := y) h
    all_goals exact h
  trans {a b c} h h' := by
    cases a <;> cases b <;> cases c
    case some.some.some x y z => exact BEq.trans (a := x) (b := y) (c := z) h h'
    all_goals simp_all

lemma Color.beq_iff {a b : Color} :
    (a == b) = true ↔
      (a.red == b.red) = true ∧ (a.green == b.green) = true ∧ (a.blue == b.blue) = true ∧
        (a.alpha == b.alpha) = true := by
  show (a.red == b.red && (a.green == b.green && (a.blue == b.blue && a.alpha == b.alpha))) = true
    ↔ _
  simp only [Bool.and_eq_true]

instance partialEquivBEqColor : PartialEquivBEq Color where
  symm h := by
    rw [Color.beq_iff] at *
    exact ⟨BEq.symm h.1, BEq.symm h.2.1, BEq.symm h.2.2.1, BEq.symm h.2.2.2⟩
  trans h h' := by
    rw [Color.beq_iff] at *
    exact ⟨BEq.trans h.1 h'.1, BEq.trans h.2.1 h'.2.1, BEq.trans h.2.2.1 h'.2.2.1,
      BEq.trans h.2.2.2 h'.2.2.2⟩

lemma Edge.beq_iff {a b : Edge} :
    (a == b) = true ↔ (a.color == b.color) = true ∧ (a.distance == b.distance) = true := by
  show (a.color == b.color && a.distance == b.distance) = true ↔ _
  simp only [Bool.and_eq_true]

instance partialEquivBEqEdge : PartialEquivBEq Edge where
  symm h := by
    rw [Edge.beq_iff] at *
    exact ⟨BEq.symm h.1, BEq.symm h.2⟩
  trans h h' := by
    rw [Edge.beq_iff] at *
    exact ⟨BEq.trans h.1 h'.1, BEq.trans h.2 h'.2⟩

lemma Style.beq_iff {a b : Style} :
    (a == b) = true ↔
      (a.align == b.align) = true ∧ (a.stroke == b.stroke) = true ∧ (a.fill == b.fill) = true ∧
        (a.rotation == b.rotation) = true ∧ (a.shadow == b.shadow) = true := by
  show (a.align == b.align && (a.stroke == b.stroke && (a.fill == b.fill &&
    (a.rotation == b.rotation && a.shadow == b.shadow)))) = true ↔ _
  simp only [Bool.and_eq_true]

instance partialEquivBEqStyle : PartialEquivBEq Style where
  symm h := by
    rw [Style.beq_iff] at *
    exact ⟨BEq.symm h.1, BEq.symm h.2.1, BEq.symm h.2.2.1, BEq.symm h.2.2.2.1, BEq.symm h.2.2.2.2⟩
  trans h h' := by
    rw [Style.beq_iff] at *
    exact ⟨BEq.trans h.1 h'.1, BEq.trans h.2.1 h'.2.1, BEq.trans h.2.2.1 h'.2.2.1,
      BEq.trans h.2.2.2.1 h'.2.2.2.1, BEq.trans h.2.2.2.2 h'.2.2.2.2⟩

/-! ### Styles without NaN -/

structure Color.NaNFree (color : Color) : Prop where
  red : color.red.isNaN = false
  green : color.green.isNaN = false
  blue : color.blue.isNaN = false
  alpha : color.alpha.isNaN = false

structure Edge.NaNFree (edge : Edge) : Prop where
  color : edge.color.NaNFree
  distance : edge.distance.isNaN = false

/-- No number of the style is NaN. -/
structure Style.NaNFree (style : Style) : Prop where
  stroke : ∀ edge, style.stroke = some edge → edge.NaNFree
  fill : ∀ color, style.fill = some color → color.NaNFree
  rotation : ∀ angle, style.rotation = some angle → angle.isNaN = false
  shadow : ∀ edge, style.shadow = some edge → edge.NaNFree

lemma Color.NaNFree.beq_self {color : Color} (h : color.NaNFree) : (color == color) = true :=
  Color.beq_iff.2 ⟨Number.beq_self_iff.2 h.red, Number.beq_self_iff.2 h.green,
    Number.beq_self_iff.2 h.blue, Number.beq_self_iff.2 h.alpha⟩

lemma Edge.NaNFree.beq_self {edge : Edge} (h : edge.NaNFree) : (edge == edge) = true :=
  Edge.beq_iff.2 ⟨h.color.beq_self, Number.beq_self_iff.2 h.distance⟩

lemma option_beq_self {α : Type} [BEq α] {o : Option α} (h : ∀ a, o = some a → (a == a) = true) :
    (o == o) = true := by
  cases o with
  | none => rfl
  | some a => exact h a rfl

lemma Style.NaNFree.beq_self {style : Style} (h : style.NaNFree) : (style == style) = true :=
  Style.beq_iff.2 ⟨beq_self_eq_true _, option_beq_self fun edge he => (h.stroke edge he).beq_self,
    option_beq_self fun color hc => (h.fill color hc).beq_self,
    option_beq_self fun angle ha => Number.beq_self_iff.2 (h.rotation angle ha),
    option_beq_self fun edge he => (h.shadow edge he).beq_self⟩

lemma eq_some_of_orElse {α : Type} {o base : Option α} {a : α} (h : (o <|> base) = some a) :
    o = some a ∨ base = some a := by
  cases o with
  | none => exact Or.inr h
  | some b => exact Or.inl h

lemma Style.NaNFree.orElse {style base : Style} (hs : style.NaNFree) (hb : base.NaNFree) :
    (style.orElse base).NaNFree where
  stroke edge h := (eq_some_of_orElse h).elim (hs.stroke edge) (hb.stroke edge)
  fill color h := (eq_some_of_orElse h).elim (hs.fill color) (hb.fill color)
  rotation angle h := (eq_some_of_orElse h).elim (hs.rotation angle) (hb.rotation angle)
  shadow edge h := (eq_some_of_orElse h).elim (hs.shadow edge) (hb.shadow edge)

/-! ### Numbers of declarations -/

namespace Declarations

open Number Text

lemma isNaN_numeral {s : List Char} {x : Float} (h : readFloat? (takeNumeral s) = some x) :
    x.isNaN = false := by
  obtain ⟨n, -, rfl⟩ := Numeral.exists_value h
  exact isNaN_ofDecimal _ _ _

/-- What a pattern finds, it finds at some place. -/
lemma exists_of_firstMatch {α : Type} {pattern : List Char → Option α} {s : List Char} {found : α}
    (h : firstMatch pattern s = some found) : ∃ rest, pattern rest = some found := by
  obtain ⟨-, rest, -, hrest, -⟩ := firstMatch_eq_some_iff.1 h
  exact ⟨rest, hrest⟩

lemma isNaN_number? {key : String} {s : List Char} {x : Float}
    (h : number? key s = .ok (some x)) : x.isNaN = false := by
  unfold number? at h
  split at h
  · cases h
  · rename_i numeral hnumeral
    split at h
    · rename_i value hvalue
      obtain rfl : value = x := by simpa using h
      obtain ⟨rest, hrest⟩ := exists_of_firstMatch hnumeral
      obtain ⟨tail, -, rfl⟩ := Option.map_eq_some_iff.1 hrest
      exact isNaN_numeral hvalue
    · cases h

lemma nanFree_ofChannels {red green blue alpha : Float} (hr : red.isNaN = false)
    (hg : green.isNaN = false) (hb : blue.isNaN = false) (ha : alpha.isNaN = false) :
    (Color.ofChannels red green blue alpha).NaNFree where
  red := isNaN_roundTo regular_powerOfTen_three hr
  green := isNaN_roundTo regular_powerOfTen_three hg
  blue := isNaN_roundTo regular_powerOfTen_three hb
  alpha := isNaN_roundTo regular_powerOfTen_three ha

lemma isNaN_share (step : UInt8) : (Color.ofBytes.share step).isNaN = false :=
  isNaN_div (isNaN_ofRatio _ _ _) ⟨.positive, 255 * 2 ^ 45, -45, by decide, rfl⟩

lemma nanFree_ofBytes (red green blue : UInt8) {alpha : Float} (ha : alpha.isNaN = false) :
    (Color.ofBytes red green blue alpha).NaNFree :=
  nanFree_ofChannels (isNaN_share _) (isNaN_share _) (isNaN_share _) ha

lemma isNaN_getD {o : Option Float} {d : Float} (ho : ∀ x, o = some x → x.isNaN = false)
    (hd : d.isNaN = false) : (o.getD d).isNaN = false := by
  cases o with
  | none => exact hd
  | some x => exact ho x rfl

lemma isNaN_one : (1 : Float).isNaN = false := by decide +kernel

lemma isNaN_zero : (0 : Float).isNaN = false := by decide +kernel

lemma nanFree_color? {key : String} {s : List Char} {color : Color}
    (h : color? key s = .ok (some color)) : color.NaNFree := by
  unfold color? at h
  split at h
  · cases h
  · obtain ⟨opacity, hopacity, hcolor⟩ := bind_eq_ok_iff.1 h
    obtain rfl := Option.some.inj (Except.ok.inj hcolor)
    exact nanFree_ofBytes _ _ _ (isNaN_getD (fun x hx => isNaN_number? (hx ▸ hopacity)) isNaN_one)

lemma nanFree_stroke? {s : String} {edge : Edge} (h : stroke? s = .ok (some edge)) :
    edge.NaNFree := by
  obtain ⟨color, hcolor, h⟩ := bind_eq_ok_iff.1 h
  cases color with
  | none => cases h
  | some color =>
    obtain ⟨width, hwidth, h⟩ := bind_eq_ok_iff.1 h
    obtain rfl := Option.some.inj (Except.ok.inj h)
    exact ⟨nanFree_color? hcolor, isNaN_roundTo regular_powerOfTen_three
      (isNaN_getD (fun x hx => isNaN_number? (hx ▸ hwidth)) isNaN_zero)⟩

end Declarations

/-- The style of declarations holds no NaN. -/
theorem Style.nanFree_ofDeclarations {s : String} {style : Style}
    (h : Style.ofDeclarations s = .ok style) : style.NaNFree := by
  obtain ⟨fill, hfill, h⟩ := bind_eq_ok_iff.1 h
  obtain ⟨stroke, hstroke, h⟩ := bind_eq_ok_iff.1 h
  obtain rfl := Except.ok.inj h
  refine ⟨?_, ?_, ?_, ?_⟩
  · rintro edge rfl
    exact Declarations.nanFree_stroke? hstroke
  · rintro color rfl
    exact Declarations.nanFree_color? hfill
  · intro angle h
    cases h
  · intro edge h
    cases h

end RenderLayout
