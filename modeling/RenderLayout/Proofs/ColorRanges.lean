import RenderLayout.Proofs.ColorTexts
import RenderLayout.Proofs.DeclarationReading
import RenderLayout.Proofs.FiniteNumbers

/-!
The range of the channels of a color.

The channels that come from bytes are between zero and one, and so is every opacity that rounds to at
most one. An opacity is any decimal, so that the opacity of a color in a layout is beyond one just if
the declarations that the color comes from say so by half a thousandth at least.
-/

namespace RenderLayout

open Number Declarations

namespace Number

variable {x : Float} {units : Nat}

/-- A channel that is none or full or between. -/
def InRange (x : Float) : Prop := 0 ≤ x ∧ x ≤ 1

lemma counts_zero_literal : Counts 0 0 := ⟨0, 0, by decide +kernel, rfl⟩

/-! ### The greatest number that is rounded to one -/

/-- The least float that is rounded to more than one, the one before, and what their thousandfolds
are rounded to. -/
lemma exists_counts_least : ∃ power, power + 52 = 1074 ∧ unitsPerOne = 2 ^ 52 * 2 ^ power ∧
    Counts 1.0005 (4505851427184181 * 2 ^ power) ∧
    Nearest (4505851427184181248 * 2 ^ power) (4505851427184181 * 2 ^ power * 1000) 1 ∧
    Nearest (4505851427184180224 * 2 ^ power) (4505851427184180 * 2 ^ power * 1000) 1 := by
  obtain ⟨power, hpower, hunit⟩ := unitsPerOne_eq_mul (show 52 ≤ 1074 by decide)
  have hpositive := Nat.two_pow_pos power
  have hnear (mantissa n : Nat) (hlow : 2 ^ 52 < mantissa) (hhigh : mantissa < 2 ^ 53)
      (hbelow : 1000 * n ≤ 512 * mantissa + 255) (habove : 512 * mantissa ≤ 1000 * n + 255) :
      Nearest (512 * mantissa * 2 ^ power) (n * 2 ^ power * 1000) 1 := by
    have hstep : 2 ^ (power + 9) = 512 * 2 ^ power := by ring
    have hunits : 512 * mantissa * 2 ^ power = mantissa <<< (power + 9) := by
      rw [Nat.shiftLeft_eq, hstep]
      ring
    have hbelow := Nat.mul_le_mul_right (2 ^ power) hbelow
    have habove := Nat.mul_le_mul_right (2 ^ power) habove
    rw [Nat.add_mul] at hbelow habove
    rw [hunits]
    refine IsMagnitude.nearest ⟨hhigh, Or.inr hlow.le, by omega⟩ hlow.ne' Nat.one_pos ?_
    rw [hstep]
    constructor <;> grind
  refine ⟨power, hpower, hunit, ⟨4505851427184181, power, ?_, Nat.shiftLeft_eq ..⟩, ?_, ?_⟩
  · rw [show power = 1022 by omega]
    decide +kernel
  · exact hnear (2001 * 2 ^ 42) 4505851427184181 (by decide) (by decide) (by decide)
      (by decide)
  · exact hnear (2001 * 2 ^ 42 - 2) 4505851427184180 (by decide) (by decide) (by decide)
      (by decide)

/-- A number is rounded to one at most just if it is less than half a thousandth beyond one. -/
lemma Counts.roundTo_le_one_iff (h : Counts x units) : roundTo 3 x ≤ 1 ↔ x < 1.0005 := by
  obtain ⟨power, -, hunit, hleast, habove, hbelow⟩ := exists_counts_least
  have hpositive := Nat.two_pow_pos power
  have hone : Nearest unitsPerOne (unitsPerOne * 1000) 1000 := counts_one.nearest (by decide)
  rw [h.lt_iff hleast]
  constructor
  · intro hle
    by_contra hlarge
    rcases h.roundTo_cases with hinfinite | ⟨many, rounded, hmany, hthousandths, hrounded⟩
    · rw [hinfinite] at hle
      exact absurd hle (by decide +kernel)
    · rw [hrounded.le_iff counts_one] at hle
      have hmany := habove.le hmany Nat.one_pos Nat.one_pos (by omega)
      have hup := lt_roundDiv_up many unitsPerOne_pos
      have hgap := hthousandths.nearest.gap_le (by decide) hleast
      have hwhole : 1000 < roundDiv .up many unitsPerOne := by
        by_contra hfew
        have := Nat.mul_le_mul_right unitsPerOne (Nat.le_of_not_lt hfew)
        omega
      have hbeyond := Nat.mul_le_mul_right unitsPerOne (Nat.succ_le_of_lt hwhole)
      unfold gap at hgap
      omega
  · intro hless
    have hgrid : units ≤ 4505851427184180 * 2 ^ power := by
      rcases h.on_grid power with ⟨n, rfl⟩ | ⟨-, hsmall⟩
      · have := Nat.lt_of_mul_lt_mul_right hless
        exact Nat.mul_le_mul_right _ (by omega)
      · omega
    have hbound : units * 1000 ≤ 4505851427184180224 * 2 ^ power * 1 := by omega
    obtain ⟨many, hmany⟩ := exists_nearest Nat.one_pos hbelow hbound
    obtain ⟨rounded, hthousandths, hrounded⟩ := h.thousandths_roundTo hmany
    have hmany := hmany.le hbelow Nat.one_pos Nat.one_pos (by omega)
    have hup := (roundDiv_near .up many unitsPerOne_pos).1
    have hwhole : roundDiv .up many unitsPerOne * unitsPerOne ≤ unitsPerOne * 1000 := by
      rw [Nat.mul_comm unitsPerOne]
      refine Nat.mul_le_mul_right _ ?_
      by_contra hmore
      have := Nat.mul_le_mul_right unitsPerOne (Nat.succ_le_of_lt (Nat.lt_of_not_le hmore))
      omega
    rw [hrounded.le_iff counts_one]
    exact hthousandths.nearest.le hone (by decide) (by decide) (Nat.mul_le_mul_right 1000 hwhole)

/-! ### Channels -/

lemma Counts.div_eq {y : Float} {n : Nat} (hx : Counts x units) (hy : Counts y (n * unitsPerOne))
    (hn : 0 < n) : x / y = ofMagnitudeBits false (magnitudeBits units n) := by
  obtain ⟨mantissa, scale, hx, rfl⟩ := hx
  obtain ⟨mantissa', scale', hy, hunits⟩ := hy
  have hne : mantissa' ≠ 0 := by
    rintro rfl
    rw [Nat.zero_shiftLeft] at hunits
    exact (Nat.mul_pos hn unitsPerOne_pos).ne hunits
  rw [Number.div_eq hx hy hne, hunits, magnitudeBits_mul_mul _ _ unitsPerOne_pos]
  rfl

lemma Counts.zero_le_roundTo (h : Counts x units) : 0 ≤ roundTo 3 x := by
  rcases h.roundTo_cases with hinfinite | ⟨-, rounded, -, -, hrounded⟩
  · rw [hinfinite]
    decide +kernel
  · rw [counts_zero_literal.le_iff hrounded]
    exact Nat.zero_le _

lemma inRange_roundTo_iff (h : x = positiveInfinity ∨ ∃ units, Counts x units) :
    InRange (roundTo 3 x) ↔ x < 1.0005 := by
  rcases h with rfl | ⟨units, h⟩
  · unfold InRange
    decide +kernel
  · exact (and_iff_right h.zero_le_roundTo).trans h.roundTo_le_one_iff

end Number

namespace Color

/-- All channels are between zero and one. -/
structure InRange (c : Color) : Prop where
  red : Number.InRange c.red
  green : Number.InRange c.green
  blue : Number.InRange c.blue
  alpha : Number.InRange c.alpha

lemma counts_full : Counts 255 (255 * unitsPerOne) := by
  obtain ⟨power, hpower, hunit⟩ := unitsPerOne_eq_mul (show 45 ≤ 1074 by decide)
  refine ⟨255 * 2 ^ 45, power, by rw [show power = 1029 by omega]; decide +kernel, ?_⟩
  rw [Nat.shiftLeft_eq, hunit, Nat.mul_assoc]

/-- A byte makes a share of one. -/
lemma counts_share (step : UInt8) :
    ∃ units, Counts (ofBytes.share step) units ∧ units ≤ unitsPerOne := by
  have hfull := counts_full
  have hstep : step.toNat * unitsPerOne ≤ 255 * unitsPerOne * 1 := by
    rw [Nat.mul_one]
    exact Nat.mul_le_mul_right _ (Nat.le_of_lt_succ step.toNat_lt)
  obtain ⟨bytes, hbytes⟩ := exists_nearest Nat.one_pos hfull hstep
  have hle : bytes ≤ 255 * unitsPerOne :=
    hbytes.le (hfull.nearest Nat.one_pos) Nat.one_pos Nat.one_pos (by omega)
  have hshare : ofBytes.share step = ofMagnitudeBits false (magnitudeBits bytes 255) :=
    Counts.div_eq hbytes hfull (by decide)
  have hbound : bytes ≤ unitsPerOne * 255 := hle.trans_eq (Nat.mul_comm ..)
  obtain ⟨units, hunits⟩ := exists_nearest (show 0 < 255 by decide) counts_one hbound
  have hone : Nearest unitsPerOne (unitsPerOne * 255) 255 := counts_one.nearest (by decide)
  have hle : units ≤ unitsPerOne :=
    hunits.le hone (by decide) (by decide) (Nat.mul_le_mul_right 255 hbound)
  rw [hshare]
  exact ⟨units, hunits, hle⟩

lemma inRange_share (step : UInt8) : Number.InRange (roundTo 3 (ofBytes.share step)) := by
  obtain ⟨units, hunits, hle⟩ := counts_share step
  obtain ⟨power, -, hunit, hleast, -⟩ := exists_counts_least
  have hpositive := Nat.two_pow_pos power
  rw [inRange_roundTo_iff (Or.inr ⟨units, hunits⟩), hunits.lt_iff hleast]
  omega

lemma inRange_ofBytes_iff (red green blue : UInt8) {alpha : Float}
    (h : alpha = positiveInfinity ∨ ∃ units, Counts alpha units) :
    (ofBytes red green blue alpha).InRange ↔ alpha < 1.0005 := by
  rw [← inRange_roundTo_iff h]
  exact ⟨fun hrange => hrange.alpha,
    fun halpha => ⟨inRange_share red, inRange_share green, inRange_share blue, halpha⟩⟩

end Color

namespace Declarations

/-- A color is in range just if its opacity rounds to one at most. -/
lemma ColorOf.inRange_iff {key s : String} {color : Color} {opacity : Option Float}
    (h : ColorOf key s (some color)) (hopacity : NumberOf (key ++ "-opacity") s opacity) :
    color.InRange ↔ opacity.getD 1 < 1.0005 := by
  obtain ⟨⟩ | ⟨-, hown⟩ := h
  obtain rfl := Except.ok.inj ((number?_eq_ok_iff.2 hown).symm.trans (number?_eq_ok_iff.2 hopacity))
  refine Color.inRange_ofBytes_iff _ _ _ ?_
  cases hopacity with
  | absent => exact Or.inr ⟨_, counts_one⟩
  | present n => exact n.counts_value

end Declarations

/-! ### Layouts -/

/-- Some declarations of the drawings give the color to the key, and this number to the key of its
opacity. -/
def Painted (drawings : Table Drawing) (key : String) (color : Color) (opacity : Option Float) :
    Prop :=
  ∃ p ∈ drawings.pairs, ∃ text ∈ p.2.declared,
    ColorOf key text (some color) ∧ NumberOf (key ++ "-opacity") text opacity

/-- The fill and the stroke of the style have colors of the drawings. -/
structure Style.PaintedBy (drawings : Table Drawing) (style : Style) : Prop where
  fill : ∀ color, style.fill = some color → ∃ opacity, Painted drawings "fill" color opacity
  stroke : ∀ edge, style.stroke = some edge →
    ∃ opacity, Painted drawings "stroke" edge.color opacity

namespace Style.PaintedBy

variable {drawings : Table Drawing} {style base : Style}

lemma orElse (hs : style.PaintedBy drawings) (hb : base.PaintedBy drawings) :
    (style.orElse base).PaintedBy drawings where
  fill color hcolor := (eq_some_of_orElse hcolor).elim (hs.fill color) (hb.fill color)
  stroke edge hedge := (eq_some_of_orElse hedge).elim (hs.stroke edge) (hb.stroke edge)

lemma of_declared {p : String × Drawing} {text : String} (hp : p ∈ drawings.pairs)
    (htext : text ∈ p.2.declared) (h : Style.ofDeclarations text = .ok style) :
    style.PaintedBy drawings := by
  have hdeclares := ofDeclarations_eq_ok_iff.1 h
  have hpainted {key : String} {color : Color} (hcolor : ColorOf key text (some color)) :
      ∃ opacity, Painted drawings key color opacity := by
    obtain ⟨⟩ | ⟨hbytes, hopacity⟩ := hcolor
    exact ⟨_, p, hp, text, htext, .present hbytes hopacity, hopacity⟩
  constructor
  · intro color hcolor
    exact hpainted (hcolor ▸ hdeclares.fill)
  · intro edge hedge
    have hstroke := hdeclares.stroke
    rw [hedge] at hstroke
    obtain ⟨⟩ | ⟨hcolor, -⟩ := hstroke
    exact hpainted hcolor

end Style.PaintedBy

lemma Painted.inRange_iff {drawings : Table Drawing} {key : String} {color : Color}
    {opacity : Option Float} (h : Painted drawings key color opacity) :
    color.InRange ↔ opacity.getD 1 < 1.0005 := by
  obtain ⟨_, _, _, _, hcolor, hopacity⟩ := h
  exact hcolor.inRange_iff hopacity

/-- **The colors of a layout** come from declarations, and they are in range just if the opacity that
is declared for them, if there is one, rounds to one at most. -/
theorem compile_color_inRange_iff {canvas : Canvas} {drawings : Table Drawing} {layout : Layout}
    {name : String} {style : Style} (h : compile canvas drawings = .ok layout)
    (hstyle : layout.styles.find? name = some style) :
    (∀ color, style.fill = some color → ∃ opacity, Painted drawings "fill" color opacity ∧
      (color.InRange ↔ opacity.getD 1 < 1.0005)) ∧
    (∀ edge, style.stroke = some edge → ∃ opacity, Painted drawings "stroke" edge.color opacity ∧
      (edge.color.InRange ↔ opacity.getD 1 < 1.0005)) := by
  obtain ⟨hchecked, rfl⟩ := compile_eq_ok_iff.1 h
  have hmade (p : String × Drawing) (hp : p ∈ drawings.pairs) :
      ∃ result, p.2.toPage p.1 = .ok result := by
    obtain ⟨result, hresult⟩ := hchecked p hp
    exact ⟨result, (Drawing.toCheckedPage_eq_ok_iff.1 hresult).2⟩
  have hpainted := Draft.of_styles_entered hmade (fun _ _ hs hb => hs.orElse hb)
    (fun p hp text htext style hmade => Style.PaintedBy.of_declared hp htext hmade)
    name style (Layout.find?_styles_of_unify hstyle)
  constructor
  · intro color hcolor
    obtain ⟨opacity, hopacity⟩ := hpainted.fill color hcolor
    exact ⟨opacity, hopacity, hopacity.inRange_iff⟩
  · intro edge hedge
    obtain ⟨opacity, hopacity⟩ := hpainted.stroke edge hedge
    exact ⟨opacity, hopacity, hopacity.inRange_iff⟩

/-- A page with a box whose class has a stroke just within the range. -/
def glaze : String :=
  "<svg width=\"1024\" height=\"613\"><defs><style>.x\x7bstroke:#000000;stroke-opacity:1.0004\x7d" ++
    "</style></defs><g><rect class=\"x\" style=\"fill:#ff0000;fill-opacity:.5\"/></g></svg>"

theorem color_inRange_glaze : ∃ drawing layout style edge, Drawing.ofMarkup glaze = .ok drawing ∧
    compile {} (.ofList [("p", drawing)]) = .ok layout ∧
    layout.styles.find? "p-box-0" = some style ∧ style.stroke = some edge ∧
    edge.color.text = "r0.000,g0.000,b0.000,a1.000" ∧
    ∃ opacity, Painted (.ofList [("p", drawing)]) "stroke" edge.color opacity ∧
      (edge.color.InRange ↔ opacity.getD 1 < 1.0005) := by
  have htext : ((Drawing.ofMarkup glaze).toOption.bind fun drawing => do
      let layout ← (compile {} (.ofList [("p", drawing)])).toOption
      let style ← layout.styles.find? "p-box-0"
      let edge ← style.stroke
      return edge.color.text) = some "r0.000,g0.000,b0.000,a1.000" := by
    decide +kernel
  obtain ⟨drawing, hdrawing, h⟩ := Option.bind_eq_some_iff.1 htext
  obtain ⟨layout, hlayout, h⟩ := Option.bind_eq_some_iff.1 h
  obtain ⟨style, hstyle, h⟩ := Option.bind_eq_some_iff.1 h
  obtain ⟨edge, hedge, h⟩ := Option.bind_eq_some_iff.1 h
  have hcompiled := toOption_eq_some_iff.1 hlayout
  exact ⟨drawing, layout, style, edge, toOption_eq_some_iff.1 hdrawing, hcompiled, hstyle, hedge,
    Option.some.inj h, (compile_color_inRange_iff hcompiled hstyle).2 edge hedge⟩

/-- A page with a box that is five times opaque. -/
def glare : String :=
  "<svg width=\"1024\" height=\"613\"><g><rect style=\"fill:#ff0000;fill-opacity:5\"/></g></svg>"

/-- An opacity that is beyond the range is kept. -/
theorem not_inRange_glare : ∃ drawing layout style color, Drawing.ofMarkup glare = .ok drawing ∧
    compile {} (.ofList [("p", drawing)]) = .ok layout ∧
    layout.styles.find? "p-box-0" = some style ∧ style.fill = some color ∧
    color.text = "r1.000,g0.000,b0.000,a5.000" ∧ ¬ color.InRange := by
  have hread : ((Drawing.ofMarkup glare).toOption.bind fun drawing => do
      let layout ← (compile {} (.ofList [("p", drawing)])).toOption
      let style ← layout.styles.find? "p-box-0"
      let color ← style.fill
      return (color.text, decide (color.alpha ≤ 1))) =
        some ("r1.000,g0.000,b0.000,a5.000", false) := by
    decide +kernel
  obtain ⟨drawing, hdrawing, h⟩ := Option.bind_eq_some_iff.1 hread
  obtain ⟨layout, hlayout, h⟩ := Option.bind_eq_some_iff.1 h
  obtain ⟨style, hstyle, h⟩ := Option.bind_eq_some_iff.1 h
  obtain ⟨color, hcolor, h⟩ := Option.bind_eq_some_iff.1 h
  obtain ⟨htext, hbeyond⟩ := Prod.mk.inj (Option.some.inj h)
  exact ⟨drawing, layout, style, color, toOption_eq_some_iff.1 hdrawing,
    toOption_eq_some_iff.1 hlayout, hstyle, hcolor, htext,
    fun hrange => of_decide_eq_false hbeyond hrange.alpha.2⟩

end RenderLayout
