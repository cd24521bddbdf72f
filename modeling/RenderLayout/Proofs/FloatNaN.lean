import Mathlib
import RenderLayout.Number.Reader

/-!
Equality of floats, and which arithmetic leads to no NaN.

Equality is symmetric and transitive, and every float but NaN equals itself. A product or a
quotient by a finite number that is not zero is NaN only if its first operand is, so that a
decimal that has been read and rounded is never NaN.
-/

namespace RenderLayout.Number

open Float.Model Float.Model.UnpackedFloat

/-! ### Equality -/

/-- Two numbers compare as equal if they are the same number, or zeros of either sign. -/
lemma compare_eq_eq_iff {a b : UnpackedFloat} :
    a.compare b = some .eq ↔
      a ≠ .notANumber ∧ (a = b ∨ (∃ s, a = .zero s) ∧ ∃ s, b = .zero s) := by
  cases a <;> cases b
  case infinity.infinity s t => cases s <;> cases t <;> simp [UnpackedFloat.compare, compare]
  case infinity.zero s t => cases s <;> simp [UnpackedFloat.compare]
  case infinity.finite s _ _ _ _ => cases s <;> simp [UnpackedFloat.compare]
  case infinity.notANumber s => cases s <;> simp [UnpackedFloat.compare]
  case zero.infinity s t => cases t <;> simp [UnpackedFloat.compare]
  case zero.finite s t _ _ _ => cases t <;> simp [UnpackedFloat.compare]
  case finite.infinity s _ _ _ t => cases s <;> cases t <;> simp [UnpackedFloat.compare]
  case finite.zero s _ _ _ t => cases s <;> simp [UnpackedFloat.compare]
  case finite.finite s _ _ _ t _ _ _ =>
    cases s <;> cases t <;> simp [UnpackedFloat.compare, and_comm]
  all_goals simp [UnpackedFloat.compare]

lemma beq_iff {x y : Float} :
    (x == y) = true ↔ x.toModel.unpack.compare y.toModel.unpack = some .eq := by
  show (x.toModel.unpack.compare y.toModel.unpack == some .eq) = true ↔ _
  exact beq_iff_eq

lemma beq_symm {x y : Float} (h : (x == y) = true) : (y == x) = true := by
  rw [beq_iff, compare_eq_eq_iff] at h ⊢
  obtain ⟨hx, heq | ⟨⟨s, hs⟩, t, ht⟩⟩ := h
  · exact ⟨heq ▸ hx, Or.inl heq.symm⟩
  · exact ⟨by simp [ht], Or.inr ⟨⟨t, ht⟩, s, hs⟩⟩

lemma beq_trans {x y z : Float} (hxy : (x == y) = true) (hyz : (y == z) = true) :
    (x == z) = true := by
  rw [beq_iff, compare_eq_eq_iff] at *
  obtain ⟨hx, heq | ⟨hx0, hy0⟩⟩ := hxy
  · rw [heq]
    exact hyz
  · obtain ⟨-, heq | ⟨-, hz0⟩⟩ := hyz
    · exact ⟨hx, Or.inr ⟨hx0, heq ▸ hy0⟩⟩
    · exact ⟨hx, Or.inr ⟨hx0, hz0⟩⟩

lemma isNaN_iff {x : Float} : x.isNaN = true ↔ x.toModel.unpack = .notANumber := by
  show x.toModel.unpack.isNaN = true ↔ _
  cases x.toModel.unpack <;> simp [UnpackedFloat.isNaN]

/-- NaN alone differs from itself. -/
lemma beq_self_iff {x : Float} : (x == x) = true ↔ x.isNaN = false := by
  rw [beq_iff, compare_eq_eq_iff, ← Bool.not_eq_true, isNaN_iff]
  simp

/-! ### Packing -/

lemma isNaN_unpack_iff (b : BitVec Format.binary64.numBits) :
    (unpack Format.binary64 b).isNaN = true ↔
      unpackExponent b = -1#_ ∧ unpackMantissa b ≠ 0#_ := by
  unfold UnpackedFloat.unpack
  by_cases he : unpackExponent b = -1#_
  · by_cases hm : unpackMantissa b = 0#_ <;> simp [he, hm, UnpackedFloat.isNaN]
  · simp only [if_neg he]
    by_cases hz : unpackExponent b = 0#_
    · by_cases hm : unpackMantissa b = 0#_ <;> simp [hz, hm, UnpackedFloat.isNaN]
    · rw [if_neg hz]
      exact iff_of_false (by simp [UnpackedFloat.isNaN]) fun h => he h.1

/-- Packing makes no number of what is none, nor the other way round. -/
lemma isNaN_unpack_pack (u : UnpackedFloat) :
    (unpack Format.binary64 (UnpackedFloat.pack Format.binary64 u)).isNaN = u.isNaN := by
  cases u with
  | notANumber => rfl
  | infinity s => cases s <;> rfl
  | zero s => cases s <;> rfl
  | finite s m e h =>
    rw [Bool.eq_iff_iff, isNaN_unpack_iff]
    simp only [UnpackedFloat.isNaN, Bool.false_eq_true, iff_false, not_and, not_not]
    rw [UnpackedFloat.pack]
    dsimp only
    split
    · intro _
      simp [packedInfinity]
    · -- an exponent that fits is not the one of infinity and NaN
      split
      · intro hexp
        rw [unpackExponent_packComponents] at hexp
        have := congrArg BitVec.toNat hexp
        simp only [BitVec.neg_one_eq_allOnes, BitVec.toNat_allOnes, BitVec.toNat_ofNat] at this
        omega
      · intro hexp
        rw [unpackExponent_packComponents] at hexp
        exact absurd hexp (by decide)

/-! ### Arithmetic -/

lemma isNaN_roundWithAccuracy (s : Sign) (m : Nat) (e : Int) (acc : Accuracy) :
    (roundWithAccuracy Format.binary64 s m e acc).isNaN = false := by
  unfold roundWithAccuracy
  dsimp only
  split <;> rfl

/-- A number that is neither zero nor infinite. -/
def Regular (x : Float) : Prop := ∃ s m e h, x.toModel.unpack = .finite s m e h

lemma isNaN_mul {x y : Float} (hx : x.isNaN = false) (hy : Regular y) :
    (x * y).isNaN = false := by
  obtain ⟨s, m, e, h, hy⟩ := hy
  show (unpack Format.binary64 (UnpackedFloat.pack Format.binary64
    (UnpackedFloat.mul Format.binary64 x.toModel.unpack y.toModel.unpack))).isNaN = false
  rw [isNaN_unpack_pack, hy]
  have hx : x.toModel.unpack.isNaN = false := hx
  cases hu : x.toModel.unpack with
  | notANumber => simp [hu, UnpackedFloat.isNaN] at hx
  | infinity t => rfl
  | zero t => rfl
  | finite t n f hn => exact isNaN_roundWithAccuracy _ _ _ _

lemma isNaN_div {x y : Float} (hx : x.isNaN = false) (hy : Regular y) :
    (x / y).isNaN = false := by
  obtain ⟨s, m, e, h, hy⟩ := hy
  show (unpack Format.binary64 (UnpackedFloat.pack Format.binary64
    (UnpackedFloat.div Format.binary64 x.toModel.unpack y.toModel.unpack))).isNaN = false
  rw [isNaN_unpack_pack, hy]
  have hx : x.toModel.unpack.isNaN = false := hx
  cases hu : x.toModel.unpack with
  | notANumber => simp [hu, UnpackedFloat.isNaN] at hx
  | infinity t => rfl
  | zero t => rfl
  | finite t n f hn => exact isNaN_roundWithAccuracy _ _ _ _

/-! ### Reading and rounding -/

lemma toNat_unpackExponent (b : BitVec Format.binary64.numBits) :
    (unpackExponent b).toNat = b.toNat / 2 ^ 52 % 2 ^ 11 := by
  simp [unpackExponent, Nat.shiftRight_eq_div_pow]

lemma toNat_unpackMantissa (b : BitVec Format.binary64.numBits) :
    (unpackMantissa b).toNat = b.toNat % 2 ^ 52 := by
  simp [unpackMantissa]

lemma isNaN_ofMagnitudeBits (negative : Bool) (magnitude : Nat) :
    (ofMagnitudeBits negative magnitude).isNaN = false := by
  set bits := (if negative then signBit else 0) + min magnitude infiniteBits with hbits
  show (unpack Format.binary64 (UnpackedFloat.pack Format.binary64
    (unpack Format.binary64 (UInt64.ofNat bits).toBitVec))).isNaN = false
  rw [isNaN_unpack_pack, ← Bool.not_eq_true, isNaN_unpack_iff]
  rintro ⟨hexp, hman⟩
  have hexp := congrArg BitVec.toNat hexp
  have hman : (@unpackMantissa Format.binary64 (UInt64.ofNat bits).toBitVec).toNat ≠ 0 :=
    fun h => hman (BitVec.eq_of_toNat_eq h)
  rw [toNat_unpackExponent] at hexp
  rw [toNat_unpackMantissa] at hman
  have hlow : min magnitude infiniteBits ≤ 2047 * 2 ^ 52 := Nat.min_le_right _ _
  have hsign : (if negative then signBit else 0) = 0 ∨
      (if negative then signBit else 0) = 2 ^ 63 := by
    cases negative
    · exact Or.inl rfl
    · exact Or.inr rfl
  have hword : (UInt64.ofNat bits).toBitVec.toNat = bits := by
    show bits % 2 ^ 64 = bits
    omega
  rw [hword] at hexp hman
  have hexp := hexp.trans (show _ = 2047 by decide)
  omega

lemma isNaN_ofRatio (negative : Bool) (num den : Nat) : (ofRatio negative num den).isNaN = false :=
  isNaN_ofMagnitudeBits _ _

lemma isNaN_roundHalfAway {x : Float} (hx : x.isNaN = false) : (roundHalfAway x).isNaN = false := by
  unfold roundHalfAway
  split
  · split
    · exact hx
    · exact isNaN_ofRatio _ _ _
  · exact hx

/-- Rounding to decimal places whose power of ten is a proper number makes no NaN. -/
lemma isNaN_roundTo {places : Int} {x : Float} (hp : Regular (powerOfTen places))
    (hx : x.isNaN = false) : (roundTo places x).isNaN = false :=
  isNaN_div (isNaN_roundHalfAway (isNaN_mul hx hp)) hp

lemma regular_powerOfTen_three : Regular (powerOfTen 3) :=
  ⟨.positive, 1000 * 2 ^ 43, -43, by decide, rfl⟩

lemma isNaN_ofDecimal (negative : Bool) (digits : Nat) (exponent : Int) :
    (ofDecimal negative digits exponent).isNaN = false := by
  unfold ofDecimal
  dsimp only
  split
  · exact isNaN_ofMagnitudeBits _ _
  · split
    · exact isNaN_ofMagnitudeBits _ _
    · exact isNaN_ofRatio _ _ _

end RenderLayout.Number
