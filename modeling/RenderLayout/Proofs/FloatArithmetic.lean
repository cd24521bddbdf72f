import RenderLayout.Proofs.Rounding

/-!
Products and quotients of floats.

The model of floats multiplies and divides mantissas, shifts the result to the size of a mantissa
and keeps two bits of what it drops. The bits say enough about the exact result to round it, so that
products and quotients are the floats that the exact counts of units are nearest to.
-/

namespace RenderLayout.Number

open Float.Model Float.Model.UnpackedFloat

/-! ### Mantissas with two more bits -/

/-- The mantissa is the whole part of a quotient, the round bit is the half behind it, and the
sticky bit says whether there is more. -/
structure Cuts (em : ExtendedMantissa) (num den : Nat) : Prop where
  pos : 0 < den
  halves : 2 * em.mantissa + em.roundBit.toNat = 2 * num / den
  sticky : em.stickyBit = true ↔ 2 * num % den ≠ 0

variable {em : ExtendedMantissa} {num den : Nat}

lemma Cuts.mantissa_eq (h : Cuts em num den) : em.mantissa = num / den := by
  have hhalves := h.halves
  have hbit := em.roundBit.toNat_lt
  have hhalf : 2 * num / den / 2 = num / den := by
    rw [Nat.div_div_eq_div_mul, Nat.mul_comm den, Nat.mul_div_mul_left _ _ (by decide)]
  omega

/-- The rest of twice a number, by the rest of the number and the round bit. -/
lemma Cuts.rest_eq (h : Cuts em num den) :
    den * em.roundBit.toNat + 2 * num % den = 2 * (num % den) := by
  have hwhole := Nat.div_add_mod num den
  have htwice := Nat.div_add_mod (2 * num) den
  rw [← h.halves, Nat.mul_add, Nat.mul_left_comm] at htwice
  rw [← h.mantissa_eq] at hwhole
  omega

lemma Cuts.shiftRightOne (h : Cuts em num den) : Cuts em.shiftRightOne num (2 * den) := by
  have hpos := h.pos
  have hrest := h.rest_eq
  refine ⟨by omega, ?_, ?_⟩
  · have hbit : (em.mantissa % 2 != 0).toNat = em.mantissa % 2 := by
      rcases Nat.mod_two_eq_zero_or_one em.mantissa with hbit | hbit
      · rw [hbit]
        rfl
      · rw [hbit]
        rfl
    show 2 * (em.mantissa / 2) + (em.mantissa % 2 != 0).toNat = 2 * num / (2 * den)
    rw [Nat.mul_div_mul_left _ _ (by decide), ← h.mantissa_eq, hbit]
    omega
  · show (em.roundBit || em.stickyBit) = true ↔ 2 * num % (2 * den) ≠ 0
    rw [Nat.mul_mod_mul_left, Bool.or_eq_true, h.sticky, ← hrest]
    cases em.roundBit
    · simp
    · simp
      omega

lemma Cuts.shiftRight (h : Cuts em num den) (n : Nat) : Cuts (em >>> n) num (2 ^ n * den) := by
  show Cuts (n.repeat ExtendedMantissa.shiftRightOne em) num (2 ^ n * den)
  induction n with
  | zero => simpa [Nat.repeat] using h
  | succ n ih =>
    rw [Nat.repeat, Nat.pow_succ, Nat.mul_comm (2 ^ n), Nat.mul_assoc]
    exact ih.shiftRightOne

/-- The two bits tell how the quotient is to be rounded. -/
lemma Cuts.roundedMantissa (h : Cuts em num den) :
    em.roundedMantissa = roundDiv .even num den := by
  have hlt := Nat.mod_lt (2 * num) h.pos
  have hrest := h.rest_eq
  have hsticky := h.sticky
  unfold roundDiv
  dsimp only
  rw [← h.mantissa_eq]
  obtain ⟨mantissa, roundBit, stickyBit⟩ := em
  cases roundBit <;> cases stickyBit <;>
    simp only [Bool.toNat_false, Bool.toNat_true, Nat.mul_zero, Nat.mul_one, Nat.zero_add, ne_eq,
      false_iff, true_iff, Bool.false_eq_true, not_not] at hrest hsticky
  · rw [if_pos (by omega)]
    rfl
  · rw [if_pos (by omega)]
    rfl
  · rw [if_neg (by omega), if_neg (by omega)]
    rfl
  · rw [if_neg (by omega), if_pos (by omega)]
    rfl

lemma cuts_exact (mantissa : Nat) :
    Cuts (.ofMantissaAndAccuracy mantissa .exact) mantissa 1 :=
  ⟨by decide, by simp [ExtendedMantissa.ofMantissaAndAccuracy],
    by simp [ExtendedMantissa.ofMantissaAndAccuracy, Nat.mod_one]⟩

/-- The bits of the rest of a division. -/
lemma cuts_of_rest {bit sticky : Bool} (hden : 0 < den)
    (hlow : den * bit.toNat ≤ 2 * (num % den)) (hhigh : 2 * (num % den) < den * bit.toNat + den)
    (hsticky : sticky = true ↔ 2 * (num % den) ≠ den * bit.toNat) :
    Cuts ⟨num / den, bit, sticky⟩ num den := by
  have htwice : 2 * num = 2 * (num % den) + den * (2 * (num / den)) := by
    have hsum := Nat.div_add_mod num den
    rw [Nat.mul_left_comm]
    omega
  have hdiv : 2 * (num % den) / den = bit.toNat := by
    refine Nat.div_eq_of_lt_le ?_ ?_
    · rwa [Nat.mul_comm bit.toNat]
    · rwa [Nat.add_one_mul bit.toNat, Nat.mul_comm bit.toNat]
  have hmod := Nat.div_add_mod (2 * (num % den)) den
  rw [hdiv] at hmod
  refine ⟨hden, ?_, ?_⟩
  · rw [htwice, Nat.add_mul_div_left _ _ hden, hdiv, Nat.add_comm]
  · rw [htwice, Nat.add_mul_mod_self_left, hsticky]
    omega

/-- A division keeps enough of its rest. -/
lemma cuts_fraction (num : Nat) (hden : 0 < den) :
    Cuts (.ofMantissaAndAccuracy (num / den) (accuracyOfFraction (num % den) den)) num den := by
  have hlt := Nat.mod_lt num hden
  unfold accuracyOfFraction
  split
  case isTrue hzero => exact cuts_of_rest hden (by simp) (by simp [hzero, hden]) (by simp [hzero])
  case isFalse hzero =>
    rcases Nat.lt_trichotomy (2 * (num % den)) den with hhalf | hhalf | hhalf
    · rw [Nat.compare_eq_lt.2 hhalf]
      exact cuts_of_rest hden (by simp) (by simpa using hhalf) (by simpa using hzero)
    · rw [Nat.compare_eq_eq.2 hhalf]
      exact cuts_of_rest hden (by simp [hhalf]) (by simp [hhalf, hden]) (by simp [hhalf])
    · rw [Nat.compare_eq_gt.2 hhalf]
      refine cuts_of_rest hden ?_ ?_ ?_
      · simpa using hhalf.le
      · simp
        omega
      · simpa using hhalf.ne'

/-! ### Rounding and packing -/

def signOf (negative : Bool) : Sign := if negative then .negative else .positive

/-- The bits of a magnitude with a sign. -/
def signedBits (negative : Bool) (magnitude : Nat) : Nat :=
  (if negative then signBit else 0) + min magnitude infiniteBits

lemma roundDiv_mul_mul (tie : Tie) (num den : Nat) {c : Nat} (hc : 0 < c) :
    roundDiv tie (num * c) (den * c) = roundDiv tie num den := by
  have hbelow : 2 * (num % den * c) < den * c ↔ 2 * (num % den) < den := by
    rw [← Nat.mul_assoc, Nat.mul_lt_mul_right hc]
  have habove : den * c < 2 * (num % den * c) ↔ den < 2 * (num % den) := by
    rw [← Nat.mul_assoc, Nat.mul_lt_mul_right hc]
  unfold roundDiv
  simp only [Nat.mul_div_mul_right _ _ hc, Nat.mul_mod_mul_right, hbelow, habove]

lemma magnitudeBits_mul_mul (num den : Nat) {c : Nat} (hc : 0 < c) :
    magnitudeBits (num * c) (den * c) = magnitudeBits num den := by
  unfold magnitudeBits
  dsimp only
  rw [Nat.mul_div_mul_right _ _ hc, Nat.shiftLeft_eq (den * c), Nat.shiftLeft_eq den,
    Nat.mul_right_comm, roundDiv_mul_mul _ _ _ hc]

lemma magnitudeBits_congr {num' den' : Nat} (hden : 0 < den) (hden' : 0 < den')
    (h : num * den' = num' * den) : magnitudeBits num den = magnitudeBits num' den' := by
  rw [← magnitudeBits_mul_mul num den hden', ← magnitudeBits_mul_mul num' den' hden, h,
    Nat.mul_comm den]

/-- The bits of a magnitude whose mantissa is cut to its size. -/
lemma magnitudeBits_of_quotient {scale : Nat}
    (high : num / (2 ^ scale * den) < 2 ^ 53)
    (low : scale = 0 ∨ 2 ^ 52 ≤ num / (2 ^ scale * den)) :
    magnitudeBits num den = scale <<< 52 + roundDiv .even num (2 ^ scale * den) := by
  refine magnitudeBits_of_log2 ?_
  have hscale : 0 < 2 ^ scale := Nat.two_pow_pos scale
  rw [Nat.mul_comm, ← Nat.div_div_eq_div_mul] at high low
  have high := (Nat.div_lt_iff_lt_mul hscale).1 high
  rcases low with rfl | low
  · rw [pow_zero, Nat.mul_one] at high
    rcases Nat.eq_zero_or_pos (num / den) with hzero | hpos
    · rw [hzero]
      rfl
    · have := (Nat.log2_lt hpos.ne').2 high
      omega
  · have low := (Nat.le_div_iff_mul_le hscale).1 low
    refine log2_sub_of_le_of_lt ?_ ?_
    · rwa [Nat.one_shiftLeft, Nat.pow_add]
    · rwa [Nat.one_shiftLeft, Nat.pow_add]

lemma div_two_pow_lt {n cut : Nat} (h : n.log2 ≤ 52 + cut) : n / 2 ^ cut < 2 ^ 53 := by
  have hpower : 2 ^ (n.log2 + 1) ≤ 2 ^ (53 + cut) := Nat.pow_le_pow_right (by decide) (by omega)
  rw [Nat.div_lt_iff_lt_mul (Nat.two_pow_pos cut), ← Nat.pow_add]
  exact Nat.lt_log2_self.trans_le hpower

lemma le_div_two_pow {n cut : Nat} (h : n.log2 = 52 + cut) : 2 ^ 52 ≤ n / 2 ^ cut := by
  have hne : n ≠ 0 := by
    rintro rfl
    rw [Nat.log2_zero] at h
    omega
  rw [Nat.le_div_iff_mul_le (Nat.two_pow_pos cut), ← Nat.pow_add, ← h]
  exact Nat.log2_self_le hne

/-- Every quotient has a scale at which its whole part is a mantissa. -/
lemma exists_scale (num den : Nat) :
    ∃ scale, num / (2 ^ scale * den) < 2 ^ 53 ∧
      (scale = 0 ∨ 2 ^ 52 ≤ num / (2 ^ scale * den)) := by
  refine ⟨(num / den).log2 - 52, ?_, ?_⟩
  · rw [Nat.mul_comm, ← Nat.div_div_eq_div_mul]
    exact div_two_pow_lt (by omega)
  · refine or_iff_not_imp_left.2 fun hscale => ?_
    rw [Nat.mul_comm, ← Nat.div_div_eq_div_mul]
    exact le_div_two_pow (by omega)

/-- An exponent goes into the numerator or into the denominator. -/
lemma magnitudeBits_of_cut {scale cut up down : Nat} (hsum : scale + down = cut + up)
    (high : num / (2 ^ cut * den) < 2 ^ 53)
    (low : scale = 0 ∨ 2 ^ 52 ≤ num / (2 ^ cut * den)) :
    magnitudeBits (num * 2 ^ up) (den * 2 ^ down) =
      scale <<< 52 + roundDiv .even num (2 ^ cut * den) := by
  have hden : 2 ^ scale * (den * 2 ^ down) = 2 ^ cut * den * 2 ^ up := by
    rw [Nat.mul_left_comm, ← Nat.pow_add, hsum, Nat.pow_add]
    ring
  have hup : 0 < 2 ^ up := Nat.two_pow_pos up
  rw [← roundDiv_mul_mul .even num (2 ^ cut * den) hup, ← hden]
  refine magnitudeBits_of_quotient ?_ ?_
  · rwa [hden, Nat.mul_div_mul_right _ _ hup]
  · rwa [hden, Nat.mul_div_mul_right _ _ hup]

lemma targetExponent_eq (mantissa : Nat) (exponent : Int) :
    Format.binary64.targetExponent (totalExponent mantissa exponent) =
      max (mantissa.log2 + exponent - 52) (-1074) := by
  simp only [Format.targetExponent, totalExponent, Format.mantissaBits, Format.minExponent]
  norm_num
  omega

lemma shiftToTargetExponent_fitting {mantissa : Nat} {exponent : Int} (hm : mantissa < 2 ^ 53)
    (he : -1074 ≤ exponent) :
    shiftToTargetExponent Format.binary64 mantissa exponent .exact =
      (.ofMantissaAndAccuracy mantissa .exact, exponent) := by
  have hlog : mantissa.log2 ≤ 52 := by
    rcases Nat.eq_zero_or_pos mantissa with rfl | hpos
    · decide
    · exact Nat.lt_succ_iff.1 ((Nat.log2_lt hpos.ne').2 hm)
  have hshift : (max ((mantissa.log2 : Int) + exponent - 52) (-1074) - exponent).toNat = 0 := by
    omega
  unfold shiftToTargetExponent shiftToExponent
  rw [targetExponent_eq]
  dsimp only
  rw [hshift]
  simp [HShiftRight.hShiftRight, Nat.repeat]

/-- A mantissa that is rounded up to the next power of two is carried into the exponent. -/
lemma shiftToTargetExponent_carried {exponent : Int} (he : -1074 ≤ exponent) :
    shiftToTargetExponent Format.binary64 (2 ^ 53) exponent .exact =
      (.ofMantissaAndAccuracy (2 ^ 52) .exact, exponent + 1) := by
  have hshift :
      (max (((2 ^ 53 : Nat).log2 : Int) + exponent - 52) (-1074) - exponent).toNat = 1 := by
    rw [Nat.log2_two_pow]
    omega
  unfold shiftToTargetExponent shiftToExponent
  rw [targetExponent_eq]
  dsimp only
  rw [hshift]
  rfl

lemma toNat_packComponents (negative : Bool) (exponent : BitVec 11) (mantissa : BitVec 52) :
    (packComponents Format.binary64 (signOf negative) exponent mantissa).toNat =
      (if negative then signBit else 0) + (exponent.toNat <<< 52 + mantissa.toNat) := by
  have hexponent : exponent.toNat < 2 ^ 11 := exponent.isLt
  have hmantissa : mantissa.toNat < 2 ^ 52 := mantissa.isLt
  show ((signOf negative).toBitVec ++ exponent ++ mantissa).toNat = _
  rw [BitVec.toNat_append, ← Nat.shiftLeft_add_eq_or_of_lt hmantissa, BitVec.toNat_append,
    ← Nat.shiftLeft_add_eq_or_of_lt hexponent, Nat.shiftLeft_eq, Nat.shiftLeft_eq, Nat.shiftLeft_eq]
  cases negative
  · show (0 * 2 ^ 11 + exponent.toNat) * 2 ^ 52 + mantissa.toNat = _
    simp
  · show (1 * 2 ^ 11 + exponent.toNat) * 2 ^ 52 + mantissa.toNat = 2 ^ 63 + _
    omega

lemma toNat_pack {negative : Bool} {mantissa scale : Nat} (hpos : 0 < mantissa)
    (high : mantissa < 2 ^ 53) (low : scale = 0 ∨ 2 ^ 52 ≤ mantissa) {exponent : Int}
    (hexponent : exponent = scale - 1074) :
    (UnpackedFloat.pack Format.binary64
      (.finite (signOf negative) mantissa exponent hpos)).toNat =
        signedBits negative (scale <<< 52 + mantissa) := by
  have hbiased : (exponent + Format.binary64.exponentBias +
      Format.binary64.mantissaBitsWithoutImplicit).toNat = scale + 1 := by
    show (exponent + 1023 + 52).toNat = scale + 1
    omega
  unfold UnpackedFloat.pack signedBits
  dsimp only
  rw [hbiased, show infiniteBits = 2047 * 2 ^ 52 from rfl, Nat.shiftLeft_eq]
  split
  case isTrue hover =>
    have hscale : 2046 ≤ scale := by
      have hover : 2048 ≤ scale + 1 + 1 := hover
      omega
    have hmin : min (scale * 2 ^ 52 + mantissa) (2047 * 2 ^ 52) = 2047 * 2 ^ 52 := by omega
    rw [hmin]
    exact toNat_packComponents negative (-1#11) 0
  case isFalse hover =>
    have hscale : scale < 2046 := by
      have hover : ¬ 2048 ≤ scale + 1 + 1 := hover
      omega
    have hmin : min (scale * 2 ^ 52 + mantissa) (2047 * 2 ^ 52) = scale * 2 ^ 52 + mantissa := by
      omega
    rw [hmin]
    split
    case isTrue hnormal =>
      have hlog : mantissa.log2 = 52 := by
        have hnormal : mantissa.log2 + 1 = 53 := hnormal
        omega
      have hleading : 2 ^ 52 ≤ mantissa := (Nat.le_log2 hpos.ne').1 hlog.ge
      rw [toNat_packComponents, Nat.shiftLeft_eq, BitVec.toNat_ofNat, BitVec.toNat_ofNat]
      omega
    case isFalse hsubnormal =>
      have hsmall : mantissa < 2 ^ 52 := by
        by_contra hlarge
        have hlow := (Nat.le_log2 hpos.ne').2 (not_lt.1 hlarge)
        have hhigh := (Nat.log2_lt hpos.ne').2 high
        exact hsubnormal (show mantissa.log2 + 1 = 53 by omega)
      rw [toNat_packComponents, Nat.shiftLeft_eq, BitVec.toNat_ofNat, BitVec.toNat_ofNat]
      omega

lemma toNat_packedZero (negative : Bool) :
    (UnpackedFloat.pack Format.binary64 (.zero (signOf negative))).toNat =
      signedBits negative 0 := by
  cases negative <;> rfl

/-- The float of a mantissa that has been cut and rounded. -/
lemma toNat_pack_mantissa (negative : Bool) {mantissa scale : Nat} {exponent : Int}
    (high : mantissa ≤ 2 ^ 53) (low : scale = 0 ∨ 2 ^ 52 ≤ mantissa)
    (hexponent : exponent = scale - 1074) :
    let final := shiftToTargetExponent Format.binary64 mantissa exponent .exact
    (UnpackedFloat.pack Format.binary64
      (if h : final.1.mantissa = 0 then .zero (signOf negative)
        else .finite (signOf negative) final.1.mantissa final.2 (Nat.pos_of_ne_zero h))).toNat =
      signedBits negative (scale <<< 52 + mantissa) := by
  dsimp only
  rcases Nat.lt_or_eq_of_le high with hlt | rfl
  · rw [shiftToTargetExponent_fitting hlt (by omega)]
    split
    case isTrue hzero =>
      obtain rfl : mantissa = 0 := hzero
      obtain rfl : scale = 0 := by omega
      exact toNat_packedZero negative
    case isFalse hzero => exact toNat_pack (Nat.pos_of_ne_zero hzero) hlt low hexponent
  · rw [shiftToTargetExponent_carried (by omega)]
    split
    case isTrue hzero => exact absurd hzero (show ¬ 2 ^ 52 = 0 by decide)
    case isFalse hzero =>
      have hcarried : (scale + 1) <<< 52 + 2 ^ 52 = scale <<< 52 + 2 ^ 53 := by
        rw [Nat.shiftLeft_eq, Nat.shiftLeft_eq]
        omega
      have hpack := @toNat_pack negative (2 ^ 52) (scale + 1) (by decide) (by decide)
        (Or.inr le_rfl) (exponent + 1) (by omega)
      rwa [hcarried] at hpack

lemma ofMantissaAndAccuracy_mantissa (mantissa : Nat) (accuracy : Accuracy) :
    (ExtendedMantissa.ofMantissaAndAccuracy mantissa accuracy).mantissa = mantissa := by
  cases accuracy with
  | exact => rfl
  | inexact half => cases half <;> rfl

/-- **The model rounds as the counts do.** A mantissa that is cut no shorter than that of a float is
rounded to the float nearest to the quotient that it is cut from. -/
lemma toNat_pack_round (negative : Bool) {mantissa : Nat} {exponent : Int} {accuracy : Accuracy}
    (hcuts : Cuts (.ofMantissaAndAccuracy mantissa accuracy) num den)
    (hlong : exponent ≤ max (mantissa.log2 + exponent - 52) (-1074)) :
    (UnpackedFloat.pack Format.binary64
      (roundWithAccuracy Format.binary64 (signOf negative) mantissa exponent accuracy)).toNat =
      signedBits negative (magnitudeBits (num * 2 ^ (exponent + 1074).toNat)
        (den * 2 ^ (-(exponent + 1074)).toNat)) := by
  have hmantissa := hcuts.mantissa_eq
  rw [ofMantissaAndAccuracy_mantissa] at hmantissa
  obtain ⟨scale, hscale⟩ : ∃ scale : Nat,
      max (mantissa.log2 + exponent - 52) (-1074) = (scale : Int) - 1074 :=
    ⟨(max (mantissa.log2 + exponent - 52) (-1074) + 1074).toNat, by omega⟩
  obtain ⟨cut, hcut⟩ : ∃ cut : Nat, exponent + cut = (scale : Int) - 1074 :=
    ⟨(scale - 1074 - exponent).toNat, by omega⟩
  have hfirst : shiftToTargetExponent Format.binary64 mantissa exponent accuracy =
      (ExtendedMantissa.ofMantissaAndAccuracy mantissa accuracy >>> cut, (scale : Int) - 1074) := by
    have hamount : ((scale : Int) - 1074 - exponent).toNat = cut := by omega
    unfold shiftToTargetExponent shiftToExponent
    rw [targetExponent_eq, hscale]
    dsimp only
    rw [hamount, hcut]
  have hfloor : num / (2 ^ cut * den) = mantissa / 2 ^ cut := by
    rw [hmantissa, Nat.div_div_eq_div_mul, Nat.mul_comm den]
  have high : num / (2 ^ cut * den) < 2 ^ 53 := by
    rw [hfloor]
    exact div_two_pow_lt (by omega)
  have low : scale = 0 ∨ 2 ^ 52 ≤ num / (2 ^ cut * den) := by
    rw [hfloor]
    exact or_iff_not_imp_left.2 fun hne => le_div_two_pow (by omega)
  have hround := roundDiv_eq_or .even num (2 ^ cut * den)
  rw [magnitudeBits_of_cut (by omega) high low]
  unfold roundWithAccuracy
  rw [hfirst]
  dsimp only
  rw [(hcuts.shiftRight cut).roundedMantissa]
  exact toNat_pack_mantissa negative (by omega) (by omega) rfl

/-! ### Finite floats -/

lemma unitsPerOne_eq : unitsPerOne = 2 ^ 1074 := by
  unfold unitsPerOne
  generalize 1074 = n
  exact Nat.one_shiftLeft n

lemma ofBitVec_unpackSign (b : BitVec Format.binary64.numBits) :
    Sign.ofBitVec (unpackSign b) = signOf (decide (2 ^ 63 ≤ b.toNat)) := by
  have hword : b.toNat < 2 ^ 64 := b.isLt
  have hsign : (unpackSign b).toNat = b.toNat / 2 ^ 63 := by
    simp [unpackSign, Nat.shiftRight_eq_div_pow]
    omega
  unfold Sign.ofBitVec
  by_cases hnegative : 2 ^ 63 ≤ b.toNat
  · have hne : unpackSign b ≠ 0#1 := fun hzero => by
      rw [hzero] at hsign
      have hsign : 0 = b.toNat / 2 ^ 63 := hsign
      omega
    rw [if_neg hne, decide_eq_true hnegative]
    rfl
  · have hzero : unpackSign b = 0#1 := BitVec.eq_of_toNat_eq (by
      rw [hsign]
      show b.toNat / 2 ^ 63 = 0
      omega)
    rw [if_pos hzero, decide_eq_false hnegative]
    rfl

/-- The exponent of all zeros is that of zero and of a mantissa without its leading bit. -/
lemma unpack_subnormal {b : BitVec Format.binary64.numBits} (h : b.toNat / 2 ^ 52 % 2 ^ 11 = 0) :
    b.toNat % 2 ^ 52 = 0 ∧ unpack Format.binary64 b = .zero (.ofBitVec (unpackSign b)) ∨
      ∃ hpos, unpack Format.binary64 b =
        .finite (.ofBitVec (unpackSign b)) (b.toNat % 2 ^ 52) (-1074) hpos := by
  rw [← toNat_unpackExponent] at h
  rw [← toNat_unpackMantissa]
  have hzero : @unpackExponent Format.binary64 b = 0#11 := BitVec.eq_of_toNat_eq h
  have hones : @unpackExponent Format.binary64 b ≠ -1#_ := by
    rw [hzero]
    decide
  unfold UnpackedFloat.unpack
  dsimp only
  rw [if_neg hones, if_pos hzero, hzero]
  split
  case isTrue hnone =>
    rw [hnone]
    exact Or.inl ⟨rfl, rfl⟩
  case isFalse hsome =>
    exact Or.inr ⟨Nat.pos_of_ne_zero fun hnone => hsome (BitVec.eq_of_toNat_eq hnone), rfl⟩

/-- With another exponent, but that of infinity and NaN, the mantissa has its leading bit. -/
lemma unpack_normal {b : BitVec Format.binary64.numBits} (hne : b.toNat / 2 ^ 52 % 2 ^ 11 ≠ 0)
    (hlt : b.toNat / 2 ^ 52 % 2 ^ 11 ≠ 2047) :
    ∃ hpos, unpack Format.binary64 b = .finite (.ofBitVec (unpackSign b))
      (2 ^ 52 + b.toNat % 2 ^ 52) ((b.toNat / 2 ^ 52 % 2 ^ 11 : Nat) - 1075) hpos := by
  rw [← toNat_unpackExponent] at hne hlt ⊢
  rw [← toNat_unpackMantissa]
  have hzero : @unpackExponent Format.binary64 b ≠ 0#11 := fun hzero => hne (by rw [hzero]; rfl)
  have hones : @unpackExponent Format.binary64 b ≠ -1#_ := fun hones => hlt (by rw [hones]; rfl)
  unfold UnpackedFloat.unpack
  dsimp only
  rw [if_neg hones, if_neg hzero]
  refine ⟨by omega, ?_⟩
  rw [finite.injEq]
  refine ⟨rfl, ?_, ?_⟩
  · rw [BitVec.toNat_append, ← Nat.shiftLeft_add_eq_or_of_lt (BitVec.isLt _)]
    show 1 <<< 52 + _ = _
    rw [Nat.one_shiftLeft]
  · show _ - (1023 + 52) = _
    omega

/-- A finite float as the model has it. -/
lemma unpack_of_ofFloat {x : Float} {negative : Bool} {mantissa scale : Nat}
    (h : Binary.ofFloat x = .finite negative mantissa scale) :
    mantissa = 0 ∧ x.toModel.unpack = .zero (signOf negative) ∨
      ∃ hpos, x.toModel.unpack = .finite (signOf negative) mantissa (scale - 1074) hpos := by
  show mantissa = 0 ∧ UnpackedFloat.unpack Format.binary64 x.toBits.toBitVec = _ ∨
    ∃ hpos, UnpackedFloat.unpack Format.binary64 x.toBits.toBitVec = _
  have hword : x.toBits.toNat < 2 ^ 64 := x.toBits.toNat_lt
  have hsubnormal := @unpack_subnormal x.toBits.toBitVec
  have hnormal := @unpack_normal x.toBits.toBitVec
  rw [ofBitVec_unpackSign, UInt64.toNat_toBitVec] at hsubnormal hnormal
  unfold Binary.ofFloat at h
  dsimp only at h
  rw [show signBit = 2 ^ 63 from rfl, show infiniteBits = 2047 * 2 ^ 52 from rfl, Nat.one_shiftLeft,
    Nat.shiftRight_eq_div_pow] at h
  generalize x.toBits.toNat = bits at hword hsubnormal hnormal h
  split_ifs at h with hnan hinfinite hsmall
  · obtain ⟨rfl, rfl, rfl⟩ := Binary.finite.inj h
    have hfraction : bits % 2 ^ 52 = bits % 2 ^ 63 := by omega
    rw [hfraction] at hsubnormal
    exact hsubnormal (by omega)
  · obtain ⟨rfl, rfl, rfl⟩ := Binary.finite.inj h
    have hfraction : bits % 2 ^ 52 = bits % 2 ^ 63 % 2 ^ 52 := by omega
    have hexponent : ((bits / 2 ^ 52 % 2 ^ 11 : Nat) : Int) - 1075 =
        (bits % 2 ^ 63 / 2 ^ 52 - 1 : Nat) - 1074 := by omega
    rw [hfraction, hexponent] at hnormal
    exact Or.inr (hnormal (by omega) (by omega))

lemma eq_ofMagnitudeBits {x : Float} {negative : Bool} {magnitude : Nat}
    (h : x.toBits.toNat = signedBits negative magnitude) :
    x = ofMagnitudeBits negative magnitude := by
  have hbits : x.toBits = UInt64.ofNat (signedBits negative magnitude) := by
    rw [← h, UInt64.ofNat_toNat]
  rw [← Float.ofBits_toBits x, hbits]
  rfl

lemma isMagnitude_of_ofFloat {x : Float} {negative : Bool} {mantissa scale : Nat}
    (h : Binary.ofFloat x = .finite negative mantissa scale) :
    IsMagnitude mantissa scale ∧ ofMagnitudeBits negative (scale <<< 52 + mantissa) = x := by
  by_cases hfinite : x.isFinite = true
  · obtain ⟨negative', mantissa', scale', hx, hmagnitude, hback⟩ := ofFloat_of_isFinite hfinite
    obtain ⟨rfl, rfl, rfl⟩ := Binary.finite.inj (hx.symm.trans h)
    exact ⟨hmagnitude, hback⟩
  · exact absurd h (ofFloat_ne_finite hfinite _ _ _)

/-- No bits of a magnitude are those of a NaN, and so they are kept. -/
lemma toNat_toBits_ofMagnitudeBits (negative : Bool) (magnitude : Nat) :
    (ofMagnitudeBits negative magnitude).toBits.toNat = signedBits negative magnitude := by
  set bits := (UInt64.ofNat (signedBits negative magnitude)).toBitVec with hbits
  have hnan : @isNaNBits Format.binary64 bits ≠ true := by
    have hnan : (unpack Format.binary64 (UnpackedFloat.pack Format.binary64
        (unpack Format.binary64 bits))).isNaN = false := isNaN_ofMagnitudeBits negative magnitude
    rw [isNaN_unpack_pack, ← Bool.not_eq_true, isNaN_unpack_iff] at hnan
    simpa [isNaNBits] using hnan
  show (UnpackedFloat.pack Format.binary64 (UnpackedFloat.unpack Format.binary64 bits)).toNat = _
  rw [pack_unpack, if_neg hnan]
  show signedBits negative magnitude % 2 ^ 64 = _
  refine Nat.mod_eq_of_lt ?_
  unfold signedBits
  rw [show signBit = 2 ^ 63 from rfl, show infiniteBits = 2047 * 2 ^ 52 from rfl]
  split <;> omega

lemma ofFloat_ofMagnitudeBits (negative : Bool) {mantissa scale : Nat}
    (h : IsMagnitude mantissa scale) :
    Binary.ofFloat (ofMagnitudeBits negative (scale <<< 52 + mantissa)) =
      .finite negative mantissa scale := by
  obtain ⟨high, low, hbounded⟩ := h
  rw [Nat.one_shiftLeft] at high low
  unfold Binary.ofFloat
  rw [toNat_toBits_ofMagnitudeBits]
  unfold signedBits
  rw [show signBit = 2 ^ 63 from rfl, show infiniteBits = 2047 * 2 ^ 52 from rfl,
    Nat.shiftLeft_eq, Nat.min_eq_left (by omega)]
  dsimp only
  have hmagnitude : ((if negative then 2 ^ 63 else 0) + (scale * 2 ^ 52 + mantissa)) % 2 ^ 63 =
      scale * 2 ^ 52 + mantissa := by
    split <;> omega
  have hsign : decide (2 ^ 63 ≤ (if negative then 2 ^ 63 else 0) + (scale * 2 ^ 52 + mantissa)) =
      negative := by
    cases negative
    · exact decide_eq_false (by simp; omega)
    · exact decide_eq_true (by simp)
  rw [hmagnitude, hsign, if_neg (by omega), if_neg (by omega), Nat.one_shiftLeft]
  split_ifs with hsubnormal
  · obtain rfl : scale = 0 := by omega
    rw [Nat.zero_mul, Nat.zero_add]
  · rw [Nat.shiftRight_eq_div_pow]
    congr 1
    · omega
    · omega

lemma magnitudeBits_zero (den : Nat) : magnitudeBits 0 den = 0 := by
  simp [magnitudeBits, roundDiv]

/-! ### Products and quotients -/

section Arithmetic

variable {x y : Float} {a b : Bool} {m n s t : Nat}

/-- The product of two mantissas is no shorter than a mantissa: if it is cut, one of them has its
leading bit. -/
lemma product_long (hm : 0 < m) (hn : 0 < n) (hx : IsMagnitude m s) (hy : IsMagnitude n t) :
    (s : Int) - 1074 + (t - 1074) ≤
      max ((m * n).log2 + ((s : Int) - 1074 + (t - 1074)) - 52) (-1074) := by
  obtain ⟨-, hs, -⟩ := hx
  obtain ⟨-, ht, -⟩ := hy
  by_cases hsmall : s + t ≤ 1074
  · omega
  · have hbits : 2 ^ 52 ≤ m * n := by
      rw [Nat.one_shiftLeft] at hs ht
      rcases hs with rfl | hs
      · exact (ht.resolve_left (by omega)).trans (Nat.le_mul_of_pos_left n hm)
      · exact hs.trans (Nat.le_mul_of_pos_right m hn)
    have hlog := (Nat.le_log2 (Nat.mul_pos hm hn).ne').2 hbits
    omega

/-- The shift before a division makes the quotient as long as a mantissa. -/
lemma quotient_long {target : Int} {shift : Nat} (hm : 0 < m) (hn : 0 < n)
    (htarget : target = min ((s : Int) - 1074 - (t - 1074)) (Format.binary64.targetExponent
      (totalExponent m (s - 1074) - totalExponent n (t - 1074))))
    (hsum : target + shift = (s : Int) - t) :
    target ≤ max ((m <<< shift / n).log2 + target - 52) (-1074) := by
  have hbound : target ≤ max ((m.log2 : Int) + s - (n.log2 + t) - 53) (-1074) := by
    have hle : target ≤ _ := htarget.trans_le (min_le_right _ _)
    simp only [Format.targetExponent, totalExponent, Format.mantissaBits,
      Format.minExponent] at hle
    norm_num at hle
    omega
  by_cases hsmall : target ≤ -1074
  · omega
  · have hlong : 53 + n.log2 ≤ m.log2 + shift := by omega
    have hbits : 2 ^ 52 ≤ m <<< shift / n := by
      rw [Nat.le_div_iff_mul_le hn, Nat.shiftLeft_eq]
      calc 2 ^ 52 * n ≤ 2 ^ 52 * 2 ^ (n.log2 + 1) := Nat.mul_le_mul_left _ Nat.lt_log2_self.le
        _ = 2 ^ (53 + n.log2) := by rw [← Nat.pow_add]; congr 1; omega
        _ ≤ 2 ^ (m.log2 + shift) := Nat.pow_le_pow_right (by decide) hlong
        _ = 2 ^ m.log2 * 2 ^ shift := Nat.pow_add ..
        _ ≤ m * 2 ^ shift := Nat.mul_le_mul_right _ (Nat.log2_self_le hm.ne')
    have hlog := (Nat.le_log2 (by omega)).2 hbits
    omega

/-- **A product of finite floats is the float nearest to the exact product.** -/
theorem mul_eq (hx : Binary.ofFloat x = .finite a m s) (hy : Binary.ofFloat y = .finite b n t) :
    x * y = ofMagnitudeBits (a ^^ b) (magnitudeBits (m <<< s * n <<< t) unitsPerOne) := by
  refine eq_ofMagnitudeBits ?_
  show (UnpackedFloat.pack Format.binary64
    (UnpackedFloat.mul Format.binary64 x.toModel.unpack y.toModel.unpack)).toNat = _
  have hsign : signOf a * signOf b = signOf (a ^^ b) := by cases a <;> cases b <;> rfl
  rcases unpack_of_ofFloat hx with ⟨rfl, hxzero⟩ | ⟨hm, hxfinite⟩
  · -- a zero is a product of no units
    rw [Nat.zero_shiftLeft, Nat.zero_mul, magnitudeBits_zero, ← toNat_packedZero, ← hsign, hxzero]
    rcases unpack_of_ofFloat hy with ⟨rfl, hyzero⟩ | ⟨hn, hyfinite⟩
    · rw [hyzero]
      rfl
    · rw [hyfinite]
      rfl
  rcases unpack_of_ofFloat hy with ⟨rfl, hyzero⟩ | ⟨hn, hyfinite⟩
  · rw [Nat.zero_shiftLeft, Nat.mul_zero, magnitudeBits_zero, ← toNat_packedZero, ← hsign, hxfinite,
      hyzero]
    rfl
  rw [hxfinite, hyfinite]
  unfold UnpackedFloat.mul
  dsimp only
  rw [hsign, toNat_pack_round _ (cuts_exact (m * n)) (product_long hm hn
    (isMagnitude_of_ofFloat hx).1 (isMagnitude_of_ofFloat hy).1)]
  refine congrArg (signedBits (a ^^ b)) (magnitudeBits_congr ?_ (by decide) ?_)
  · rw [Nat.one_mul]
    exact Nat.two_pow_pos _
  · obtain ⟨up, down, hup, hdown, hsum⟩ : ∃ up down : Nat,
        ((s : Int) - 1074 + (t - 1074) + 1074).toNat = up ∧
          (-((s : Int) - 1074 + (t - 1074) + 1074)).toNat = down ∧ up + 1074 = s + t + down :=
      ⟨_, _, rfl, rfl, by omega⟩
    rw [hup, hdown, Nat.shiftLeft_eq, Nat.shiftLeft_eq, Nat.one_mul,
      unitsPerOne_eq]
    calc m * n * 2 ^ up * 2 ^ 1074 = m * n * 2 ^ (up + 1074) := by rw [Nat.pow_add, Nat.mul_assoc]
      _ = m * n * 2 ^ (s + t + down) := by rw [hsum]
      _ = m * 2 ^ s * (n * 2 ^ t) * 2 ^ down := by ring

/-- **A quotient of finite floats is the float nearest to the exact quotient.** -/
theorem div_eq (hx : Binary.ofFloat x = .finite a m s) (hy : Binary.ofFloat y = .finite b n t)
    (hn : n ≠ 0) :
    x / y = ofMagnitudeBits (a ^^ b) (magnitudeBits (m <<< s * unitsPerOne) (n <<< t)) := by
  refine eq_ofMagnitudeBits ?_
  show (UnpackedFloat.pack Format.binary64
    (UnpackedFloat.div Format.binary64 x.toModel.unpack y.toModel.unpack)).toNat = _
  have hsign : signOf a / signOf b = signOf (a ^^ b) := by cases a <;> cases b <;> rfl
  obtain ⟨hnpos, hyfinite⟩ := (unpack_of_ofFloat hy).resolve_left fun h => hn h.1
  rcases unpack_of_ofFloat hx with ⟨rfl, hxzero⟩ | ⟨hm, hxfinite⟩
  · rw [Nat.zero_shiftLeft, Nat.zero_mul, magnitudeBits_zero, ← toNat_packedZero, ← hsign, hxzero,
      hyfinite]
    rfl
  rw [hxfinite, hyfinite]
  unfold UnpackedFloat.div divCore
  dsimp only
  set target := min ((s : Int) - 1074 - (t - 1074)) (Format.binary64.targetExponent
    (totalExponent m (s - 1074) - totalExponent n (t - 1074))) with htarget
  obtain ⟨shift, hshift, hsum⟩ : ∃ shift : Nat,
      ((s : Int) - 1074 - (t - 1074) - target).toNat = shift ∧ target + shift = (s : Int) - t :=
    ⟨_, rfl, by omega⟩
  rw [hshift, hsign, toNat_pack_round _ (cuts_fraction (m <<< shift) hnpos)
    (quotient_long hm hnpos htarget hsum)]
  refine congrArg (signedBits (a ^^ b)) (magnitudeBits_congr ?_ ?_ ?_)
  · exact Nat.mul_pos hnpos (Nat.two_pow_pos _)
  · rw [Nat.shiftLeft_eq]
    exact Nat.mul_pos hnpos (Nat.two_pow_pos _)
  · obtain ⟨up, down, hup, hdown, hbalance⟩ : ∃ up down : Nat,
        (target + 1074).toNat = up ∧ (-(target + 1074)).toNat = down ∧
          shift + up + t = s + 1074 + down :=
      ⟨_, _, rfl, rfl, by omega⟩
    rw [hup, hdown, Nat.shiftLeft_eq, Nat.shiftLeft_eq, Nat.shiftLeft_eq,
      unitsPerOne_eq]
    have hsplit (k : Nat) : m * n * 2 ^ (s + k + down) = m * 2 ^ s * 2 ^ k * (n * 2 ^ down) := by
      ring
    calc m * 2 ^ shift * 2 ^ up * (n * 2 ^ t) = m * n * 2 ^ (shift + up + t) := by ring
      _ = m * n * 2 ^ (s + 1074 + down) := by rw [hbalance]
      _ = m * 2 ^ s * 2 ^ 1074 * (n * 2 ^ down) := hsplit 1074

end Arithmetic

end RenderLayout.Number
