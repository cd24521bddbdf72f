import RenderLayout.Number.Format
import RenderLayout.Proofs.FloatNaN

/-!
Which decimals read back as a float.

A float is read from every decimal in its rounding interval. The search for the shortest decimal
ends within the interval, so that its digits read back; the bounds on what is read at all are
further out than any float.
-/

namespace RenderLayout.Number

open Float.Model Float.Model.UnpackedFloat

/-! ### Finite floats -/

/-- A mantissa with the scale of a float: its leading bit is set, unless the scale is the least. -/
structure IsMagnitude (mantissa scale : Nat) : Prop where
  high : mantissa < 1 <<< 53
  low : scale = 0 ∨ 1 <<< 52 ≤ mantissa
  bounded : scale ≤ 2045

/-- The exponent of all ones is that of infinity and NaN. -/
lemma exponent_ne_of_isFinite {x : Float} (h : x.isFinite = true) :
    x.toBits.toNat / 2 ^ 52 % 2 ^ 11 ≠ 2047 := by
  intro hexponent
  have hones : @unpackExponent Format.binary64 x.toBits.toBitVec = -1#_ := by
    apply BitVec.eq_of_toNat_eq
    rw [toNat_unpackExponent]
    exact hexponent
  have h : (UnpackedFloat.unpack Format.binary64 x.toBits.toBitVec).isFinite = true := h
  unfold UnpackedFloat.unpack at h
  dsimp only at h
  rw [if_pos hones] at h
  split at h <;> exact absurd h (by simp [UnpackedFloat.isFinite])

lemma exponent_eq_of_not_isFinite {x : Float} (h : ¬ x.isFinite = true) :
    x.toBits.toNat / 2 ^ 52 % 2 ^ 11 = 2047 := by
  have h : ¬ (UnpackedFloat.unpack Format.binary64 x.toBits.toBitVec).isFinite = true := h
  by_contra hexponent
  have hones : @unpackExponent Format.binary64 x.toBits.toBitVec ≠ -1#_ := by
    intro hones
    have hnat := congrArg BitVec.toNat hones
    rw [toNat_unpackExponent] at hnat
    exact hexponent hnat
  refine h ?_
  unfold UnpackedFloat.unpack
  dsimp only
  rw [if_neg hones]
  split
  · split <;> rfl
  · rfl

/-- A float that is not finite is no count of units. -/
lemma ofFloat_ne_finite {x : Float} (h : ¬ x.isFinite = true) (negative : Bool)
    (mantissa scale : Nat) : Binary.ofFloat x ≠ .finite negative mantissa scale := by
  have hexponent := exponent_eq_of_not_isFinite h
  have hword : x.toBits.toNat < 2 ^ 64 := x.toBits.toNat_lt
  have hlarge : 2047 * 2 ^ 52 ≤ x.toBits.toNat % 2 ^ 63 := by omega
  unfold Binary.ofFloat
  dsimp only
  rw [show signBit = 2 ^ 63 from rfl, show infiniteBits = 2047 * 2 ^ 52 from rfl]
  split
  · nofun
  · rw [if_pos (by omega)]
    nofun

/-- A finite float is a magnitude with a sign, and its bits are those of the magnitude. -/
lemma ofFloat_of_isFinite {x : Float} (h : x.isFinite = true) :
    ∃ negative mantissa scale, Binary.ofFloat x = .finite negative mantissa scale ∧
      IsMagnitude mantissa scale ∧ ofMagnitudeBits negative (scale <<< 52 + mantissa) = x := by
  have hexponent := exponent_ne_of_isFinite h
  have hword : x.toBits.toNat < 2 ^ 64 := x.toBits.toNat_lt
  set bits := x.toBits.toNat with hbits
  set magnitude := bits % 2 ^ 63 with hmagnitude
  have hinfinite : magnitude < 2047 * 2 ^ 52 := by omega
  -- the bits of the sign and of a magnitude below infinity are those of the float
  have hback : ∀ n, n = magnitude →
      ofMagnitudeBits (decide (2 ^ 63 ≤ bits)) n = x := by
    rintro n rfl
    have hmin : min magnitude infiniteBits = magnitude := Nat.min_eq_left hinfinite.le
    have hsum : (if decide (2 ^ 63 ≤ bits) then signBit else 0) + magnitude = bits := by
      by_cases hsign : 2 ^ 63 ≤ bits
      · rw [decide_eq_true hsign, if_pos rfl, show signBit = 2 ^ 63 from rfl]
        omega
      · rw [decide_eq_false hsign, if_neg (by simp)]
        omega
    rw [ofMagnitudeBits, hmin, hsum, hbits, UInt64.ofNat_toNat, Float.ofBits_toBits]
  have hofFloat : Binary.ofFloat x =
      if magnitude < 2 ^ 52 then .finite (decide (2 ^ 63 ≤ bits)) magnitude 0
      else .finite (decide (2 ^ 63 ≤ bits)) (2 ^ 52 + magnitude % 2 ^ 52)
        (magnitude / 2 ^ 52 - 1) := by
    unfold Binary.ofFloat
    dsimp only
    rw [show signBit = 2 ^ 63 from rfl, show infiniteBits = 2047 * 2 ^ 52 from rfl, ← hbits,
      ← hmagnitude, if_neg hinfinite.not_gt, if_neg hinfinite.ne, Nat.shiftRight_eq_div_pow]
    rfl
  rw [hofFloat]
  by_cases hlow : magnitude < 2 ^ 52
  · rw [if_pos hlow]
    exact ⟨_, _, _, rfl, ⟨by rw [Nat.one_shiftLeft]; omega, Or.inl rfl, by omega⟩,
      hback _ (by simp)⟩
  · rw [if_neg hlow]
    refine ⟨_, _, _, rfl, ⟨?_, Or.inr ?_, by omega⟩, hback _ ?_⟩
    · rw [Nat.one_shiftLeft]
      omega
    · rw [Nat.one_shiftLeft]
      omega
    · rw [Nat.shiftLeft_eq]
      omega

/-! ### Rounding intervals -/

/-- A point is at most half a step away from a multiple of the step, and less from an odd one. -/
structure Near (n point step : Nat) : Prop where
  low : 2 * (n * step) ≤ 2 * point + step
  high : 2 * point ≤ 2 * (n * step) + step
  odd : n % 2 = 1 → 2 * (n * step) < 2 * point + step ∧ 2 * point < 2 * (n * step) + step

/-- A quotient rounds to the whole number that it is near to. -/
lemma roundDiv_even_eq {num den n : Nat} (hden : 0 < den) (h : Near n num den) :
    roundDiv .even num den = n := by
  obtain ⟨hlow, hhigh, hodd⟩ := h
  set whole := num / den with hwhole
  set rest := num % den with hrest
  have hsum : den * whole + rest = num := Nat.div_add_mod num den
  have hlt : rest < den := Nat.mod_lt _ hden
  have hle : whole ≤ n := by
    by_contra hgt
    have := Nat.mul_le_mul_left den (show n + 1 ≤ whole by omega)
    linarith
  have hge : n ≤ whole + 1 := by
    by_contra hgt
    have := Nat.mul_le_mul_left den (show whole + 2 ≤ n by omega)
    linarith
  have hstep : den * (whole + 1) = den * whole + den := by ring
  unfold roundDiv
  dsimp only
  rw [← hwhole, ← hrest]
  obtain rfl | rfl : n = whole ∨ n = whole + 1 := by omega
  · have hhalf : 2 * rest ≤ den := by linarith
    split
    · rfl
    · rw [if_neg hhalf.not_gt]
      have heven : ¬ whole % 2 = 1 := fun h => by have := (hodd h).2; linarith
      omega
  · have hhalf : den ≤ 2 * rest := by linarith
    rw [if_neg hhalf.not_gt]
    split
    · rfl
    · have heven : ¬ (whole + 1) % 2 = 1 := fun h => by have := (hodd h).1; linarith
      omega

/-- A point of the interval is at most half a step away from the float, and below a power of two
at most a quarter. -/
lemma near_of_inInterval {mantissa scale point den : Nat} (hden : 0 < den)
    (h : inInterval mantissa scale point den = true) :
    Near mantissa point (2 ^ scale * den) ∧
      (narrowBelow mantissa scale = true →
        4 * (mantissa * (2 ^ scale * den)) ≤ 4 * point + 2 ^ scale * den) := by
  have hstep : 0 < 2 ^ scale * den := Nat.mul_pos (Nat.two_pow_pos scale) hden
  unfold inInterval at h
  dsimp only at h
  simp only [Nat.shiftLeft_eq] at h
  set step := 2 ^ scale * den with hstepEq
  have hmiddle : 4 * (mantissa * 2 ^ scale) * den = 4 * (mantissa * step) := by
    rw [hstepEq]
    ring
  have htwo : 2 * 2 ^ scale * den = 2 * step := by rw [hstepEq]; ring
  have hone : 1 * 2 ^ scale * den = step := by rw [hstepEq]; ring
  rw [hmiddle, htwo] at h
  by_cases hnarrow : narrowBelow mantissa scale = true
  · -- a power of two is even
    have heven : mantissa % 2 = 0 := by
      unfold narrowBelow at hnarrow
      rw [Bool.and_eq_true, beq_iff_eq] at hnarrow
      rw [hnarrow.1]
      rfl
    rw [if_pos hnarrow, if_pos heven, hone, Bool.and_eq_true, decide_eq_true_iff,
      decide_eq_true_iff] at h
    exact ⟨⟨by omega, by omega, fun hodd => by omega⟩, fun _ => by omega⟩
  · rw [if_neg hnarrow, htwo] at h
    split at h
    case isTrue heven =>
      rw [Bool.and_eq_true, decide_eq_true_iff, decide_eq_true_iff] at h
      exact ⟨⟨by omega, by omega, fun hodd => by omega⟩, fun hn => absurd hn hnarrow⟩
    case isFalse =>
      rw [Bool.and_eq_true, decide_eq_true_iff, decide_eq_true_iff] at h
      exact ⟨⟨by omega, by omega, fun _ => ⟨by omega, by omega⟩⟩, fun hn => absurd hn hnarrow⟩

lemma magnitudeBits_of_log2 {num den scale : Nat} (h : Nat.log2 (num / den) - 52 = scale) :
    magnitudeBits num den = scale <<< 52 + roundDiv .even num (2 ^ scale * den) := by
  unfold magnitudeBits
  dsimp only
  rw [h, Nat.shiftLeft_eq den, Nat.mul_comm den]

/-- **Every point of the rounding interval of a float has the bits of that float.** -/
theorem magnitudeBits_of_inInterval {mantissa scale point den : Nat}
    (hmagnitude : IsMagnitude mantissa scale) (hden : 0 < den)
    (h : inInterval mantissa scale point den = true) :
    magnitudeBits point den = scale <<< 52 + mantissa := by
  obtain ⟨hnear, hnarrow⟩ := near_of_inInterval hden h
  have hlow := hnear.low
  have hhigh := hnear.high
  obtain ⟨hmantissa, hleading, -⟩ := hmagnitude
  rw [Nat.one_shiftLeft] at hmantissa hleading
  have hstep : 0 < 2 ^ scale * den := Nat.mul_pos (Nat.two_pow_pos scale) hden
  -- the point is below the next power of two
  have hbelow : point / den < 2 ^ (53 + scale) := by
    rw [Nat.div_lt_iff_lt_mul hden, Nat.pow_add, Nat.mul_assoc]
    have := Nat.mul_le_mul_right (2 ^ scale * den) (Nat.succ_le_of_lt hmantissa)
    rw [Nat.succ_mul] at this
    omega
  have hsame : Nat.log2 (point / den) - 52 = scale →
      magnitudeBits point den = scale <<< 52 + mantissa := by
    intro hscale
    rw [magnitudeBits_of_log2 hscale, roundDiv_even_eq hstep hnear]
  rcases Nat.lt_or_ge (point / den) (2 ^ (52 + scale)) with hunder | hover
  case inr =>
    rw [← Nat.one_shiftLeft] at hover hbelow
    exact hsame (log2_sub_of_le_of_lt hover hbelow)
  rcases Nat.eq_zero_or_pos scale with rfl | hpos
  · -- there is no lesser scale
    apply hsame
    have : Nat.log2 (point / den) ≤ 52 := by
      rcases Nat.eq_zero_or_pos (point / den) with hzero | hpoint
      · simp [hzero]
      · exact Nat.lt_succ_iff.1 ((Nat.log2_lt hpoint.ne').2 hbelow)
    omega
  · -- a point below the power of two rounds up to it
    obtain ⟨less, rfl⟩ : ∃ less, scale = less + 1 := ⟨scale - 1, by omega⟩
    rw [Nat.div_lt_iff_lt_mul hden, Nat.pow_add, Nat.mul_assoc] at hunder
    have hleading : 2 ^ 52 ≤ mantissa := hleading.resolve_left (by omega)
    have hmantissa : mantissa = 2 ^ 52 := by
      by_contra hne
      have := Nat.mul_le_mul_right (2 ^ (less + 1) * den)
        (show 2 ^ 52 + 1 ≤ mantissa by omega)
      omega
    have hnarrow := hnarrow (by simp [narrowBelow, hmantissa])
    have hhalf : 2 ^ (less + 1) * den = 2 * (2 ^ less * den) := by ring
    rw [hmantissa, hhalf] at hnarrow
    rw [hhalf] at hunder
    have hfloor : 2 ^ (52 + less) ≤ point / den := by
      rw [Nat.le_div_iff_mul_le hden, Nat.pow_add, Nat.mul_assoc]
      omega
    have hceil : point / den < 2 ^ (53 + less) := by
      rw [Nat.div_lt_iff_lt_mul hden, Nat.pow_add, Nat.mul_assoc]
      omega
    have hround : roundDiv .even point (2 ^ less * den) = 2 ^ 53 :=
      roundDiv_even_eq (Nat.mul_pos (Nat.two_pow_pos less) hden)
        ⟨by omega, by omega, fun hodd => by omega⟩
    rw [← Nat.one_shiftLeft] at hfloor hceil
    rw [magnitudeBits_of_log2 (log2_sub_of_le_of_lt hfloor hceil), hround, hmantissa,
      Nat.shiftLeft_eq, Nat.shiftLeft_eq]
    omega

/-! ### The shortest decimal -/

/-- A decimal lies in the rounding interval of a magnitude. -/
def Decimal.Rounds (decimal : Decimal) (mantissa scale : Nat) : Prop :=
  inInterval mantissa scale (decimal.digits * (unitsPerOne * Nat.pow 10 decimal.exponent.toNat))
    (Nat.pow 10 (-decimal.exponent).toNat) = true

lemma inInterval_self (mantissa scale : Nat) {den : Nat} (hden : 0 < den) :
    inInterval mantissa scale (mantissa <<< scale * den) den = true := by
  have hstep : ∀ n, 0 < n → 0 < n <<< scale * den := fun n hn => by
    rw [Nat.shiftLeft_eq]
    exact Nat.mul_pos (Nat.mul_pos hn (Nat.two_pow_pos scale)) hden
  have hbelow : 0 < (if narrowBelow mantissa scale then 1 else 2) <<< scale * den :=
    hstep _ (by split <;> decide)
  have habove := hstep 2 (by decide)
  unfold inInterval
  dsimp only
  rw [Nat.mul_assoc]
  split
  case isTrue =>
    rw [Bool.and_eq_true, decide_eq_true_iff, decide_eq_true_iff]
    omega
  case isFalse hodd =>
    have hmiddle := hstep mantissa (by omega)
    rw [Bool.and_eq_true, decide_eq_true_iff, decide_eq_true_iff]
    omega

/-- The decimals of `10 ^ -n` hold every count of units of `2 ^ -n`. -/
lemma inInterval_exact (mantissa scale n : Nat) :
    inInterval mantissa scale (mantissa <<< scale * Nat.pow 5 n * (1 <<< n * Nat.pow 10 0))
      (Nat.pow 10 n) = true := by
  have hten : Nat.pow 5 n * (1 <<< n * Nat.pow 10 0) = Nat.pow 10 n := by
    show 5 ^ n * (1 <<< n * 10 ^ 0) = 10 ^ n
    rw [Nat.one_shiftLeft, pow_zero, mul_one, ← Nat.mul_pow]
  rw [Nat.mul_assoc, hten]
  exact inInterval_self mantissa scale (Nat.pow_pos (by decide))

lemma exactDecimal_rounds (mantissa scale : Nat) :
    (exactDecimal mantissa scale).Rounds mantissa scale := by
  have hwhole : (exactDecimal mantissa scale).exponent.toNat = 0 := rfl
  have hplaces : (-(exactDecimal mantissa scale).exponent).toNat = 1074 := rfl
  rw [Decimal.Rounds, hwhole, hplaces, exactDecimal, unitsPerOne]
  generalize 1074 = n
  exact inInterval_exact mantissa scale n

/-- A quotient rounds to its floor or to the next number. -/
lemma roundDiv_eq_or (tie : Tie) (num den : Nat) :
    roundDiv tie num den = num / den ∨ roundDiv tie num den = num / den + 1 := by
  unfold roundDiv
  dsimp only
  split
  · exact Or.inl rfl
  split
  · exact Or.inr rfl
  cases tie with
  | up => exact Or.inr rfl
  | even => dsimp only; omega

lemma onGrid_rounds {tie : Tie} {mantissa scale digits : Nat} {exponent : Int}
    (h : onGrid tie mantissa scale exponent = some digits) :
    (Decimal.mk digits exponent).Rounds mantissa scale := by
  unfold onGrid at h
  dsimp only at h
  split at h
  case h_1 hbelow habove =>
    obtain rfl := Option.some.inj h
    rcases roundDiv_eq_or tie (mantissa <<< scale * Nat.pow 10 (-exponent).toNat)
      (unitsPerOne * Nat.pow 10 exponent.toNat) with hround | hround
    · rw [hround]
      exact hbelow
    · rw [hround]
      exact habove
  case h_2 hbelow _ =>
    obtain rfl := Option.some.inj h
    exact hbelow
  case h_3 _ habove =>
    obtain rfl := Option.some.inj h
    exact habove
  case h_4 => cases h

lemma searchGrids_rounds (tie : Tie) (mantissa scale grids : Nat) (exponent : Int) :
    (searchGrids tie mantissa scale grids exponent).Rounds mantissa scale := by
  induction grids generalizing exponent with
  | zero => exact exactDecimal_rounds mantissa scale
  | succ grids ih =>
    rw [searchGrids]
    split
    case h_1 digits hgrid => exact onGrid_rounds hgrid
    case h_2 => exact ih (exponent - 1)

lemma shortest_rounds (tie : Tie) (mantissa scale : Nat) :
    (shortest tie mantissa scale).Rounds mantissa scale :=
  searchGrids_rounds tie mantissa scale _ _

/-! ### Reading -/

/-- A number is below the power of ten with as many zeros as the number has digits. -/
lemma lt_pow_length (n : Nat) : n < 10 ^ (Nat.toDigits 10 n).length :=
  (Nat.length_toDigits_le_iff (by decide) Nat.length_toDigits_pos).1 le_rfl

lemma pow_length_le {n : Nat} (h : n ≠ 0) : 10 ^ ((Nat.toDigits 10 n).length - 1) ≤ n := by
  by_contra hlt
  rcases Nat.eq_zero_or_pos ((Nat.toDigits 10 n).length - 1) with hzero | hpos
  · rw [hzero] at hlt
    omega
  · have := (Nat.length_toDigits_le_iff (b := 10) (n := n) (by decide) hpos).2 (by omega)
    omega

section Size

variable {decimal : Decimal} {mantissa scale places : Nat}

/-- A decimal that rounds to a magnitude is at least half a unit and at most a unit beyond the
greatest mantissa. -/
lemma Decimal.Rounds.bounds (h : decimal.Rounds mantissa scale)
    (hmagnitude : IsMagnitude mantissa scale) (hpos : mantissa ≠ 0) :
    10 ^ (-decimal.exponent).toNat ≤
        2 * (decimal.digits * (unitsPerOne * 10 ^ decimal.exponent.toNat)) ∧
      decimal.digits * (unitsPerOne * 10 ^ decimal.exponent.toNat) ≤
        2 ^ (53 + scale) * 10 ^ (-decimal.exponent).toNat := by
  have hden : 0 < 10 ^ (-decimal.exponent).toNat := Nat.pow_pos (by decide)
  obtain ⟨hnear, -⟩ := near_of_inInterval hden h
  have hlow := hnear.low
  have hhigh := hnear.high
  constructor
  · have hstep : 10 ^ (-decimal.exponent).toNat ≤ 2 ^ scale * 10 ^ (-decimal.exponent).toNat :=
      Nat.le_mul_of_pos_left _ (Nat.two_pow_pos scale)
    have hunit := Nat.le_mul_of_pos_left (2 ^ scale * 10 ^ (-decimal.exponent).toNat)
      (Nat.pos_of_ne_zero hpos)
    refine hstep.trans ?_
    show _ ≤ 2 * (decimal.digits * (unitsPerOne * Nat.pow 10 decimal.exponent.toNat))
    omega
  · have hmantissa := hmagnitude.high
    rw [Nat.one_shiftLeft] at hmantissa
    have hbeyond := Nat.mul_le_mul_right (2 ^ scale * 10 ^ (-decimal.exponent).toNat)
      (Nat.succ_le_of_lt hmantissa)
    rw [Nat.succ_mul] at hbeyond
    rw [Nat.pow_add, Nat.mul_assoc]
    show decimal.digits * (unitsPerOne * Nat.pow 10 decimal.exponent.toNat) ≤ _
    omega

lemma Decimal.Rounds.digits_ne (h : decimal.Rounds mantissa scale)
    (hmagnitude : IsMagnitude mantissa scale) (hpos : mantissa ≠ 0) : decimal.digits ≠ 0 := by
  intro hzero
  have hlow := (h.bounds hmagnitude hpos).1
  rw [hzero, Nat.zero_mul] at hlow
  exact absurd hlow (Nat.pow_pos (by decide)).not_ge

/-- The leading digit of a decimal that rounds to a magnitude is no further behind the point than
that of half a unit. -/
lemma Decimal.Rounds.neg_lt_size (h : decimal.Rounds mantissa scale)
    (hmagnitude : IsMagnitude mantissa scale) (hpos : mantissa ≠ 0)
    (hplaces : 2 * unitsPerOne < 10 ^ places) :
    -(places : Int) < (Nat.toDigits 10 decimal.digits).length + decimal.exponent := by
  by_contra hsmall
  have hlow := (h.bounds hmagnitude hpos).1
  have hwhole : decimal.exponent.toNat = 0 := by omega
  have hmany : (Nat.toDigits 10 decimal.digits).length + places ≤ (-decimal.exponent).toNat := by
    omega
  rw [hwhole, Nat.pow_zero, Nat.mul_one] at hlow
  have hunits := Nat.mul_lt_mul'' (lt_pow_length decimal.digits) hplaces
  have hpower := Nat.pow_le_pow_right (n := 10) (by decide) hmany
  rw [Nat.pow_add] at hpower
  have hswap : decimal.digits * (2 * unitsPerOne) = 2 * (decimal.digits * unitsPerOne) := by ring
  omega

/-- ... and no further before the point than that of the greatest number with its scale. -/
lemma Decimal.Rounds.size_le (h : decimal.Rounds mantissa scale)
    (hmagnitude : IsMagnitude mantissa scale) (hpos : mantissa ≠ 0)
    (hplaces : 2 ^ (53 + scale) < 10 ^ places * unitsPerOne) :
    (Nat.toDigits 10 decimal.digits).length + decimal.exponent ≤ places := by
  by_contra hbig
  have hhigh := (h.bounds hmagnitude hpos).2
  have hmany : places + (-decimal.exponent).toNat ≤
      (Nat.toDigits 10 decimal.digits).length - 1 + decimal.exponent.toNat := by omega
  have hpower := Nat.pow_le_pow_right (n := 10) (by decide) hmany
  rw [Nat.pow_add, Nat.pow_add] at hpower
  have hden : 0 < 10 ^ (-decimal.exponent).toNat := Nat.pow_pos (by decide)
  refine absurd hhigh (not_le.2 ?_)
  calc 2 ^ (53 + scale) * 10 ^ (-decimal.exponent).toNat
      < 10 ^ places * unitsPerOne * 10 ^ (-decimal.exponent).toNat :=
        Nat.mul_lt_mul_of_pos_right hplaces hden
    _ = 10 ^ places * 10 ^ (-decimal.exponent).toNat * unitsPerOne := by ring
    _ ≤ 10 ^ ((Nat.toDigits 10 decimal.digits).length - 1) * 10 ^ decimal.exponent.toNat *
          unitsPerOne := Nat.mul_le_mul_right _ hpower
    _ ≤ decimal.digits * 10 ^ decimal.exponent.toNat * unitsPerOne :=
        Nat.mul_le_mul_right _ (Nat.mul_le_mul_right _
          (pow_length_le (h.digits_ne hmagnitude hpos)))
    _ = decimal.digits * (unitsPerOne * 10 ^ decimal.exponent.toNat) := by ring

lemma two_mul_unitsPerOne_lt : 2 * unitsPerOne < 10 ^ 330 := by decide +kernel

lemma two_pow_lt_unitsPerOne (h : scale ≤ 2045) :
    2 ^ (53 + scale) < 10 ^ 310 * unitsPerOne := by
  have hgreatest : 2 ^ 2098 < 10 ^ 310 * unitsPerOne := by decide +kernel
  exact lt_of_le_of_lt (Nat.pow_le_pow_right (by decide) (by omega)) hgreatest

/-- **A decimal in the rounding interval of a float reads as that float.** -/
theorem ofDecimal_of_rounds (negative : Bool) (h : decimal.Rounds mantissa scale)
    (hmagnitude : IsMagnitude mantissa scale) (hpos : mantissa ≠ 0) :
    ofDecimal negative decimal.digits decimal.exponent =
      ofMagnitudeBits negative (scale <<< 52 + mantissa) := by
  have hdigits := h.digits_ne hmagnitude hpos
  have hleast := h.neg_lt_size hmagnitude hpos two_mul_unitsPerOne_lt
  have hgreatest := h.size_le hmagnitude hpos (two_pow_lt_unitsPerOne hmagnitude.bounded)
  unfold ofDecimal
  dsimp only
  rw [if_neg (not_or.2 ⟨hdigits, by omega⟩), if_neg (by omega), ofRatio,
    ← magnitudeBits_of_inInterval hmagnitude (Nat.pow_pos (by decide)) h]
  rw [Nat.mul_assoc, Nat.mul_comm (Nat.pow 10 _) unitsPerOne]
  rfl

end Size

end RenderLayout.Number
