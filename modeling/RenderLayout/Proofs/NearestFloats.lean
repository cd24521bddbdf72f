import RenderLayout.Proofs.RoundedNumbers

/-!
Floats without a sign, as the counts of units that are nearest to a quotient.

The float that a quotient is rounded to is at most half a step away from it, and no float is closer.
So a larger quotient is not rounded to a smaller float. The counts of floats are in the order of the
floats.
-/

namespace RenderLayout.Number

open Float.Model Float.Model.UnpackedFloat

/-- How far two counts are apart. -/
def gap (m n : Nat) : Nat := (m - n) + (n - m)

/-- The float with this many units is nearest to a quotient. -/
def Nearest (units num den : Nat) : Prop :=
  Counts (ofMagnitudeBits false (magnitudeBits num den)) units

variable {x y : Float} {num den num' den' units units' mantissa scale : Nat}

/-! ### Counts -/

lemma counts_of_isMagnitude (h : IsMagnitude mantissa scale) :
    Counts (ofMagnitudeBits false (scale <<< 52 + mantissa)) (mantissa <<< scale) :=
  ⟨mantissa, scale, ofFloat_ofMagnitudeBits false h, rfl⟩

lemma Counts.exists_isMagnitude (h : Counts x units) : ∃ mantissa scale,
    IsMagnitude mantissa scale ∧ mantissa <<< scale = units ∧
      ofMagnitudeBits false (scale <<< 52 + mantissa) = x := by
  obtain ⟨mantissa, scale, hx, rfl⟩ := h
  obtain ⟨hmagnitude, hback⟩ := isMagnitude_of_ofFloat hx
  exact ⟨mantissa, scale, hmagnitude, rfl, hback⟩

/-- A count is rounded to its float. -/
lemma Counts.eq_nearest (h : Counts x units) (hden : 0 < den) :
    ofMagnitudeBits false (magnitudeBits (units * den) den) = x := by
  obtain ⟨mantissa, scale, ⟨high, low, -⟩, rfl, hback⟩ := h.exists_isMagnitude
  have hbits := magnitudeBits_mul_mul (mantissa <<< scale) 1 hden
  rw [Nat.one_mul] at hbits
  rw [hbits, magnitudeBits_mantissa high low, hback]

lemma Counts.nearest (h : Counts x units) (hden : 0 < den) : Nearest units (units * den) den := by
  rw [Nearest, h.eq_nearest hden]
  exact h

lemma Counts.eq (hx : Counts x units) (hy : Counts y units) : x = y := by
  rw [← hx.eq_nearest Nat.one_pos, hy.eq_nearest Nat.one_pos]

/-! ### The step of a float -/

/-- A point that is near to a mantissa is in the rounding interval of its float. -/
lemma inInterval_of_near (h : Near mantissa num (2 ^ scale * den))
    (hnarrow : narrowBelow mantissa scale = true →
      4 * (mantissa * (2 ^ scale * den)) ≤ 4 * num + 2 ^ scale * den) :
    inInterval mantissa scale num den = true := by
  obtain ⟨hlow, hhigh, hodd⟩ := h
  have hmiddle : 4 * (mantissa * 2 ^ scale) * den = 4 * (mantissa * (2 ^ scale * den)) := by ring
  have htwo : 2 * 2 ^ scale * den = 2 * (2 ^ scale * den) := by ring
  unfold inInterval
  simp only [Nat.shiftLeft_eq]
  rw [hmiddle, htwo]
  by_cases hn : narrowBelow mantissa scale = true
  · have heven : mantissa % 2 = 0 := by
      unfold narrowBelow at hn
      rw [Bool.and_eq_true, beq_iff_eq] at hn
      rw [hn.1]
      rfl
    have hlow := hnarrow hn
    rw [if_pos hn, if_pos heven, Nat.one_mul, Bool.and_eq_true, decide_eq_true_iff,
      decide_eq_true_iff]
    omega
  · rw [if_neg hn, htwo]
    split
    case isTrue =>
      rw [Bool.and_eq_true, decide_eq_true_iff, decide_eq_true_iff]
      omega
    case isFalse hne =>
      obtain ⟨hlow, hhigh⟩ := hodd (Nat.mod_two_ne_zero.1 hne)
      have hstep : 2 ^ scale * den ≤ mantissa * (2 ^ scale * den) :=
        Nat.le_mul_of_pos_left _ (by omega)
      rw [Bool.and_eq_true, decide_eq_true_iff, decide_eq_true_iff]
      omega

/-- What a quotient is rounded to is near to it. -/
lemma near_roundDiv (num : Nat) {step : Nat} (hstep : 0 < step) :
    Near (roundDiv .even num step) num step := by
  obtain ⟨hlow, hhigh⟩ := roundDiv_near .even num hstep
  refine ⟨hlow, hhigh, fun hodd => ?_⟩
  have hsum : step * (num / step) + num % step = num := Nat.div_add_mod num step
  have hlt := Nat.mod_lt num hstep
  have hwhole : num / step * step = step * (num / step) := Nat.mul_comm _ _
  have hnext : (num / step + 1) * step = step * (num / step) + step := by ring
  unfold roundDiv at hodd ⊢
  dsimp only at hodd ⊢
  split_ifs at hodd ⊢ with hbelow habove
  · omega
  · omega
  · -- a half goes to the even neighbour
    omega

/-- Bits that are those of a count are not too large for it. -/
lemma Counts.of_bits (h : Counts (ofMagnitudeBits false (scale <<< 52 + mantissa)) units)
    (high : mantissa < 2 ^ 53) (low : scale = 0 ∨ 2 ^ 52 ≤ mantissa) :
    IsMagnitude mantissa scale ∧ mantissa <<< scale = units := by
  by_cases hbounded : scale ≤ 2045
  · have hmagnitude : IsMagnitude mantissa scale := ⟨high, low, hbounded⟩
    exact ⟨hmagnitude, (counts_of_isMagnitude hmagnitude).unique h⟩
  · have hmin : min (scale <<< 52 + mantissa) infiniteBits = infiniteBits := by
      rw [show infiniteBits = 2047 * 2 ^ 52 from rfl, Nat.shiftLeft_eq]
      omega
    unfold ofMagnitudeBits at h
    rw [hmin] at h
    obtain ⟨_, _, hx, -⟩ := h
    cases hx

/-- A mantissa that is rounded up to a power of two is carried into the scale. -/
lemma bits_carried (scale : Nat) : scale <<< 52 + 2 ^ 53 = (scale + 1) <<< 52 + 2 ^ 52 := by
  rw [Nat.shiftLeft_eq, Nat.shiftLeft_eq]
  omega

/-- The float that is nearest to a quotient has the quotient in its rounding interval. -/
lemma Nearest.exists_near (h : Nearest units num den) (hden : 0 < den) :
    ∃ mantissa scale, IsMagnitude mantissa scale ∧ mantissa <<< scale = units ∧
      Near mantissa num (2 ^ scale * den) ∧ (narrowBelow mantissa scale = true →
        4 * (mantissa * (2 ^ scale * den)) ≤ 4 * num + 2 ^ scale * den) := by
  obtain ⟨scale, high, low⟩ := exists_scale num den
  have hstep : 0 < 2 ^ scale * den := Nat.mul_pos (Nat.two_pow_pos scale) hden
  have hnear := near_roundDiv num hstep
  have hround := roundDiv_eq_or .even num (2 ^ scale * den)
  have hfloor : scale = 0 ∨ 2 ^ 52 * (2 ^ scale * den) ≤ num :=
    low.imp_right (Nat.le_div_iff_mul_le hstep).1
  rw [Nearest, magnitudeBits_of_quotient high low] at h
  generalize roundDiv .even num (2 ^ scale * den) = rounded at hnear hround h
  rcases Nat.lt_or_eq_of_le (show rounded ≤ 2 ^ 53 by omega) with hlt | rfl
  · obtain ⟨hmagnitude, hunits⟩ := h.of_bits hlt (by omega)
    refine ⟨rounded, scale, hmagnitude, hunits, hnear, fun hnarrow => ?_⟩
    unfold narrowBelow at hnarrow
    rw [Bool.and_eq_true, beq_iff_eq, bne_iff_ne] at hnarrow
    rw [hnarrow.1, Nat.one_shiftLeft]
    have := hfloor.resolve_left hnarrow.2
    omega
  · rw [bits_carried] at h
    obtain ⟨hmagnitude, hunits⟩ := h.of_bits (by decide) (Or.inr le_rfl)
    have hdouble : 2 ^ (scale + 1) * den = 2 * (2 ^ scale * den) := by ring
    obtain ⟨hlow, hhigh, -⟩ := hnear
    refine ⟨2 ^ 52, scale + 1, hmagnitude, hunits, ?_, fun _ => ?_⟩
    · rw [hdouble]
      exact ⟨by omega, by omega, fun hodd => absurd hodd (by decide)⟩
    · rw [hdouble]
      omega

lemma nearest_of_near (h : IsMagnitude mantissa scale) (hden : 0 < den)
    (hnear : Near mantissa num (2 ^ scale * den))
    (hnarrow : narrowBelow mantissa scale = true →
      4 * (mantissa * (2 ^ scale * den)) ≤ 4 * num + 2 ^ scale * den) :
    Nearest (mantissa <<< scale) num den := by
  rw [Nearest, magnitudeBits_of_inInterval h hden (inInterval_of_near hnear hnarrow)]
  exact counts_of_isMagnitude h

/-! ### No float is closer -/

lemma gap_roundDiv_le (tie : Tie) (num n : Nat) {step : Nat} (hstep : 0 < step) :
    gap (roundDiv tie num step * step) num ≤ gap (n * step) num := by
  obtain ⟨hlow, hhigh⟩ := roundDiv_near tie num hstep
  generalize roundDiv tie num step = rounded at hlow hhigh
  unfold gap
  rcases lt_trichotomy n rounded with hlt | rfl | hgt
  · have := Nat.mul_le_mul_right step (Nat.succ_le_of_lt hlt)
    rw [Nat.succ_mul] at this
    omega
  · exact le_rfl
  · have := Nat.mul_le_mul_right step (Nat.succ_le_of_lt hgt)
    rw [Nat.succ_mul] at this
    omega

/-- A count is a multiple of a step, or below all mantissas with a leading bit. -/
lemma Counts.on_grid (h : Counts x units) (scale : Nat) :
    (∃ n, units = n * 2 ^ scale) ∨ 0 < scale ∧ units < 2 ^ 52 * 2 ^ scale := by
  obtain ⟨mantissa, own, ⟨high, -, -⟩, rfl, -⟩ := h.exists_isMagnitude
  rw [Nat.one_shiftLeft] at high
  rw [Nat.shiftLeft_eq]
  rcases Nat.lt_or_ge own scale with hlt | hge
  · obtain ⟨less, rfl⟩ := Nat.exists_eq_add_of_lt hlt
    refine Or.inr ⟨by omega, ?_⟩
    calc mantissa * 2 ^ own < 2 ^ 53 * 2 ^ own :=
          Nat.mul_lt_mul_of_pos_right high (Nat.two_pow_pos own)
      _ = 2 ^ 52 * 2 ^ (own + 1) := by ring
      _ ≤ 2 ^ 52 * 2 ^ (own + less + 1) :=
          Nat.mul_le_mul_left _ (Nat.pow_le_pow_right (by decide) (by omega))
  · obtain ⟨more, rfl⟩ := Nat.exists_eq_add_of_le hge
    exact Or.inl ⟨mantissa * 2 ^ more, by ring⟩

/-- The nearest float in steps of the quotient's scale. -/
lemma Nearest.units_eq (h : Nearest units num den) (high : num / (2 ^ scale * den) < 2 ^ 53)
    (low : scale = 0 ∨ 2 ^ 52 ≤ num / (2 ^ scale * den)) :
    units = roundDiv .even num (2 ^ scale * den) * 2 ^ scale := by
  have hround := roundDiv_eq_or .even num (2 ^ scale * den)
  rw [Nearest, magnitudeBits_of_quotient high low] at h
  generalize roundDiv .even num (2 ^ scale * den) = rounded at hround h
  rcases Nat.lt_or_eq_of_le (show rounded ≤ 2 ^ 53 by omega) with hlt | rfl
  · obtain ⟨-, rfl⟩ := h.of_bits hlt (by omega)
    exact Nat.shiftLeft_eq ..
  · rw [bits_carried] at h
    obtain ⟨-, rfl⟩ := h.of_bits (by decide) (Or.inr le_rfl)
    rw [Nat.shiftLeft_eq]
    ring

/-- No count is closer to a quotient than what the quotient is rounded to in steps of its scale. -/
lemma gap_rounded_le (low : scale = 0 ∨ 2 ^ 52 ≤ num / (2 ^ scale * den)) (hden : 0 < den)
    (hx : Counts x units) :
    gap (roundDiv .even num (2 ^ scale * den) * (2 ^ scale * den)) num ≤ gap (units * den) num := by
  have hstep : 0 < 2 ^ scale * den := Nat.mul_pos (Nat.two_pow_pos scale) hden
  rcases hx.on_grid scale with ⟨n, rfl⟩ | ⟨hpos, hlt⟩
  · rw [Nat.mul_assoc]
    exact gap_roundDiv_le .even num n hstep
  · -- a float with a smaller step is below the power of two that the quotient is above
    have hfloor := (Nat.le_div_iff_mul_le hstep).1 (low.resolve_left hpos.ne')
    refine (gap_roundDiv_le .even num (2 ^ 52) hstep).trans ?_
    have := Nat.mul_lt_mul_of_pos_right hlt hden
    rw [Nat.mul_assoc] at this
    unfold gap
    omega

/-- **No float is closer** to a quotient than the one that it is rounded to. -/
theorem Nearest.gap_le (h : Nearest units num den) (hden : 0 < den) (hx : Counts x units') :
    gap (units * den) num ≤ gap (units' * den) num := by
  obtain ⟨scale, high, low⟩ := exists_scale num den
  rw [h.units_eq high low, Nat.mul_assoc]
  exact gap_rounded_le low hden hx

/-- A larger quotient is not rounded to a smaller float. -/
theorem Nearest.le (h : Nearest units num den) (h' : Nearest units' num' den') (hden : 0 < den)
    (hden' : 0 < den') (hle : num * den' ≤ num' * den) : units ≤ units' := by
  by_contra hgt
  have hnear := h.gap_le hden h'
  have hnear' := h'.gap_le hden' h
  have hless := Nat.mul_lt_mul_of_pos_right (Nat.lt_of_not_le hgt) hden
  have hless' := Nat.mul_lt_mul_of_pos_right (Nat.lt_of_not_le hgt) hden'
  unfold gap at hnear hnear'
  -- both quotients are halfway between the floats
  have hmiddle : (units * den + units' * den) * den' ≤ 2 * num * den' :=
    Nat.mul_le_mul_right den' (by omega)
  have hmiddle' : 2 * num' * den ≤ (units * den' + units' * den') * den :=
    Nat.mul_le_mul_right den (by omega)
  have hsame : num * den' = num' * den := by linarith
  rw [Nearest, magnitudeBits_congr hden hden' hsame] at h
  exact hgt (h.unique h').le

/-! ### The order of floats -/

lemma lt_iff_compare : x < y ↔ x.toModel.unpack.compare y.toModel.unpack = some .lt := by
  show Float.lt x y = true ↔ _
  unfold Float.lt
  rw [decide_eq_true_iff]
  show (x.toModel.unpack.compare y.toModel.unpack == some .lt) = true ↔ _
  exact beq_iff_eq

lemma le_iff_compare : x ≤ y ↔
    (x.toModel.unpack.compare y.toModel.unpack).any Ordering.isLE = true := by
  show Float.le x y = true ↔ _
  unfold Float.le
  rw [decide_eq_true_iff]
  exact Iff.rfl

lemma IsMagnitude.shiftLeft_lt {m n s t : Nat} (hm : IsMagnitude m s) (hn : IsMagnitude n t)
    (h : s < t) : m <<< s < n <<< t := by
  obtain ⟨less, rfl⟩ := Nat.exists_eq_add_of_lt h
  have hlow := hn.low.resolve_left (by omega)
  have hhigh := hm.high
  rw [Nat.one_shiftLeft] at hlow hhigh
  rw [Nat.shiftLeft_eq, Nat.shiftLeft_eq]
  calc m * 2 ^ s < 2 ^ 53 * 2 ^ s := Nat.mul_lt_mul_of_pos_right hhigh (Nat.two_pow_pos s)
    _ = 2 ^ 52 * 2 ^ (s + 1) := by ring
    _ ≤ n * 2 ^ (s + less + 1) :=
        Nat.mul_le_mul hlow (Nat.pow_le_pow_right (by decide) (by omega))

/-- Of two mantissas the one with the greater scale counts more. -/
lemma IsMagnitude.compare_eq {m n s t : Nat} (hm : IsMagnitude m s) (hn : IsMagnitude n t) :
    (compare ((s : Int) - 1074) (t - 1074)).then (compare m n) =
      compare (m <<< s) (n <<< t) := by
  rcases lt_trichotomy s t with hlt | rfl | hgt
  · rw [compare_lt_iff_lt.2 (show (s : Int) - 1074 < t - 1074 by omega),
      compare_lt_iff_lt.2 (hm.shiftLeft_lt hn hlt)]
    rfl
  · have hstep := Nat.two_pow_pos s
    rw [compare_eq_iff_eq.2 rfl, Nat.shiftLeft_eq, Nat.shiftLeft_eq]
    rcases lt_trichotomy m n with hlt | rfl | hgt
    · rw [compare_lt_iff_lt.2 hlt, compare_lt_iff_lt.2 (Nat.mul_lt_mul_of_pos_right hlt hstep)]
      rfl
    · rw [compare_eq_iff_eq.2 rfl, compare_eq_iff_eq.2 rfl]
      rfl
    · rw [compare_gt_iff_gt.2 hgt, compare_gt_iff_gt.2 (Nat.mul_lt_mul_of_pos_right hgt hstep)]
      rfl
  · rw [compare_gt_iff_gt.2 (show (t : Int) - 1074 < s - 1074 by omega),
      compare_gt_iff_gt.2 (hn.shiftLeft_lt hm hgt)]
    rfl

/-- Floats without a sign compare as their counts. -/
lemma Counts.compare_eq (hx : Counts x units) (hy : Counts y units') :
    x.toModel.unpack.compare y.toModel.unpack = some (compare units units') := by
  obtain ⟨m, s, hx, rfl⟩ := hx
  obtain ⟨n, t, hy, rfl⟩ := hy
  obtain ⟨hm, -⟩ := isMagnitude_of_ofFloat hx
  obtain ⟨hn, -⟩ := isMagnitude_of_ofFloat hy
  have hpositive {k : Nat} (scale : Nat) (hk : 0 < k) : 0 < k <<< scale := by
    rw [Nat.shiftLeft_eq]
    exact Nat.mul_pos hk (Nat.two_pow_pos scale)
  rcases unpack_of_ofFloat hx with ⟨rfl, hxu⟩ | ⟨hmpos, hxu⟩ <;>
    rcases unpack_of_ofFloat hy with ⟨rfl, hyu⟩ | ⟨hnpos, hyu⟩ <;>
    rw [hxu, hyu]
  · rw [Nat.zero_shiftLeft, Nat.zero_shiftLeft]
    rfl
  · rw [Nat.zero_shiftLeft, compare_lt_iff_lt.2 (hpositive t hnpos)]
    rfl
  · rw [Nat.zero_shiftLeft, compare_gt_iff_gt.2 (hpositive s hmpos)]
    rfl
  · exact congrArg some (hm.compare_eq hn)

theorem Counts.lt_iff (hx : Counts x units) (hy : Counts y units') : x < y ↔ units < units' := by
  rw [lt_iff_compare, hx.compare_eq hy, Option.some.injEq, compare_lt_iff_lt]

theorem Counts.le_iff (hx : Counts x units) (hy : Counts y units') : x ≤ y ↔ units ≤ units' := by
  rw [le_iff_compare, hx.compare_eq hy, Option.any_some, Nat.isLE_compare]

end RenderLayout.Number
