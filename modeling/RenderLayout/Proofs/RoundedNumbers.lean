import RenderLayout.Proofs.FloatArithmetic

/-!
Numbers rounded to three places.

A float differs by little from the exact count that it is nearest to, unless the count is small, and
a number is at most doubled when it is rounded to a whole number other than zero. So what a number
is rounded to is of the size of the number, if it is neither zero nor infinite, and numbers of which
one is ten times the other stay apart.
-/

namespace RenderLayout.Number

def positiveZero : Float := ofMagnitudeBits false 0

def positiveInfinity : Float := ofMagnitudeBits false infiniteBits

/-- A finite float without a sign is a count of units. -/
def Counts (x : Float) (units : Nat) : Prop :=
  ∃ mantissa scale, Binary.ofFloat x = .finite false mantissa scale ∧ mantissa <<< scale = units

/-- A count and a quotient differ by an eighth of either at most. -/
def WithinEighth (units num den : Nat) : Prop :=
  8 * num ≤ 9 * (units * den) ∧ 8 * (units * den) ≤ 9 * num

variable {x : Float} {num den units : Nat}

/-! ### Nearest floats -/

lemma Counts.unique {units' : Nat} (h : Counts x units) (h' : Counts x units') :
    units = units' := by
  obtain ⟨mantissa, scale, hx, rfl⟩ := h
  obtain ⟨mantissa', scale', hx', rfl⟩ := h'
  obtain ⟨-, rfl, rfl⟩ := Binary.finite.inj (hx.symm.trans hx')
  rfl

lemma counts_zero (den : Nat) : Counts (ofMagnitudeBits false (magnitudeBits 0 den)) 0 := by
  rw [magnitudeBits_zero]
  exact ⟨0, 0, rfl, rfl⟩

lemma Counts.eq_positiveZero (h : Counts x 0) : x = positiveZero := by
  obtain ⟨mantissa, scale, hx, hunits⟩ := h
  obtain ⟨⟨-, low, -⟩, rfl⟩ := isMagnitude_of_ofFloat hx
  rw [Nat.shiftLeft_eq, Nat.mul_eq_zero] at hunits
  obtain rfl : mantissa = 0 := hunits.resolve_right (Nat.two_pow_pos scale).ne'
  obtain rfl : scale = 0 := low.resolve_right (by decide)
  rfl

/-- A quotient is rounded by a half at most. -/
lemma roundDiv_near (tie : Tie) (num : Nat) {den : Nat} (hden : 0 < den) :
    2 * (roundDiv tie num den * den) ≤ 2 * num + den ∧
      2 * num ≤ 2 * (roundDiv tie num den * den) + den := by
  have hsum : den * (num / den) + num % den = num := Nat.div_add_mod num den
  have hlt := Nat.mod_lt num hden
  have hsame : num / den * den = den * (num / den) := Nat.mul_comm _ _
  have hnext : (num / den + 1) * den = den * (num / den) + den := by ring
  unfold roundDiv
  dsimp only
  split_ifs with hbelow habove
  · omega
  · omega
  · cases tie with
    | up => dsimp only; omega
    | even =>
      dsimp only
      rcases Nat.mod_two_eq_zero_or_one (num / den) with hparity | hparity
      · rw [hparity, Nat.add_zero]
        omega
      · rw [hparity]
        omega

/-- A quotient that lies halfway goes up. -/
lemma lt_roundDiv_up (num : Nat) {den : Nat} (hden : 0 < den) :
    2 * num < 2 * (roundDiv .up num den * den) + den := by
  have hsum : den * (num / den) + num % den = num := Nat.div_add_mod num den
  have hlt := Nat.mod_lt num hden
  have hsame : num / den * den = den * (num / den) := Nat.mul_comm _ _
  have hnext : (num / den + 1) * den = den * (num / den) + den := by ring
  unfold roundDiv
  dsimp only
  split_ifs <;> omega

/-- The bits of a mantissa that is too large for a float are those of infinity. -/
lemma ofMagnitudeBits_of_mantissa {mantissa scale : Nat} (high : mantissa < 2 ^ 53)
    (low : scale = 0 ∨ 2 ^ 52 ≤ mantissa) :
    ofMagnitudeBits false (scale <<< 52 + mantissa) = positiveInfinity ∨
      Counts (ofMagnitudeBits false (scale <<< 52 + mantissa)) (mantissa <<< scale) := by
  by_cases hbounded : scale ≤ 2045
  · exact Or.inr ⟨mantissa, scale, ofFloat_ofMagnitudeBits false ⟨high, low, hbounded⟩, rfl⟩
  · left
    have hmin : min (scale <<< 52 + mantissa) infiniteBits = min infiniteBits infiniteBits := by
      rw [show infiniteBits = 2047 * 2 ^ 52 from rfl, Nat.shiftLeft_eq]
      omega
    unfold positiveInfinity ofMagnitudeBits
    rw [hmin]

/-- The float nearest to a quotient is infinite or a count, and the count is within an eighth of the
quotient if either is beyond all mantissas. -/
lemma nearest_counts (num : Nat) (hden : 0 < den) :
    ofMagnitudeBits false (magnitudeBits num den) = positiveInfinity ∨
      ∃ units, Counts (ofMagnitudeBits false (magnitudeBits num den)) units ∧
        (2 ^ 53 ≤ units ∨ 2 ^ 53 * den ≤ num → WithinEighth units num den) := by
  obtain ⟨scale, high, low⟩ := exists_scale num den
  have hstep : 0 < 2 ^ scale * den := Nat.mul_pos (Nat.two_pow_pos scale) hden
  rw [magnitudeBits_of_quotient high low]
  have hnear := roundDiv_near .even num hstep
  have hround := roundDiv_eq_or .even num (2 ^ scale * den)
  generalize roundDiv .even num (2 ^ scale * den) = rounded at hnear hround
  -- the mantissa that is rounded to a power of two is carried into the scale
  have hcounts : ofMagnitudeBits false (scale <<< 52 + rounded) = positiveInfinity ∨
      Counts (ofMagnitudeBits false (scale <<< 52 + rounded)) (rounded * 2 ^ scale) := by
    rw [← Nat.shiftLeft_eq rounded]
    rcases Nat.lt_or_eq_of_le (show rounded ≤ 2 ^ 53 by omega) with hlt | rfl
    · exact ofMagnitudeBits_of_mantissa hlt (by omega)
    · have hbits : scale <<< 52 + 2 ^ 53 = (scale + 1) <<< 52 + 2 ^ 52 := by
        rw [Nat.shiftLeft_eq, Nat.shiftLeft_eq]
        omega
      have hunits : (2 ^ 53) <<< scale = (2 ^ 52) <<< (scale + 1) := by
        rw [Nat.shiftLeft_eq, Nat.shiftLeft_eq]
        ring
      rw [hbits, hunits]
      exact ofMagnitudeBits_of_mantissa (by decide) (Or.inr le_rfl)
  refine hcounts.imp_right fun hcounts => ⟨_, hcounts, fun hlarge => ?_⟩
  have hmany : 2 ^ 52 * (2 ^ scale * den) ≤ num := by
    rcases low with rfl | low
    · rcases hlarge with hlarge | hlarge
      · rw [pow_zero, Nat.mul_one] at hlarge
        have := Nat.mul_le_mul_right den hlarge
        simp only [pow_zero, Nat.one_mul] at hnear ⊢
        omega
      · rw [pow_zero, Nat.one_mul]
        omega
    · exact (Nat.le_div_iff_mul_le hstep).1 low
  unfold WithinEighth
  rw [Nat.mul_assoc]
  omega

/-! ### Decimals beyond all floats -/

lemma magnitudeBits_eq_zero (h : 2 * num < den) : magnitudeBits num den = 0 := by
  have hsmall : num < den := by omega
  have hround : roundDiv .even num (2 ^ 0 * den) = 0 := by
    unfold roundDiv
    rw [pow_zero, Nat.one_mul, Nat.mod_eq_of_lt hsmall, if_pos h, Nat.div_eq_of_lt hsmall]
  have hscale : Nat.log2 (num / den) - 52 = 0 := by
    rw [Nat.div_eq_of_lt hsmall]
    rfl
  rw [magnitudeBits_of_log2 hscale, hround]
  rfl

lemma infiniteBits_le {bits : Nat} (hbits : 2098 ≤ bits) (hden : 0 < den)
    (h : 2 ^ bits * den ≤ num) : infiniteBits ≤ magnitudeBits num den := by
  obtain ⟨scale, high, low⟩ := exists_scale num den
  have hscale : 2046 ≤ scale := by
    rw [Nat.div_lt_iff_lt_mul (Nat.mul_pos (Nat.two_pow_pos scale) hden), ← Nat.mul_assoc,
      ← Nat.pow_add] at high
    have hpower := Nat.lt_of_mul_lt_mul_right (h.trans_lt high)
    have hbits := (Nat.pow_lt_pow_iff_right (by decide)).1 hpower
    omega
  have hround := roundDiv_eq_or .even num (2 ^ scale * den)
  rw [magnitudeBits_of_quotient high low, show infiniteBits = 2047 * 2 ^ 52 from rfl,
    Nat.shiftLeft_eq]
  omega

/-- The bounds on the size of a decimal change nothing: beyond them the nearest float is zero or
infinite. -/
lemma ofDecimal_eq_ofRatio (negative : Bool) (digits : Nat) (exponent : Int) :
    ofDecimal negative digits exponent =
      ofRatio negative (digits * 10 ^ exponent.toNat) (10 ^ (-exponent).toNat) := by
  have hden : 0 < 10 ^ (-exponent).toNat := Nat.pow_pos (by decide)
  unfold ofDecimal ofRatio
  dsimp only
  split
  case isTrue hsmall =>
    rcases hsmall with rfl | hsmall
    · rw [Nat.zero_mul, Nat.zero_mul, magnitudeBits_zero]
    · obtain ⟨places, hplaces, hleast⟩ : ∃ places : Nat, 330 = places ∧
          2 * unitsPerOne < 10 ^ places := ⟨_, rfl, two_mul_unitsPerOne_lt⟩
      have hwhole : exponent.toNat = 0 := by omega
      have hmany : (Nat.toDigits 10 digits).length + places ≤ (-exponent).toNat := by omega
      have hpower := Nat.pow_le_pow_right (n := 10) (by decide) hmany
      rw [Nat.pow_add] at hpower
      rw [magnitudeBits_eq_zero]
      rw [hwhole, pow_zero, Nat.mul_one]
      calc 2 * (digits * unitsPerOne) = digits * (2 * unitsPerOne) := Nat.mul_left_comm ..
        _ < 10 ^ (Nat.toDigits 10 digits).length * 10 ^ places :=
            Nat.mul_lt_mul'' (lt_pow_length digits) hleast
        _ ≤ 10 ^ (-exponent).toNat := hpower
  case isFalse hsome =>
    obtain ⟨hdigits, -⟩ := not_or.1 hsome
    split
    case isTrue hlarge =>
      obtain ⟨bits, places, hbits, hplaces, hgreatest⟩ : ∃ bits places : Nat,
          53 + 2045 = bits ∧ 310 = places ∧ 2 ^ bits < 10 ^ places * unitsPerOne :=
        ⟨_, _, rfl, rfl, two_pow_lt_unitsPerOne le_rfl⟩
      have hmany : places + (-exponent).toNat ≤
          (Nat.toDigits 10 digits).length - 1 + exponent.toNat := by omega
      have hpower := Nat.pow_le_pow_right (n := 10) (by decide) hmany
      rw [Nat.pow_add, Nat.pow_add] at hpower
      have hinfinite : infiniteBits ≤
          magnitudeBits (digits * 10 ^ exponent.toNat * unitsPerOne) (10 ^ (-exponent).toNat) := by
        refine infiniteBits_le hbits.le hden ?_
        calc 2 ^ bits * 10 ^ (-exponent).toNat
            ≤ 10 ^ places * unitsPerOne * 10 ^ (-exponent).toNat :=
              Nat.mul_le_mul_right _ hgreatest.le
          _ = 10 ^ places * 10 ^ (-exponent).toNat * unitsPerOne := Nat.mul_right_comm ..
          _ ≤ 10 ^ ((Nat.toDigits 10 digits).length - 1) * 10 ^ exponent.toNat * unitsPerOne :=
              Nat.mul_le_mul_right _ hpower
          _ ≤ digits * 10 ^ exponent.toNat * unitsPerOne :=
              Nat.mul_le_mul_right _ (Nat.mul_le_mul_right _ (pow_length_le hdigits))
      unfold ofMagnitudeBits
      rw [Nat.min_self, Nat.min_eq_right hinfinite]
    case isFalse => rfl

/-! ### Three stages -/

lemma unitsPerOne_large : 2 ^ 70 ≤ unitsPerOne := by
  have hleast : 70 ≤ 1074 := by decide
  unfold unitsPerOne
  generalize 1074 = least at hleast ⊢
  rw [Nat.one_shiftLeft]
  exact Nat.pow_le_pow_right (by decide) hleast

lemma unitsPerOne_pos : 0 < unitsPerOne := (Nat.two_pow_pos 70).trans_le unitsPerOne_large

lemma ofFloat_powerOfTen_three :
    Binary.ofFloat (powerOfTen 3) = .finite false (1000 * 2 ^ 43) 1031 := rfl

lemma shiftLeft_thousand : (1000 * 2 ^ 43) <<< 1031 = 1000 * unitsPerOne := by
  show (1000 * 2 ^ 43) <<< 1031 = 1000 * 1 <<< (43 + 1031)
  generalize 1031 = scale
  rw [Nat.shiftLeft_eq, Nat.one_shiftLeft, Nat.pow_add, Nat.mul_assoc]

lemma Counts.thousandfold (h : Counts x units) :
    x * powerOfTen 3 = ofMagnitudeBits false (magnitudeBits (units * 1000) 1) := by
  obtain ⟨mantissa, scale, hx, rfl⟩ := h
  rw [mul_eq hx ofFloat_powerOfTen_three, shiftLeft_thousand, ← Nat.mul_assoc]
  exact congrArg (ofMagnitudeBits false) (magnitudeBits_congr unitsPerOne_pos (by decide) (by ring))

lemma Counts.roundHalfAway (h : Counts x units) :
    roundHalfAway x =
      ofMagnitudeBits false (magnitudeBits (roundDiv .up units unitsPerOne * unitsPerOne) 1) := by
  obtain ⟨mantissa, scale, hx, rfl⟩ := h
  unfold Number.roundHalfAway
  rw [hx]
  dsimp only
  split
  case isTrue hwhole =>
    obtain ⟨more, rfl⟩ := Nat.exists_eq_add_of_le hwhole
    obtain ⟨⟨high, low, -⟩, hback⟩ := isMagnitude_of_ofFloat hx
    have hunits : mantissa <<< (1074 + more) = mantissa * 2 ^ more * unitsPerOne := by
      unfold unitsPerOne
      generalize 1074 = least
      rw [Nat.shiftLeft_eq, Nat.one_shiftLeft, Nat.pow_add]
      ring
    rw [hunits, roundDiv_mul_right _ _ unitsPerOne_pos, ← hunits, magnitudeBits_mantissa high low,
      hback]
  case isFalse => rfl

lemma Counts.thousandth (h : Counts x units) :
    x / powerOfTen 3 = ofMagnitudeBits false (magnitudeBits units 1000) := by
  obtain ⟨mantissa, scale, hx, rfl⟩ := h
  rw [div_eq hx ofFloat_powerOfTen_three (by decide), shiftLeft_thousand]
  exact congrArg (ofMagnitudeBits false) (magnitudeBits_mul_mul _ _ unitsPerOne_pos)

lemma infinity_thousandfold : positiveInfinity * powerOfTen 3 = positiveInfinity := rfl

lemma infinity_roundHalfAway : roundHalfAway positiveInfinity = positiveInfinity := rfl

lemma infinity_thousandth : positiveInfinity / powerOfTen 3 = positiveInfinity := rfl

/-- **What a quotient is rounded to** is infinite or a count, and the count is zero or of the size
of the quotient. -/
theorem roundTo_counts (num : Nat) (hden : 0 < den) :
    roundTo 3 (ofMagnitudeBits false (magnitudeBits num den)) = positiveInfinity ∨
      ∃ units, Counts (roundTo 3 (ofMagnitudeBits false (magnitudeBits num den))) units ∧
        (units ≠ 0 → 2 * num ≤ 5 * (units * den) ∧ 2 * (units * den) ≤ 7 * num) := by
  unfold roundTo
  dsimp only
  rcases nearest_counts num hden with hinfinite | ⟨start, hstart, hstartNear⟩
  · rw [hinfinite, infinity_thousandfold, infinity_roundHalfAway, infinity_thousandth]
    exact Or.inl rfl
  rw [hstart.thousandfold]
  rcases nearest_counts (start * 1000) Nat.one_pos with hinfinite | ⟨many, hmany, hmanyNear⟩
  · rw [hinfinite, infinity_roundHalfAway, infinity_thousandth]
    exact Or.inl rfl
  have hunit := unitsPerOne_large
  have hhalf := @roundDiv_near .up many unitsPerOne (by omega)
  rw [hmany.roundHalfAway]
  generalize roundDiv .up many unitsPerOne = whole at hhalf
  rcases nearest_counts (whole * unitsPerOne) Nat.one_pos with
    hinfinite | ⟨round, hround, hroundNear⟩
  · rw [hinfinite, infinity_thousandth]
    exact Or.inl rfl
  rw [hround.thousandth]
  refine (nearest_counts round (by decide : 0 < 1000)).imp_right ?_
  rintro ⟨result, hresult, hresultNear⟩
  refine ⟨result, hresult, fun hne => ?_⟩
  have hwhole : unitsPerOne ≤ whole * unitsPerOne := by
    refine Nat.le_mul_of_pos_left _ (Nat.pos_of_ne_zero ?_)
    rintro rfl
    rw [Nat.zero_mul] at hround
    obtain rfl := hround.unique (counts_zero 1)
    exact hne (hresult.unique (counts_zero 1000))
  -- every stage has so many units that it is close to the next
  obtain ⟨hround₁, hround₂⟩ := hroundNear (Or.inr (by omega))
  obtain ⟨hresult₁, hresult₂⟩ := hresultNear (Or.inr (by omega))
  obtain ⟨hmany₁, hmany₂⟩ := hmanyNear (Or.inl (by omega))
  obtain ⟨hstart₁, hstart₂⟩ := hstartNear (Or.inl (by omega))
  have hlow : 7 * start ≤ 15 * result := by omega
  have hhigh : 7 * result ≤ 20 * start := by omega
  have hlow := Nat.mul_le_mul_right den hlow
  have hhigh := Nat.mul_le_mul_right den hhigh
  rw [Nat.mul_assoc, Nat.mul_assoc] at hlow hhigh
  omega

/-- **Numbers that are apart stay apart.** If one is at least ten times the other, they are not
rounded to the same number, unless it is zero or infinite. -/
theorem roundTo_eq_of_apart {num' den' : Nat} (hden : 0 < den) (hden' : 0 < den')
    (hapart : 10 * (num * den') ≤ num' * den)
    (heq : roundTo 3 (ofRatio false num den) = roundTo 3 (ofRatio false num' den')) :
    roundTo 3 (ofRatio false num den) = positiveZero ∨
      roundTo 3 (ofRatio false num den) = positiveInfinity := by
  unfold ofRatio at heq ⊢
  rcases roundTo_counts (num * unitsPerOne) hden with hinfinite | ⟨units, hunits, hsize⟩
  · exact Or.inr hinfinite
  rcases roundTo_counts (num' * unitsPerOne) hden' with hinfinite | ⟨units', hunits', hsize'⟩
  · exact Or.inr (heq.trans hinfinite)
  rw [← heq] at hunits'
  obtain rfl := hunits.unique hunits'
  rcases Nat.eq_zero_or_pos units with rfl | hpos
  · exact Or.inl hunits.eq_positiveZero
  exfalso
  obtain ⟨-, hhigh⟩ := hsize hpos.ne'
  obtain ⟨hlow, -⟩ := hsize' hpos.ne'
  have hhigh := Nat.mul_le_mul_right den' hhigh
  have hlow := Nat.mul_le_mul_right den hlow
  have hapart := Nat.mul_le_mul_right unitsPerOne hapart
  have hsome : 0 < units * den * den' := Nat.mul_pos (Nat.mul_pos hpos hden) hden'
  linarith

/-! ### Decimals -/

section Decimals

variable {digits : Nat} {exponent exponent' : Int}

lemma apart_of_lt (h : exponent < exponent') :
    10 * (digits * 10 ^ exponent.toNat * 10 ^ (-exponent').toNat) ≤
      digits * 10 ^ exponent'.toNat * 10 ^ (-exponent).toNat := by
  have hmany : exponent.toNat + (-exponent').toNat + 1 ≤
      exponent'.toNat + (-exponent).toNat := by omega
  have hpower := Nat.pow_le_pow_right (n := 10) (by decide) hmany
  calc 10 * (digits * 10 ^ exponent.toNat * 10 ^ (-exponent').toNat)
      = digits * 10 ^ (exponent.toNat + (-exponent').toNat + 1) := by ring
    _ ≤ digits * 10 ^ (exponent'.toNat + (-exponent).toNat) := Nat.mul_le_mul_left _ hpower
    _ = digits * 10 ^ exponent'.toNat * 10 ^ (-exponent).toNat := by ring

lemma roundTo_ofDecimal_of_lt (h : exponent < exponent')
    (heq : roundTo 3 (ofDecimal false digits exponent) =
      roundTo 3 (ofDecimal false digits exponent')) :
    roundTo 3 (ofDecimal false digits exponent) = positiveZero ∨
      roundTo 3 (ofDecimal false digits exponent) = positiveInfinity := by
  rw [ofDecimal_eq_ofRatio, ofDecimal_eq_ofRatio] at heq
  rw [ofDecimal_eq_ofRatio]
  exact roundTo_eq_of_apart (Nat.pow_pos (by decide)) (Nat.pow_pos (by decide)) (apart_of_lt h) heq

/-- **Digits with another exponent** are rounded to another number, unless both numbers become zero
or infinite. -/
theorem roundTo_ofDecimal_eq_iff :
    roundTo 3 (ofDecimal false digits exponent) = roundTo 3 (ofDecimal false digits exponent') ↔
      exponent = exponent' ∨
      (roundTo 3 (ofDecimal false digits exponent) = positiveZero ∧
        roundTo 3 (ofDecimal false digits exponent') = positiveZero) ∨
      (roundTo 3 (ofDecimal false digits exponent) = positiveInfinity ∧
        roundTo 3 (ofDecimal false digits exponent') = positiveInfinity) := by
  constructor
  · intro heq
    rcases lt_trichotomy exponent exponent' with hlt | hsame | hgt
    · rw [← heq, and_self, and_self]
      exact Or.inr (roundTo_ofDecimal_of_lt hlt heq)
    · exact Or.inl hsame
    · rw [heq, and_self, and_self]
      exact Or.inr (roundTo_ofDecimal_of_lt hgt heq.symm)
  · rintro (rfl | ⟨hzero, hzero'⟩ | ⟨hinfinite, hinfinite'⟩)
    · rfl
    · rw [hzero, hzero']
    · rw [hinfinite, hinfinite']

end Decimals

end RenderLayout.Number
