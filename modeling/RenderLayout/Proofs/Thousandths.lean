import RenderLayout.Proofs.LayoutNumbers
import RenderLayout.Proofs.NearestFloats

/-!
Numbers that are rounded to thousandths twice.

Rounding to three places scales a number, takes the nearest whole count of thousandths and scales
back, and each step rounds to a float. The three places of a rounded number, read as a decimal, are
that number again. To round it again leaves it as it is below `2 ^ 42`, where a float is less than a
quarter of a thousandth off its count, and again from `2 ^ 52` thousandths on, where the thousandfold
is whole. Between the two the thousandfold has halves, and rounding may go on to the next thousandth.
-/

namespace RenderLayout.Number

variable {x y : Float} {num den whole units many mantissa scale : Nat}

/-! ### Whole floats -/

lemma roundDiv_up_eq {n : Nat} (hlow : 2 * (n * den) ≤ 2 * num + den)
    (hhigh : 2 * num < 2 * (n * den) + den) : roundDiv .up num den = n := by
  have hden : 0 < den := by omega
  have hlow' := (roundDiv_near .up num hden).1
  have hhigh' := lt_roundDiv_up num hden
  generalize roundDiv .up num den = rounded at hlow' hhigh'
  rcases lt_trichotomy rounded n with hlt | rfl | hgt
  · have := Nat.mul_le_mul_right den (Nat.succ_le_of_lt hlt)
    rw [Nat.succ_mul] at this
    omega
  · rfl
  · have := Nat.mul_le_mul_right den (Nat.succ_le_of_lt hgt)
    rw [Nat.succ_mul] at this
    omega

/-! ### Finite floats -/

/-- The step between the greatest floats. -/
def greatestStep : Nat := 2 ^ 2045

lemma greatestStep_eq_two_pow : ∃ most, most = 2045 ∧ greatestStep = 2 ^ most := ⟨_, rfl, rfl⟩

lemma two_pow_le_greatestStep (h : scale ≤ 2045) : 2 ^ scale ≤ greatestStep := by
  obtain ⟨most, hmost, hstep⟩ := greatestStep_eq_two_pow
  rw [hstep]
  exact Nat.pow_le_pow_right (by decide) (h.trans hmost.ge)

lemma greatestStep_le_two_pow (h : 2045 ≤ scale) : greatestStep ≤ 2 ^ scale := by
  obtain ⟨most, hmost, hstep⟩ := greatestStep_eq_two_pow
  rw [hstep]
  exact Nat.pow_le_pow_right (by decide) (hmost.trans_le h)

lemma greatestStep_pos : 0 < greatestStep :=
  (Nat.two_pow_pos 0).trans_le (two_pow_le_greatestStep (Nat.zero_le _))

lemma Counts.add_le (h : Counts x units) : units + greatestStep ≤ 2 ^ 53 * greatestStep := by
  obtain ⟨mantissa, scale, ⟨high, -, bounded⟩, rfl, -⟩ := h.exists_isMagnitude
  rw [Nat.one_shiftLeft] at high
  rw [Nat.shiftLeft_eq]
  have hstep := Nat.mul_le_mul_left mantissa (two_pow_le_greatestStep bounded)
  have hmost := Nat.mul_le_mul_right greatestStep (Nat.succ_le_of_lt high)
  rw [Nat.succ_mul] at hmost
  omega

lemma exists_counts_power (h : scale ≤ 2045) : ∃ x, Counts x (2 ^ 52 * 2 ^ scale) := by
  rw [← Nat.shiftLeft_eq]
  exact ⟨_, counts_of_isMagnitude ⟨by decide, Or.inr le_rfl, h⟩⟩

/-- A quotient that is not rounded to a finite float is at least halfway from each count to the next
power of two. -/
lemma exists_nearest_or (num : Nat) (hden : 0 < den) : (∃ nearest, Nearest nearest num den) ∨
    ∀ x units, Counts x units → 2 ^ 53 * greatestStep * den + units * den ≤ 2 * num := by
  obtain ⟨scale, high, low⟩ := exists_scale num den
  have hround := roundDiv_eq_or .even num (2 ^ scale * den)
  have hcloser := fun x units (hx : Counts x units) => gap_rounded_le low hden hx
  unfold Nearest
  rw [magnitudeBits_of_quotient high low]
  generalize roundDiv .even num (2 ^ scale * den) = rounded at hround hcloser
  by_cases hbounded : rounded * 2 ^ scale < 2 ^ 53 * greatestStep
  · left
    rcases Nat.lt_or_eq_of_le (show rounded ≤ 2 ^ 53 by omega) with hlt | rfl
    · refine ⟨_, counts_of_isMagnitude ⟨hlt, by omega, ?_⟩⟩
      by_contra hnot
      obtain ⟨less, rfl⟩ : ∃ less, scale = less + 1 := ⟨scale - 1, by omega⟩
      have hstep := greatestStep_le_two_pow (show 2045 ≤ less by omega)
      have hleading := low.resolve_left (by omega)
      have := Nat.mul_le_mul (show 2 ^ 52 ≤ rounded by omega) hstep
      rw [Nat.pow_succ, ← Nat.mul_assoc] at hbounded
      omega
    · rw [bits_carried]
      refine ⟨_, counts_of_isMagnitude ⟨by decide, Or.inr le_rfl, ?_⟩⟩
      by_contra hnot
      exact hbounded.not_ge (Nat.mul_le_mul_left _ (greatestStep_le_two_pow (by omega)))
  · right
    intro x units hx
    have hlarge := Nat.mul_le_mul_right den (Nat.le_of_not_lt hbounded)
    have hless := Nat.mul_le_mul_right den hx.add_le
    have hgap := hcloser x units hx
    rw [← Nat.mul_assoc] at hgap
    rw [Nat.add_mul] at hless
    have hpos : 0 < greatestStep * den := Nat.mul_pos greatestStep_pos hden
    unfold gap at hgap
    omega

/-- A quotient below a count is rounded to a finite float. -/
lemma exists_nearest (hden : 0 < den) (h : Counts x units) (hle : num ≤ units * den) :
    ∃ nearest, Nearest nearest num den := by
  refine (exists_nearest_or num hden).resolve_right fun hlarge => ?_
  have hless := Nat.mul_le_mul_right den h.add_le
  have hpos : 0 < greatestStep * den := Nat.mul_pos greatestStep_pos hden
  have := hlarge x units h
  rw [Nat.add_mul] at hless
  omega

/-- A count that has few leading bits is rounded to itself. -/
lemma Nearest.eq_of_few {n : Nat} (h : Nearest units (n * 2 ^ scale) 1) (hn : n ≤ 2 ^ 53) :
    units = n * 2 ^ scale := by
  obtain ⟨own, high, low⟩ := exists_scale (n * 2 ^ scale) 1
  have hstep : 0 < 2 ^ own := Nat.two_pow_pos own
  rw [h.units_eq high low, Nat.mul_one]
  obtain ⟨k, hk⟩ : ∃ k, n * 2 ^ scale = k * 2 ^ own := by
    rcases Nat.lt_or_ge scale own with hlt | hge
    · obtain ⟨less, rfl⟩ := Nat.exists_eq_add_of_lt hlt
      have hfloor := (Nat.le_div_iff_mul_le (by simp)).1 (low.resolve_left (by omega))
      have hle : 2 ^ 53 * 2 ^ less * 2 ^ scale ≤ n * 2 ^ scale := by
        calc 2 ^ 53 * 2 ^ less * 2 ^ scale = 2 ^ 52 * (2 ^ (scale + less + 1) * 1) := by ring
          _ ≤ n * 2 ^ scale := hfloor
      have hle := Nat.le_of_mul_le_mul_right hle (Nat.two_pow_pos scale)
      obtain rfl : less = 0 := by
        by_contra hne
        have : 2 ^ 1 ≤ 2 ^ less := Nat.pow_le_pow_right (by decide) (by omega)
        omega
      exact ⟨2 ^ 52, by rw [show n = 2 ^ 53 by omega]; ring⟩
    · obtain ⟨more, rfl⟩ := Nat.exists_eq_add_of_le hge
      exact ⟨n * 2 ^ more, by ring⟩
  rw [hk, roundDiv_mul_right _ _ hstep]

/-- A float is rounded to a whole number without a further rounding. -/
lemma Counts.counts_roundHalfAway (h : Counts x many) :
    Counts (Number.roundHalfAway x) (roundDiv .up many unitsPerOne * unitsPerOne) := by
  obtain ⟨least, hleast, hunit⟩ : ∃ least, least = 1074 ∧ unitsPerOne = 2 ^ least :=
    ⟨_, rfl, unitsPerOne_eq⟩
  have hpos := unitsPerOne_pos
  rw [h.roundHalfAway]
  generalize unitsPerOne = one at hunit hpos
  subst hunit
  rcases h.on_grid least with ⟨n, rfl⟩ | ⟨-, hlt⟩
  · rw [roundDiv_mul_right _ _ hpos]
    have hself := h.nearest Nat.one_pos
    rwa [Nat.mul_one] at hself
  · have hfew : roundDiv .up many (2 ^ least) ≤ 2 ^ 52 := by
      have hnear := (roundDiv_near .up many hpos).1
      by_contra hmore
      have := Nat.mul_le_mul_right (2 ^ least) (Nat.succ_le_of_lt (Nat.lt_of_not_le hmore))
      rw [Nat.succ_mul] at this
      omega
    obtain ⟨y, hy⟩ := exists_counts_power (show least ≤ 2045 by omega)
    have hle : roundDiv .up many (2 ^ least) * 2 ^ least ≤ 2 ^ 52 * 2 ^ least * 1 := by
      rw [Nat.mul_one]
      exact Nat.mul_le_mul_right _ hfew
    obtain ⟨nearest, hnearest⟩ := exists_nearest Nat.one_pos hy hle
    obtain rfl := hnearest.eq_of_few (hfew.trans (show 2 ^ 52 ≤ 2 ^ 53 by decide))
    exact hnearest

/-! ### Rounded numbers -/

/-- A float with so many units is nearest to a count of thousandths that is a float itself. -/
structure Thousandths (whole units : Nat) : Prop where
  counts : ∃ x, Counts x (whole * unitsPerOne)
  nearest : Nearest units (whole * unitsPerOne) 1000

/-- What a number is rounded to if its thousandfold is finite. -/
lemma Counts.thousandths_roundTo (h : Counts x units) (hmany : Nearest many (units * 1000) 1) :
    ∃ rounded, Thousandths (roundDiv .up many unitsPerOne) rounded ∧
      Counts (roundTo 3 x) rounded := by
  unfold Number.roundTo
  dsimp only
  rw [h.thousandfold]
  have hwhole := Counts.counts_roundHalfAway hmany
  rw [hwhole.thousandth]
  obtain ⟨rounded, hrounded⟩ := exists_nearest (by decide : 0 < 1000) hwhole
    (Nat.le_mul_of_pos_right _ (by decide))
  exact ⟨rounded, ⟨⟨_, hwhole⟩, hrounded⟩, hrounded⟩

/-- What a number is rounded to. -/
lemma Counts.roundTo_cases (h : Counts x units) : roundTo 3 x = positiveInfinity ∨
    ∃ many rounded, Nearest many (units * 1000) 1 ∧
      Thousandths (roundDiv .up many unitsPerOne) rounded ∧ Counts (roundTo 3 x) rounded := by
  rcases nearest_counts (units * 1000) Nat.one_pos with hinfinite | ⟨many, hmany, -⟩
  · left
    unfold Number.roundTo
    dsimp only
    rw [h.thousandfold, hinfinite, infinity_roundHalfAway, infinity_thousandth]
  · obtain ⟨rounded, hrounded⟩ := h.thousandths_roundTo hmany
    exact Or.inr ⟨many, rounded, hmany, hrounded⟩

lemma unitsPerOne_eq_mul {n : Nat} (h : n ≤ 1074) :
    ∃ power, power + n = 1074 ∧ unitsPerOne = 2 ^ n * 2 ^ power := by
  obtain ⟨least, hleast, hunit⟩ : ∃ least, least = 1074 ∧ unitsPerOne = 2 ^ least :=
    ⟨_, rfl, unitsPerOne_eq⟩
  obtain ⟨power, rfl⟩ : ∃ power, least = n + power := ⟨least - n, by omega⟩
  exact ⟨power, by omega, by rw [hunit, Nat.pow_add]⟩

lemma counts_one : Counts 1 unitsPerOne := by
  refine ⟨2 ^ 52, 1022, by decide +kernel, ?_⟩
  show (2 ^ 52) <<< 1022 = 1 <<< (52 + 1022)
  generalize 1022 = scale
  rw [Nat.shiftLeft_eq, Nat.one_shiftLeft, Nat.pow_add]

/-- Above a power of two, all that is near to a mantissa is rounded to its float. -/
lemma IsMagnitude.nearest (h : IsMagnitude mantissa scale) (hleading : mantissa ≠ 2 ^ 52)
    (hden : 0 < den) (hnear : Near mantissa num (2 ^ scale * den)) :
    Nearest (mantissa <<< scale) num den := by
  refine nearest_of_near h hden hnear fun hnarrow => ?_
  unfold narrowBelow at hnarrow
  rw [Bool.and_eq_true, beq_iff_eq, Nat.one_shiftLeft] at hnarrow
  exact absurd hnarrow.1 hleading

/-- The places of a rounded number are nearest to it. -/
theorem Thousandths.nearest_places (h : Thousandths whole units) :
    Nearest units (roundDiv .even (units * 1000) unitsPerOne * unitsPerOne) 1000 := by
  have hone := unitsPerOne_pos
  obtain ⟨power, hpower, hunit⟩ :=
    unitsPerOne_eq_mul (show 10 ≤ 1074 by decide)
  obtain ⟨-, hnearest⟩ := h
  obtain ⟨mantissa, scale, hmagnitude, hunits, hnear, -⟩ := hnearest.exists_near (by decide)
  have hthousand : mantissa * (2 ^ scale * 1000) = units * 1000 := by
    rw [← hunits, Nat.shiftLeft_eq, Nat.mul_assoc]
  rcases Nat.lt_or_ge power scale with hlarge | hsmall
  · obtain ⟨more, rfl⟩ := Nat.exists_eq_add_of_lt hlarge
    by_cases hleading : mantissa = 2 ^ 52
    · -- the thousandfold is whole
      have hwhole : units * 1000 = 2 ^ 43 * 2 ^ more * 1000 * unitsPerOne := by
        rw [← hthousand, hleading, hunit]
        ring
      rw [hwhole, roundDiv_mul_right _ _ hone, ← hwhole]
      exact Counts.nearest hnearest (by decide)
    · -- the places are closer than half a step of the float
      obtain ⟨hlow, hhigh⟩ := roundDiv_near .even (units * 1000) hone
      have hstep : 2 * 2 ^ power ≤ 2 ^ (power + more + 1) := by
        rw [← Nat.pow_add_one']
        exact Nat.pow_le_pow_right (by decide) (by omega)
      rw [← hunits]
      refine hmagnitude.nearest hleading (by decide) ⟨?_, ?_, fun _ => ⟨?_, ?_⟩⟩
      all_goals
        rw [hthousand, hunits]
        omega
  · -- the count of thousandths is closer than half a thousandth
    have hstep : 2 ^ scale ≤ 2 ^ power := Nat.pow_le_pow_right (by decide) hsmall
    obtain ⟨hlow, hhigh, -⟩ := hnear
    rw [hthousand] at hlow hhigh
    have hcount : roundDiv .even (units * 1000) unitsPerOne = whole :=
      roundDiv_even_eq hone ⟨by omega, by omega, fun _ => ⟨by omega, by omega⟩⟩
    rwa [hcount]

/-! ### Rounding again -/

lemma roundTo_eq_self (hy : Counts y units) (hmany : Nearest many (units * 1000) 1)
    (hback : Nearest units (roundDiv .up many unitsPerOne * unitsPerOne) 1000) :
    roundTo 3 y = y := by
  unfold roundTo
  dsimp only
  rw [hy.thousandfold, (Counts.counts_roundHalfAway hmany).thousandth]
  exact Counts.eq hback hy

lemma Thousandths.roundTo_of_lt (h : Thousandths whole units) (hy : Counts y units)
    (hsmall : units < 2 ^ 42 * unitsPerOne) : roundTo 3 y = y := by
  have hone := unitsPerOne_pos
  obtain ⟨power, hpower, hunit⟩ :=
    unitsPerOne_eq_mul (show 10 ≤ 1074 by decide)
  obtain ⟨⟨x, hx⟩, hnearest⟩ := h
  obtain ⟨mantissa, scale, hmagnitude, hunits, hnear, -⟩ := hnearest.exists_near (by decide)
  have hthousand : mantissa * (2 ^ scale * 1000) = units * 1000 := by
    rw [← hunits, Nat.shiftLeft_eq, Nat.mul_assoc]
  -- halves of a thousandth are multiples of the step
  have hstep : 2 * 2 ^ scale ≤ 2 ^ power := by
    by_contra hcoarse
    rw [← Nat.pow_succ'] at hcoarse
    have hscale : power ≤ scale := by
      by_contra hfine
      exact hcoarse (Nat.pow_le_pow_right (by decide) (by omega))
    have hlow := hmagnitude.low.resolve_left (by omega)
    rw [Nat.one_shiftLeft] at hlow
    rw [Nat.shiftLeft_eq] at hunits
    have := Nat.mul_le_mul hlow (Nat.pow_le_pow_right (n := 2) (by decide) hscale)
    omega
  obtain ⟨bound, hbound⟩ := exists_counts_power (show power + 10 ≤ 2045 by omega)
  have hle : units * 1000 ≤ 2 ^ 52 * 2 ^ (power + 10) * 1 := by
    rw [Nat.pow_add]
    omega
  obtain ⟨many, hmany⟩ := exists_nearest Nat.one_pos hbound hle
  obtain ⟨hlow, hhigh, -⟩ := hnear
  rw [hthousand] at hlow hhigh
  have hgap := hmany.gap_le Nat.one_pos hx
  unfold gap at hgap
  have hwhole : roundDiv .up many unitsPerOne = whole := roundDiv_up_eq (by omega) (by omega)
  exact roundTo_eq_self hy hmany (hwhole ▸ hnearest)

/-- The thousandfold of a rounded number is finite. -/
lemma Thousandths.exists_thousandfold (h : Thousandths whole units) :
    ∃ many, Nearest many (units * 1000) 1 := by
  refine (exists_nearest_or _ Nat.one_pos).resolve_right fun hbeyond => ?_
  obtain ⟨power, hpower, hgreatest⟩ : ∃ power, power = 2036 ∧ greatestStep = 512 * 2 ^ power := by
    obtain ⟨most, hmost, hstep⟩ := greatestStep_eq_two_pow
    obtain ⟨power, rfl⟩ : ∃ power, most = 9 + power := ⟨most - 9, by omega⟩
    exact ⟨power, by omega, by rw [hstep, Nat.pow_add]⟩
  obtain ⟨⟨x, hx⟩, hnearest⟩ := h
  have hbeyond := hbeyond x _ hx
  have hmost := hx.add_le
  obtain ⟨mantissa, scale, hmagnitude, hunits, ⟨hlow, hhigh, -⟩, -⟩ :=
    hnearest.exists_near (by decide)
  have hthousand : mantissa * (2 ^ scale * 1000) = units * 1000 := by
    rw [← hunits, Nat.shiftLeft_eq, Nat.mul_assoc]
  rw [hthousand] at hlow hhigh
  have hpositive := Nat.two_pow_pos power
  rcases lt_trichotomy scale power with hless | rfl | hmore
  · have hstep : 2 * 2 ^ scale ≤ 2 ^ power := by
      rw [← Nat.pow_succ']
      exact Nat.pow_le_pow_right (by decide) hless
    omega
  · -- a thousandfold that is so close to the power of two is above it
    have hleast : 4611686018427387404 * 2 ^ scale ≤ 1000 * mantissa * 2 ^ scale := by
      rw [Nat.mul_comm 1000, Nat.mul_assoc, Nat.mul_comm 1000, hthousand]
      omega
    have hleast := Nat.le_of_mul_le_mul_right hleast hpositive
    have := Nat.mul_le_mul_right (2 ^ scale * 1000)
      (show 4611686018427388 ≤ mantissa by omega)
    omega
  · have hstep : 2 * 2 ^ power ≤ 2 ^ scale := by
      rw [← Nat.pow_succ']
      exact Nat.pow_le_pow_right (by decide) hmore
    have hleading := hmagnitude.low.resolve_left (by omega)
    rw [Nat.one_shiftLeft] at hleading
    have := Nat.mul_le_mul_right (2 ^ scale * 1000) hleading
    omega

lemma Thousandths.roundTo_of_le (h : Thousandths whole units) (hy : Counts y units)
    (hlarge : 2 ^ 52 * unitsPerOne ≤ units * 1000) : roundTo 3 y = y := by
  obtain ⟨many, hmany⟩ := h.exists_thousandfold
  obtain ⟨⟨x, hx⟩, hnearest⟩ := h
  refine roundTo_eq_self hy hmany ?_
  have hwhole : roundDiv .up many unitsPerOne * unitsPerOne = many := by
    obtain ⟨least, hleast, hunit⟩ : ∃ least, least = 1074 ∧ unitsPerOne = 2 ^ least :=
      ⟨_, rfl, unitsPerOne_eq⟩
    have hpos := unitsPerOne_pos
    rw [hunit] at hlarge hpos ⊢
    rcases Counts.on_grid hmany least with ⟨n, rfl⟩ | ⟨-, hless⟩
    · rw [roundDiv_mul_right _ _ hpos]
    · obtain ⟨bound, hpower⟩ := exists_counts_power (show least ≤ 2045 by omega)
      have := (hpower.nearest Nat.one_pos).le hmany Nat.one_pos Nat.one_pos (by omega)
      omega
  rw [hwhole]
  obtain ⟨mantissa, scale, hmagnitude, hunits, ⟨hlow, hhigh, hodd⟩, -⟩ :=
    hnearest.exists_near (by decide)
  have hthousand : mantissa * (2 ^ scale * 1000) = units * 1000 := by
    rw [← hunits, Nat.shiftLeft_eq, Nat.mul_assoc]
  rw [hthousand] at hlow hhigh hodd
  by_cases hleading : mantissa = 2 ^ 52
  · have hfew : units * 1000 = 1000 * 2 ^ (52 + scale) := by
      rw [← hthousand, hleading, Nat.pow_add]
      ring
    rw [hfew] at hmany
    rw [hmany.eq_of_few (by decide), ← hfew]
    exact hy.nearest (by decide)
  · have hgap := hmany.gap_le Nat.one_pos hx
    unfold gap at hgap
    rw [← hunits]
    refine hmagnitude.nearest hleading (by decide) ⟨?_, ?_, fun h => ?_⟩
    all_goals rw [hthousand]
    · omega
    · omega
    · have := hodd h
      omega

/-- **A rounded number stays as it is** when it is rounded again, where halves of a thousandth are
exact or the thousandfold is whole. -/
theorem Thousandths.steady (h : Thousandths whole units) (hy : Counts y units)
    (hsize : units < 2 ^ 42 * unitsPerOne ∨ 2 ^ 52 * unitsPerOne ≤ units * 1000) :
    roundTo 3 y = y :=
  hsize.elim (h.roundTo_of_lt hy) (h.roundTo_of_le hy)

end RenderLayout.Number
