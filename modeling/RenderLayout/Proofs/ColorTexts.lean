import RenderLayout.Proofs.Numerals
import RenderLayout.Proofs.Thousandths
import RenderLayout.Style.Color

/-!
The text form of a color, read again.

A channel that was rounded is written in three places and reads as itself, if it is finite, and then
it is rounded once more. So the text form of a color that was read reads as the same color just if
its channels are finite and another rounding leaves them as they are. All channels up to one are
such.
-/

namespace RenderLayout

open Number Text

namespace Number

variable {x : Float} {whole units : Nat} {rest : List Char}

/-! ### Rounded decimals -/

/-- A number that was rounded to three places, without a sign. -/
def IsChannel (x : Float) : Prop :=
  x = positiveInfinity ∨ ∃ whole units, Thousandths whole units ∧ Counts x units

lemma isFinite_of_counts (h : Counts x units) : x.isFinite = true := by
  obtain ⟨mantissa, scale, hx, -⟩ := h
  by_contra hnot
  exact ofFloat_ne_finite hnot _ _ _ hx

lemma isFinite_positiveInfinity : positiveInfinity.isFinite = false := by decide +kernel

/-- A decimal is infinite or a count. -/
lemma Numeral.counts_value (n : Numeral) :
    n.value = positiveInfinity ∨ ∃ units, Counts n.value units := by
  have hden : 0 < 10 ^ (-(0 - (n.places : Int))).toNat := Nat.pow_pos (by decide)
  unfold Numeral.value Numeral.scaled
  rw [ofDecimal_eq_ofRatio]
  exact (nearest_counts _ hden).imp_right fun ⟨units, hunits, _⟩ => ⟨units, hunits⟩

lemma roundTo_infinity : roundTo 3 positiveInfinity = positiveInfinity := by
  unfold roundTo
  dsimp only
  rw [infinity_thousandfold, infinity_roundHalfAway, infinity_thousandth]

lemma Numeral.isChannel (n : Numeral) : IsChannel (roundTo 3 n.value) := by
  rcases n.counts_value with hinfinite | ⟨units, hunits⟩
  · rw [hinfinite, roundTo_infinity]
    exact Or.inl rfl
  · exact hunits.roundTo_cases.imp_right
      fun ⟨_, rounded, _, h, hrounded⟩ => ⟨_, rounded, h, hrounded⟩

/-! ### Three places -/

lemma fixed_infinity : fixed 3 positiveInfinity = ['i', 'n', 'f'] := by decide +kernel

/-- The numeral of a count of thousandths. -/
def placesNumeral (count : Nat) : Numeral where
  whole := digitsOf (count / 1000)
  decimals := some (padded 3 (count % 1000))
  whole_decimal := Numeral.isDecimal_of_areDigits (areDigits_digitsOf _)
  decimals_decimal :=
    Numeral.isDecimal_of_areDigits ((areDigits_zeros _).append (areDigits_digitsOf _))

lemma fixed_eq (h : Counts x units) :
    fixed 3 x = (placesNumeral (roundDiv .even (units * 1000) unitsPerOne)).text := by
  obtain ⟨mantissa, scale, hx, rfl⟩ := h
  unfold fixed
  rw [hx]
  rfl

lemma good_placesNumeral (count : Nat) : (placesNumeral count).Good where
  some_digit := by simp [Numeral.digits, placesNumeral, digitsOf, Nat.toDigits_ne_nil]
  ascii := (areDigits_digitsOf _).append ((areDigits_zeros _).append (areDigits_digitsOf _))

lemma ofDigits_places (count : Nat) : ofDigits (placesNumeral count).digits = count := by
  have hlength : (padded 3 (count % 1000)).length = 3 := length_padded (Nat.mod_lt _ (by decide))
  have hsum (s : List Char) : ofDigits (digitsOf (count / 1000) ++ s) =
      10 ^ s.length * ofDigits (digitsOf (count / 1000)) + ofDigits s := by
    show Nat.ofDigitChars 10 (_ ++ s) 0 = 10 ^ s.length * Nat.ofDigitChars 10 _ 0 + _
    rw [Nat.ofDigitChars_append, Nat.ofDigitChars_eq_ofDigitChars_zero]
    rfl
  show ofDigits (digitsOf (count / 1000) ++ padded 3 (count % 1000)) = count
  rw [hsum, hlength, padded, ofDigits_zeros_append, ofDigits_digitsOf, ofDigits_digitsOf]
  exact Nat.div_add_mod count 1000

lemma value_placesNumeral (count : Nat) :
    (placesNumeral count).value =
      ofMagnitudeBits false (magnitudeBits (count * unitsPerOne) 1000) := by
  have hplaces : (placesNumeral count).places = 3 := length_padded (Nat.mod_lt _ (by decide))
  unfold Numeral.value Numeral.scaled
  have hup : ((0 : Int) - (3 : Nat)).toNat = 0 := rfl
  have hdown : (-((0 : Int) - (3 : Nat))).toNat = 3 := rfl
  have hthousand : 10 ^ 3 = 1000 := rfl
  rw [ofDigits_places, hplaces, ofDecimal_eq_ofRatio, ofRatio, hup, hdown, pow_zero, Nat.mul_one,
    hthousand]

lemma ends_placesNumeral (count : Nat) (h : Stops isDecimal rest) :
    (placesNumeral count).Ends rest := ⟨h, nofun⟩

/-- The places of a rounded number read as the number. -/
lemma Thousandths.value_eq (h : Thousandths whole units) (hx : Counts x units) :
    (placesNumeral (roundDiv .even (units * 1000) unitsPerOne)).value = x := by
  rw [value_placesNumeral]
  exact Counts.eq h.nearest_places hx

/-! ### Rounding again -/

lemma counts_lowest : Counts 4398046511104 (2 ^ 42 * unitsPerOne) := by
  obtain ⟨power, hpower, hunit⟩ := unitsPerOne_eq_mul (show 10 ≤ 1074 by decide)
  refine ⟨2 ^ 52, power, by rw [show power = 1064 by omega]; decide +kernel, ?_⟩
  rw [Nat.shiftLeft_eq, hunit]
  ring

/-- The thousandfold of a number from here on is whole. -/
lemma exists_counts_coarse : ∃ coarse, Counts 4503599627370.496 coarse ∧
    ∀ x units, Counts x units → 2 ^ 42 * unitsPerOne ≤ units →
      (units < coarse ↔ units * 1000 < 2 ^ 52 * unitsPerOne) := by
  obtain ⟨power, hpower, hunit⟩ := unitsPerOne_eq_mul (show 10 ≤ 1074 by decide)
  refine ⟨4611686018427388 <<< power,
    ⟨_, power, by rw [show power = 1064 by omega]; decide +kernel, rfl⟩, ?_⟩
  intro x units hx hlow
  have hpositive := Nat.two_pow_pos power
  rw [Nat.shiftLeft_eq, hunit]
  rw [hunit] at hlow
  rcases hx.on_grid power with ⟨n, rfl⟩ | ⟨-, hless⟩
  · -- on the grid of the bound no float is between it and the exact quotient
    have hexact : n * 2 ^ power * 1000 < 2 ^ 52 * (2 ^ 10 * 2 ^ power) ↔ n * 1000 < 2 ^ 62 := by
      rw [Nat.mul_right_comm, ← Nat.mul_assoc, Nat.mul_lt_mul_right hpositive,
        show 2 ^ 52 * 2 ^ 10 = 2 ^ 62 from rfl]
    rw [hexact, Nat.mul_lt_mul_right hpositive]
    omega
  · omega

lemma IsChannel.roundTo_eq_iff (h : IsChannel x) : roundTo 3 x = x ↔
    (4398046511104 ≤ x → x < 4503599627370.496 → roundTo 3 x = x) := by
  refine ⟨fun heq _ _ => heq, fun hmiddle => ?_⟩
  rcases h with rfl | ⟨whole, units, hthousandths, hx⟩
  · exact roundTo_infinity
  · obtain ⟨coarse, hcoarse, hiff⟩ := exists_counts_coarse
    rw [counts_lowest.le_iff hx, hx.lt_iff hcoarse] at hmiddle
    by_cases hlow : units < 2 ^ 42 * unitsPerOne
    · exact hthousandths.steady hx (Or.inl hlow)
    · rw [hiff x units hx (Nat.le_of_not_lt hlow)] at hmiddle
      by_cases hhigh : units * 1000 < 2 ^ 52 * unitsPerOne
      · exact hmiddle (Nat.le_of_not_lt hlow) hhigh
      · exact hthousandths.steady hx (Or.inr (Nat.le_of_not_lt hhigh))

end Number

namespace Color

variable {x : Float} {mark rest : List Char} {c : Color} {t : String}

def channels (c : Color) : List Float := [c.red, c.green, c.blue, c.alpha]

/-! ### Channels -/

lemma exists_numeral_of_readChannel {s : List Char} (h : readChannel mark s = some (x, rest)) :
    ∃ n : Numeral, x = n.value := by
  unfold readChannel at h
  simp only [Option.bind_eq_bind, Option.bind_eq_some_iff, Option.pure_def, Option.some.injEq,
    Prod.mk.injEq] at h
  obtain ⟨behind, -, value, hvalue, rfl, -⟩ := h
  obtain ⟨n, -, hn⟩ := Numeral.exists_value hvalue
  exact ⟨n, hn⟩

/-- A channel that was written reads as itself if it is finite. -/
lemma readChannel_bind {α : Type} (mark : List Char) (h : IsChannel x)
    (hrest : Stops isDecimal rest) (next : Float × List Char → Option α) :
    readChannel mark (mark ++ (fixed 3 x ++ rest)) >>= next =
      if x.isFinite = true then next (x, rest) else none := by
  unfold readChannel
  rw [after?_append, Option.bind_eq_bind, Option.bind_eq_bind, Option.bind_some]
  dsimp only
  rcases h with rfl | ⟨whole, units, hthousandths, hx⟩
  · have hword : takeNumeral (fixed 3 positiveInfinity ++ rest) = [] := by
      rw [fixed_infinity]
      rfl
    rw [isFinite_positiveInfinity, hword]
    rfl
  · have hends := ends_placesNumeral (roundDiv .even (units * 1000) unitsPerOne) hrest
    rw [if_pos (isFinite_of_counts hx), fixed_eq hx, Numeral.takeNumeral_text hends,
      Numeral.readFloat?_eq_some_iff.2 ⟨good_placesNumeral _, rfl⟩, hthousandths.value_eq hx,
      List.drop_left]
    rfl

/-! ### Colors -/

lemma isChannel_of_ofText? (h : ofText? t = some c) : ∀ x ∈ c.channels, IsChannel x := by
  unfold ofText? at h
  simp only [Option.bind_eq_bind, Option.bind_eq_some_iff, Option.pure_def, Option.some.injEq,
    Prod.exists] at h
  obtain ⟨red, s, hred, green, s, hgreen, blue, s, hblue, alpha, s, halpha, -, -, rfl⟩ := h
  obtain ⟨n₁, rfl⟩ := exists_numeral_of_readChannel hred
  obtain ⟨n₂, rfl⟩ := exists_numeral_of_readChannel hgreen
  obtain ⟨n₃, rfl⟩ := exists_numeral_of_readChannel hblue
  obtain ⟨n₄, rfl⟩ := exists_numeral_of_readChannel halpha
  simp [channels, ofChannels, Numeral.isChannel]

lemma toList_text (c : Color) : c.text.toList =
    ['r'] ++ (fixed 3 c.red ++ ([',', 'g'] ++ (fixed 3 c.green ++ ([',', 'b'] ++
      (fixed 3 c.blue ++ ([',', 'a'] ++ (fixed 3 c.alpha ++ []))))))) := by
  simp [text]

/-- The text form is read with another rounding of the channels. -/
lemma ofText?_text (h : ∀ x ∈ c.channels, IsChannel x) : ofText? c.text =
    if ∀ x ∈ c.channels, x.isFinite = true then
      some (ofChannels c.red c.green c.blue c.alpha) else none := by
  obtain ⟨red, green, blue, alpha⟩ := c
  have hcomma (channel : Char) (s : List Char) : Stops isDecimal ([',', channel] ++ s) :=
    stops_cons rfl _
  simp only [channels, List.forall_mem_cons] at h ⊢
  obtain ⟨hred, hgreen, hblue, halpha, -⟩ := h
  unfold ofText?
  rw [toList_text, readChannel_bind _ hred (hcomma _ _)]
  dsimp only
  rw [readChannel_bind _ hgreen (hcomma _ _)]
  dsimp only
  rw [readChannel_bind _ hblue (hcomma _ _)]
  dsimp only
  rw [readChannel_bind _ halpha (stops_nil _)]
  simp [ite_and]

/-- The channels of a color are rounded once more when its text form is read. -/
lemma ofText?_text_eq_some_iff (h : ∀ x ∈ c.channels, IsChannel x) :
    ofText? c.text = some c ↔ ∀ x ∈ c.channels, x.isFinite = true ∧ roundTo 3 x = x := by
  rw [ofText?_text h]
  obtain ⟨red, green, blue, alpha⟩ := c
  simp only [channels, List.forall_mem_cons, ofChannels, List.not_mem_nil]
  split_ifs with hfinite
  · simp [hfinite]
  · simp
    tauto

/-- **The text form of a color that was read** reads as the color just if its channels are finite
and those with halves of a thousandth are rounded already. -/
theorem ofText?_text_iff (h : ofText? t = some c) : ofText? c.text = some c ↔
    ∀ x ∈ c.channels, x.isFinite = true ∧
      (4398046511104 ≤ x → x < 4503599627370.496 → roundTo 3 x = x) := by
  have hchannels := isChannel_of_ofText? h
  rw [ofText?_text_eq_some_iff hchannels]
  exact forall₂_congr fun x hx => and_congr_right fun _ => (hchannels x hx).roundTo_eq_iff

theorem ofText?_text_tint : ∃ c, ofText? "r0.12345,g1,b2.5,a.5004" = some c ∧
    (∀ x ∈ c.channels, x.isFinite = true ∧
      (4398046511104 ≤ x → x < 4503599627370.496 → roundTo 3 x = x)) ∧
    ofText? c.text = some c := by
  have hread : (ofText? "r0.12345,g1,b2.5,a.5004").isSome = true := by decide +kernel
  obtain ⟨c, hc⟩ := Option.isSome_iff_exists.1 hread
  have hsmall : ∀ x ∈ (ofText? "r0.12345,g1,b2.5,a.5004").get!.channels,
      x.isFinite = true ∧ ¬ 4398046511104 ≤ x := by decide +kernel
  rw [hc] at hsmall
  have hall : ∀ x ∈ c.channels, x.isFinite = true ∧
      (4398046511104 ≤ x → x < 4503599627370.496 → roundTo 3 x = x) := fun x hx =>
    ⟨(hsmall x hx).1, fun hlarge => absurd hlarge (hsmall x hx).2⟩
  exact ⟨c, hc, hall, (ofText?_text_iff hc).2 hall⟩

/-- Where the thousandfold has halves, the text form is read as another color. -/
theorem text_drifts : ∃ c, ofText? "r4398046511104.0205,g0,b0,a0" = some c ∧
    c.text = "r4398046511104.021,g0.000,b0.000,a0.000" ∧
    (ofText? c.text).map text = some "r4398046511104.022,g0.000,b0.000,a0.000" ∧
    ofText? c.text ≠ some c := by
  have hread : (ofText? "r4398046511104.0205,g0,b0,a0").map text =
      some "r4398046511104.021,g0.000,b0.000,a0.000" := by decide +kernel
  have hagain : (ofText? "r4398046511104.021,g0.000,b0.000,a0.000").map text =
      some "r4398046511104.022,g0.000,b0.000,a0.000" := by decide +kernel
  obtain ⟨c, hc, htext⟩ := Option.map_eq_some_iff.1 hread
  rw [← htext] at hagain
  refine ⟨c, hc, htext, hagain, fun hsame => ?_⟩
  rw [hsame, Option.map_some, htext] at hagain
  exact absurd hagain (by decide)

/-- **A color in the range of colors** is read again from its text form. -/
theorem ofText?_text_of_le_one (h : ofText? t = some c) (hle : ∀ x ∈ c.channels, x ≤ 1) :
    ofText? c.text = some c := by
  refine (ofText?_text_eq_some_iff (isChannel_of_ofText? h)).2 fun x hx => ?_
  rcases isChannel_of_ofText? h x hx with rfl | ⟨whole, units, hthousandths, hcounts⟩
  · exact absurd (hle _ hx) (by decide +kernel)
  · have hunits := (hcounts.le_iff counts_one).1 (hle x hx)
    have hpositive := unitsPerOne_pos
    exact ⟨isFinite_of_counts hcounts, hthousandths.steady hcounts (Or.inl (by omega))⟩

end Color

end RenderLayout
