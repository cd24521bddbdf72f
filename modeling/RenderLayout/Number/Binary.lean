/-!
Floats as exact counts.

Every finite float is, up to its sign, a whole number of units of `2 ^ -1074`, the least positive
float: `mantissa <<< scale` of them, with a mantissa below `2 ^ 53`. Reading, writing and
rounding are arithmetic on these counts. `magnitudeBits_mantissa` says that taking a float apart
loses nothing.
-/

namespace RenderLayout.Number

/-- Which way a quotient goes that lies halfway between two whole numbers. -/
inductive Tie where
  | up
  | even
  deriving DecidableEq, Repr

/-- The whole number nearest to `num / den`. -/
def roundDiv (tie : Tie) (num den : Nat) : Nat :=
  let whole := num / den
  let rest := num % den
  if 2 * rest < den then whole
  else if den < 2 * rest then whole + 1
  else
    match tie with
    | .up => whole + 1
    | .even => whole + whole % 2

/-- How many units make one. -/
def unitsPerOne : Nat := 1 <<< 1074

inductive Binary where
  | nan
  | infinite (negative : Bool)
  /-- `mantissa <<< scale` units. -/
  | finite (negative : Bool) (mantissa scale : Nat)
  deriving DecidableEq, Repr

def signBit : Nat := 1 <<< 63

/-- The bits of positive infinity; those of a finite magnitude are below. -/
def infiniteBits : Nat := 2047 <<< 52

def Binary.ofFloat (x : Float) : Binary :=
  let bits := x.toBits.toNat
  let negative := signBit ≤ bits
  let magnitude := bits % signBit
  if infiniteBits < magnitude then .nan
  else if magnitude = infiniteBits then .infinite negative
  else if magnitude < 1 <<< 52 then .finite negative magnitude 0
  else .finite negative (1 <<< 52 + magnitude % 1 <<< 52) (magnitude >>> 52 - 1)

/-- The bits of the float nearest to `num / den` units, ties to the even mantissa. The leading bit
of the mantissa is carried into the exponent by the sum, and so is a mantissa rounded up to
`2 ^ 53`. -/
def magnitudeBits (num den : Nat) : Nat :=
  let scale := Nat.log2 (num / den) - 52
  scale <<< 52 + roundDiv .even num (den <<< scale)

def ofMagnitudeBits (negative : Bool) (magnitude : Nat) : Float :=
  Float.ofBits (UInt64.ofNat ((if negative then signBit else 0) + min magnitude infiniteBits))

/-- The float nearest to `num / den`; beyond the greatest float it is infinite. -/
def ofRatio (negative : Bool) (num den : Nat) : Float :=
  ofMagnitudeBits negative (magnitudeBits (num * unitsPerOne) den)

def notANumber : Float := Float.ofBits 0x7ff8000000000000

/-- The nearest whole number, a half away from zero. From scale 1074 on a float is whole. -/
def roundHalfAway (x : Float) : Float :=
  match Binary.ofFloat x with
  | .finite negative mantissa scale =>
    if 1074 ≤ scale then x
    else ofRatio negative (roundDiv .up (mantissa <<< scale) unitsPerOne) 1
  | _ => x

/-- The nearest whole number within `-2 ^ 63` and `2 ^ 63 - 1`, a half away from zero. -/
def roundToInt64 (x : Float) : Int :=
  match Binary.ofFloat x with
  | .nan => 0
  | .infinite negative => if negative then -signBit else signBit - 1
  | .finite negative mantissa scale =>
    let whole := roundDiv .up (mantissa <<< scale) unitsPerOne
    if negative then max (-(whole : Int)) (-signBit) else min (whole : Int) (signBit - 1)

/-- `result * base ^ n` by squaring, from the lowest bit of `n` on. -/
def powerLoop : Nat → Nat → Float → Float → Float
  | 0, _, _, result => result
  | steps + 1, n, base, result =>
    let result := if n % 2 = 1 then result * base else result
    if n / 2 = 0 then result else powerLoop steps (n / 2) (base * base) result

/-- `10 ^ n` with the rounding errors of squaring; a negative power is one over the positive. -/
def powerOfTen (n : Int) : Float :=
  let power := powerLoop (n.natAbs + 1) n.natAbs 10 1
  if n < 0 then 1 / power else power

/-- Rounds to a number of decimal places: scaled, rounded to a whole number, scaled back. -/
def roundTo (places : Int) (x : Float) : Float :=
  let scale := powerOfTen places
  roundHalfAway (x * scale) / scale

theorem roundDiv_mul_right (tie : Tie) (n : Nat) {den : Nat} (h : 0 < den) :
    roundDiv tie (n * den) den = n := by
  simp [roundDiv, Nat.mul_div_cancel n h, h]

/-- The scale of a count of units whose leading bit is known. -/
theorem log2_sub_of_le_of_lt {n scale : Nat} (low : 1 <<< (52 + scale) ≤ n)
    (high : n < 1 <<< (53 + scale)) : Nat.log2 n - 52 = scale := by
  rw [Nat.one_shiftLeft] at low high
  have hne : n ≠ 0 := Nat.ne_of_gt (Nat.lt_of_lt_of_le (Nat.two_pow_pos _) low)
  have hle := (Nat.le_log2 hne).2 low
  have hlt := (Nat.log2_lt hne).2 high
  omega

theorem log2_mantissa {mantissa scale : Nat} (low : 1 <<< 52 ≤ mantissa)
    (high : mantissa < 1 <<< 53) : Nat.log2 (mantissa <<< scale) - 52 = scale := by
  rw [Nat.one_shiftLeft] at low high
  apply log2_sub_of_le_of_lt
  · rw [Nat.one_shiftLeft, Nat.shiftLeft_eq, Nat.pow_add]
    exact Nat.mul_le_mul_right _ low
  · rw [Nat.one_shiftLeft, Nat.shiftLeft_eq, Nat.pow_add]
    exact Nat.mul_lt_mul_of_pos_right high (Nat.two_pow_pos scale)

/-- A count of units that is a float has the bits of that float. -/
theorem magnitudeBits_mantissa {mantissa scale : Nat} (high : mantissa < 1 <<< 53)
    (low : scale = 0 ∨ 1 <<< 52 ≤ mantissa) :
    magnitudeBits (mantissa <<< scale) 1 = scale <<< 52 + mantissa := by
  have hscale : Nat.log2 (mantissa <<< scale / 1) - 52 = scale := by
    rw [Nat.div_one]
    rcases low with rfl | low
    · rcases Nat.eq_zero_or_pos mantissa with rfl | hpos
      · simp
      · have := (Nat.log2_lt (n := mantissa) (k := 53) (by omega)).2 high
        rw [Nat.shiftLeft_zero]
        omega
    · exact log2_mantissa low high
  rw [magnitudeBits, hscale, Nat.one_shiftLeft, Nat.shiftLeft_eq mantissa,
    roundDiv_mul_right _ _ (Nat.two_pow_pos scale)]

end RenderLayout.Number
