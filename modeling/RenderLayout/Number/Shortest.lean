import RenderLayout.Number.Binary

/-!
The shortest decimal that reads back as a float.

The decimals that read back as a float are those in its rounding interval, from half a step below
it to half a step above; the ends belong to it when the mantissa is even. The search goes from
coarse decimal grids to fine ones and takes, on the first grid with a point in the interval, the
point nearest to the float. A coarser grid has fewer digits.
-/

namespace RenderLayout.Number

/-- The number `digits * 10 ^ exponent`. -/
structure Decimal where
  digits : Nat
  exponent : Int
  deriving DecidableEq, Repr

/-- The step to the next smaller float is half as wide at a power of two. -/
def narrowBelow (mantissa scale : Nat) : Bool := mantissa == 1 <<< 52 && scale != 0

/-- `4 * point / den`, as a count of quarter units, lies in the rounding interval of
`mantissa <<< scale` units. -/
def inInterval (mantissa scale point den : Nat) : Bool :=
  let middle := 4 * mantissa <<< scale * den
  let high := middle + 2 <<< scale * den
  let low := middle - (if narrowBelow mantissa scale then 1 else 2) <<< scale * den
  if mantissa % 2 = 0 then low ≤ 4 * point && 4 * point ≤ high
  else low < 4 * point && 4 * point < high

/-- The digits on the grid of `10 ^ exponent` that read back as the float, if there are any. A
point of the grid is `digits * step / den` units. -/
def onGrid (tie : Tie) (mantissa scale : Nat) (exponent : Int) : Option Nat :=
  let step := unitsPerOne * Nat.pow 10 exponent.toNat
  let den := Nat.pow 10 (-exponent).toNat
  let units := mantissa <<< scale * den
  let below := units / step
  match inInterval mantissa scale (below * step) den,
      inInterval mantissa scale ((below + 1) * step) den with
  | true, true => some (roundDiv tie units step)
  | true, false => some below
  | false, true => some (below + 1)
  | false, false => none

/-- Every float is a point of the grid of `10 ^ -1074`. -/
def exactDecimal (mantissa scale : Nat) : Decimal := ⟨mantissa <<< scale * Nat.pow 5 1074, -1074⟩

def searchGrids (tie : Tie) (mantissa scale : Nat) : Nat → Int → Decimal
  | 0, _ => exactDecimal mantissa scale
  | grids + 1, exponent =>
    match onGrid tie mantissa scale exponent with
    | some digits => ⟨digits, exponent⟩
    | none => searchGrids tie mantissa scale grids (exponent - 1)

/-- An exponent whose power of ten is above the float, and above it by less than a thousand. -/
def coarseExponent (mantissa scale : Nat) : Int :=
  (((Nat.log2 (mantissa <<< scale) : Int) - 1073) * 30103).fdiv 100000 + 2

def shortest (tie : Tie) (mantissa scale : Nat) : Decimal :=
  searchGrids tie mantissa scale 24 (coarseExponent mantissa scale)

end RenderLayout.Number
