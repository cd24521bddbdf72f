import RenderLayout.Number.Shortest

/-!
Floats as text: the shortest decimal, positional or with an exponent, and a fixed number of
places.
-/

namespace RenderLayout.Number

/-- The decimal digits of a whole number. -/
def digitsOf (n : Nat) : List Char := Nat.toDigits 10 n

/-- Digits with zeros in front, at least `width` of them. -/
def padded (width n : Nat) : List Char :=
  let digits := digitsOf n
  List.replicate (width - digits.length) '0' ++ digits

/-- How a text of shortest digits is laid out. -/
structure Format where
  tie : Tie
  /-- The least and the greatest exponent of the leading digit that are written out in places;
  without them every number is. -/
  places : Option (Int × Int)
  /-- What stands behind a number without decimals that is written out in places. -/
  whole : String

/-- Nothing but digits, sign and point, and a point only before decimals. -/
def Format.plain : Format := ⟨.up, none, ""⟩

/-- Whole numbers keep a decimal, and far exponents are written as such. -/
def Format.scientific : Format := ⟨.even, some (-5, 15), ".0"⟩

/-- Digits written out in places, with the decimals behind a point. -/
def inPlaces (whole : List Char) (digits : List Char) (exponent : Int) : List Char :=
  if 0 ≤ exponent then digits ++ List.replicate exponent.toNat '0' ++ whole
  else
    let decimals := (-exponent).toNat
    if digits.length ≤ decimals then
      '0' :: '.' :: (List.replicate (decimals - digits.length) '0' ++ digits)
    else
      digits.take (digits.length - decimals) ++ '.' :: digits.drop (digits.length - decimals)

/-- One digit before the point and a signed exponent. -/
def withExponent (digits : List Char) (exponent : Int) : List Char :=
  let mantissa :=
    match digits with
    | first :: second :: rest => first :: '.' :: second :: rest
    | _ => digits
  let sign := if exponent < 0 then '-' else '+'
  mantissa ++ 'e' :: sign :: digitsOf exponent.natAbs

def Format.layOut (format : Format) (decimal : Decimal) : List Char :=
  let digits := digitsOf decimal.digits
  let leading : Int := decimal.exponent + digits.length - 1
  match format.places with
  | none => inPlaces format.whole.toList digits decimal.exponent
  | some (least, greatest) =>
    if least ≤ leading ∧ leading ≤ greatest then
      inPlaces format.whole.toList digits decimal.exponent
    else withExponent digits leading

def signed (negative : Bool) (text : List Char) : List Char :=
  if negative then '-' :: text else text

def Format.write (format : Format) (x : Float) : List Char :=
  match Binary.ofFloat x with
  | .nan => "NaN".toList
  | .infinite negative => signed negative "inf".toList
  | .finite negative mantissa scale =>
    let decimal := if mantissa = 0 then ⟨0, 0⟩ else shortest format.tie mantissa scale
    signed negative (format.layOut decimal)

/-- The shortest digits, written out in places. -/
def plain (x : Float) : String := String.ofList (Format.plain.write x)

/-- The exact value rounded to a number of places, a half to the even neighbour. -/
def fixed (places : Nat) (x : Float) : List Char :=
  match Binary.ofFloat x with
  | .nan => "NaN".toList
  | .infinite negative => signed negative "inf".toList
  | .finite negative mantissa scale =>
    let count := roundDiv .even (mantissa <<< scale * Nat.pow 10 places) unitsPerOne
    let whole := digitsOf (count / Nat.pow 10 places)
    let decimals := padded places (count % Nat.pow 10 places)
    signed negative (if places = 0 then whole else whole ++ '.' :: decimals)

end RenderLayout.Number
