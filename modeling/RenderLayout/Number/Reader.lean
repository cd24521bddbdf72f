import RenderLayout.Number.Binary

/-!
Reading a float from its decimal text.

A number is an optional sign and then either a word for infinity or for what is not a number, in
any case of letters, or digits with at most one point among them and an optional exponent. At
least one digit stands beside the point and in the exponent, and all digits are ASCII. The value
is the float nearest to the decimal.
-/

namespace RenderLayout.Number

/-- The number that ASCII digits spell. -/
def ofDigits (digits : List Char) : Nat :=
  digits.foldl (fun n c => 10 * n + (c.toNat - '0'.toNat)) 0

/-- The float nearest to `digits * 10 ^ exponent`. Decimals beyond `10 ^ 310` are infinite and
those below `10 ^ -330` are zero, whatever their digits are. -/
def ofDecimal (negative : Bool) (digits : Nat) (exponent : Int) : Float :=
  let size : Int := (Nat.toDigits 10 digits).length + exponent
  if digits = 0 ∨ size < -330 then ofMagnitudeBits negative 0
  else if 310 < size then ofMagnitudeBits negative infiniteBits
  else ofRatio negative (digits * Nat.pow 10 exponent.toNat) (Nat.pow 10 (-exponent).toNat)

/-- A sign, if there is one, and the text behind it. -/
def takeSign : List Char → Bool × List Char
  | '-' :: rest => (true, rest)
  | '+' :: rest => (false, rest)
  | s => (false, s)

/-- The exponent behind a mantissa; nothing means zero. -/
def readExponent? : List Char → Option Int
  | [] => some 0
  | c :: rest =>
    if c = 'e' ∨ c = 'E' then
      let (negative, digits) := takeSign rest
      if digits.isEmpty ∨ !digits.all Char.isDigit then none
      else some (if negative then -(ofDigits digits : Int) else ofDigits digits)
    else none

def readDecimal? (negative : Bool) (s : List Char) : Option Float :=
  let whole := s.takeWhile Char.isDigit
  let rest := s.dropWhile Char.isDigit
  let (decimals, rest) :=
    match rest with
    | '.' :: tail => (tail.takeWhile Char.isDigit, tail.dropWhile Char.isDigit)
    | _ => ([], rest)
  if whole.isEmpty ∧ decimals.isEmpty then none
  else
    (readExponent? rest).map fun exponent =>
      ofDecimal negative (ofDigits (whole ++ decimals)) (exponent - decimals.length)

def readFloat? (s : List Char) : Option Float :=
  let (negative, rest) := takeSign s
  let word := rest.map Char.toLower
  if word = "inf".toList ∨ word = "infinity".toList then
    some (ofMagnitudeBits negative infiniteBits)
  else if word = "nan".toList then some notANumber
  else readDecimal? negative rest

end RenderLayout.Number
