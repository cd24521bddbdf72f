import RenderLayout.Json.Cursor
import RenderLayout.Json.Writer
import RenderLayout.Number.Reader

/-!
The literals of a JSON text: words, strings and numbers.

A number without decimals and exponent that fits 64 bits is whole. Of any other number the digits
that fit 64 bits make a float, which is then scaled by a power of ten; both steps round.
-/

namespace RenderLayout.Json

open Reader

/-- The rest of a word whose first letter has been passed. -/
def readWord : List Char → Reader Unit
  | [] => pure ()
  | expected :: word => do
    match ← peek with
    | none => stopHere .endInValue
    | some c =>
      if c = expected then
        eat
        readWord word
      else fun cursor => .error (.placed .expectedWord cursor.placeAhead)

/-! ### Strings -/

def hexValue? (c : Char) : Option Nat :=
  if c.isDigit then some (c.toNat - '0'.toNat)
  else if 'a' ≤ c ∧ c ≤ 'f' then some (c.toNat - 'a'.toNat + 10)
  else if 'A' ≤ c ∧ c ≤ 'F' then some (c.toNat - 'A'.toNat + 10)
  else none

/-- Four hexadecimal digits. A text of less than four bytes ends before them. -/
def readHex4 (place : Place) (s : List Char) : Except Stop Nat :=
  if s.foldr (fun c size => c.utf8Size + size) 0 < 4 then .error (.placed .endInString (place.skip s))
  else
    match s with
    | a :: b :: c :: d :: _ =>
      match hexValue? a, hexValue? b, hexValue? c, hexValue? d with
      | some a, some b, some c, some d => .ok (4096 * a + 256 * b + 16 * c + d)
      | _, _, _, _ => .error (.placed .invalidEscape (place.skipBytes 4 s))
    | _ => .error (.placed .invalidEscape (place.skipBytes 4 s))

def isHighSurrogate (n : Nat) : Bool := 0xd800 ≤ n && n ≤ 0xdbff

def isLowSurrogate (n : Nat) : Bool := 0xdc00 ≤ n && n ≤ 0xdfff

/-- The second half of a surrogate pair: the character and how many characters spell the half. -/
def readLowHalf (high : Nat) (place : Place) : List Char → Except Stop (Char × Nat)
  | [] => .error (.placed .endInString place)
  | '\\' :: [] => .error (.placed .endInString (place.next '\\'))
  | '\\' :: 'u' :: s => do
    let place := (place.next '\\').next 'u'
    let low ← readHex4 place s
    if isLowSurrogate low then
      return (Char.ofNat (0x10000 + (high - 0xd800) * 0x400 + (low - 0xdc00)), 6)
    else throw (.placed .loneSurrogate (place.skip (s.take 4)))
  | '\\' :: c :: _ => .error (.placed .halfSurrogatePair ((place.next '\\').nextByte c))
  | c :: _ => .error (.placed .halfSurrogatePair (place.nextByte c))

def letterEscapes : List (Char × Char) :=
  [('"', '"'), ('\\', '\\'), ('/', '/'), ('b', '\x08'), ('f', '\x0c'), ('n', '\n'), ('r', '\r'),
    ('t', '\t')]

/-- What stands behind a backslash: the character and how many characters spell it. -/
def readEscape (place : Place) : List Char → Except Stop (Char × Nat)
  | [] => .error (.placed .endInString place)
  | 'u' :: s => do
    let place := place.next 'u'
    let n ← readHex4 place s
    if isLowSurrogate n then throw (.placed .loneSurrogate (place.skip (s.take 4)))
    else if isHighSurrogate n then
      let (c, count) ← readLowHalf n (place.skip (s.take 4)) (s.drop 4)
      return (c, count + 5)
    else return (Char.ofNat n, 5)
  | c :: _ =>
    match letterEscapes.lookup c with
    | some meant => .ok (meant, 1)
    | none => .error (.placed .invalidEscape (place.nextByte c))

/-- The characters of a string up to its closing quotation mark, and how many characters of the
text they take with it. The first argument counts the characters that an escape still covers. -/
def scanString : Nat → Place → List Char → Except Stop (List Char × Nat)
  | _, place, [] => .error (.placed .endInString place)
  | covered + 1, place, c :: s => do
    let (chars, count) ← scanString covered (place.next c) s
    return (chars, count + 1)
  | 0, place, c :: s =>
    if c = '"' then .ok ([], 1)
    else if c = '\\' then do
      let (meant, covered) ← readEscape (place.next c) s
      let (chars, count) ← scanString covered (place.next c) s
      return (meant :: chars, count + 1)
    else if c.toNat < 0x20 then .error (.placed .controlCharacter (place.next c))
    else do
      let (chars, count) ← scanString 0 (place.next c) s
      return (c :: chars, count + 1)
termination_by structural _ _ s => s

/-- A string whose opening quotation mark has been passed. -/
def readString : Reader String := fun cursor => do
  let (chars, count) ← scanString 0 cursor.place cursor.rest
  return (String.ofList chars, cursor.skip count)

/-! ### Numbers -/

def greatestWord : Nat := 1 <<< 64 - 1

/-- Appends digits as long as the number fits 64 bits; also gives how many digits are left. -/
def absorbDigits : Nat → List Char → Nat × Nat
  | n, [] => (n, 0)
  | n, d :: digits =>
    let grown := 10 * n + (d.toNat - '0'.toNat)
    if greatestWord < grown then (n, digits.length + 1) else absorbDigits grown digits

/-- Divides by a power of ten, in steps of at most `10 ^ 308`. -/
def scaleDown : Nat → Float → Nat → Float
  | 0, x, _ => x
  | steps + 1, x, exponent =>
    if exponent ≤ 308 then x / Number.ofRatio false (Nat.pow 10 exponent) 1
    else if x == 0 then x
    else scaleDown steps (x / Number.ofRatio false (Nat.pow 10 308) 1) (exponent - 308)

/-- `digits * 10 ^ exponent`, unless it is infinite. After three divisions nothing is left of 64
bits. -/
def scaleFloat? (digits : Nat) (exponent : Int) : Option Float :=
  let x := Number.ofRatio false digits 1
  if exponent < 0 then some (scaleDown 4 x exponent.natAbs)
  else if exponent ≤ 308 then
    let scaled := x * Number.ofRatio false (Nat.pow 10 exponent.toNat) 1
    if scaled.isInf then none else some scaled
  else if digits = 0 then some x
  else none

def scaleNumber (negative : Bool) (digits : Nat) (exponent : Int) : Reader Json := do
  match scaleFloat? digits exponent with
  | some x => return .float (if negative then -x else x)
  | none => stopHere .numberOutOfRange

/-- How many digits there are up to the one with which the number exceeds 31 bits, if it does. -/
def overflowAt? : Nat → Nat → List Char → Option Nat
  | _, _, [] => none
  | n, count, d :: digits =>
    let grown := 10 * n + (d.toNat - '0'.toNat)
    if 1 <<< 31 ≤ grown then some (count + 1) else overflowAt? grown (count + 1) digits

/-- A digit that has to be next. -/
def demandDigit : Reader Unit := do
  match ← peek with
  | none => stopHere .endInValue
  | some c => if c.isDigit then pure () else stopAhead .invalidNumber

/-- The exponent behind the letter, for the digits before it. -/
def readExponent (negative : Bool) (digits : Nat) (exponent : Int) : Reader Json := do
  eat
  let negativeExponent := (← peek) = some '-'
  if negativeExponent ∨ (← peek) = some '+' then eat
  demandDigit
  let run := (← rest).takeWhile Char.isDigit
  match overflowAt? 0 0 run with
  | some count =>
    if digits ≠ 0 ∧ ¬ negativeExponent then
      skip count
      stopHere .numberOutOfRange
    else
      skip run.length
      return .float (if negative then -0 else 0)
  | none =>
    skip run.length
    let shift : Int := Number.ofDigits run
    scaleNumber negative digits (if negativeExponent then exponent - shift else exponent + shift)

/-- The decimals behind the point, for the digits before it. -/
def readDecimals (negative : Bool) (digits : Nat) (exponent : Int) : Reader Json := do
  eat
  let run ← takeWhile Char.isDigit
  if run.isEmpty then
    match ← peek with
    | none => stopAhead .endInValue
    | some _ => stopAhead .invalidNumber
  else
    let (digits, left) := absorbDigits digits run
    let exponent := exponent - (run.length - left : Nat)
    match ← peek with
    | some 'e' | some 'E' => readExponent negative digits exponent
    | _ => scaleNumber negative digits exponent

/-- A whole number as such if it fits 64 bits and is not a negative zero. -/
def wholeNumber (negative : Bool) (digits : Nat) : Json :=
  if !negative then .int digits
  else if digits = 0 ∨ 1 <<< 63 < digits then .float (-Number.ofRatio false digits 1)
  else .int (-digits)

/-- A number whose sign has been passed. -/
def readNumber (negative : Bool) : Reader Json := do
  demandDigit
  let run ← do
    if (← peek) = some '0' then
      eat
      match ← peek with
      | some c => if c.isDigit then stopAhead .invalidNumber else pure ['0']
      | none => pure ['0']
    else takeWhile Char.isDigit
  let (digits, left) := absorbDigits 0 run
  match ← peek with
  | some '.' => readDecimals negative digits left
  | some 'e' | some 'E' => readExponent negative digits left
  | _ => if left = 0 then return wholeNumber negative digits else scaleNumber negative digits left

end RenderLayout.Json
