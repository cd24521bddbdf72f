import RenderLayout.Style.Basic

/-!
Styles written as declarations, such as `fill:#ff0000;stroke:#000000;stroke-width:2`.

A key counts wherever it stands in the text, and of several places the first one that fits. A color
is `#` and six hexadecimal digits. A number is the longest run of digits with at most one point,
and it is read only if there is a color that it belongs to.
-/

namespace RenderLayout

/-- A text that is no number where a field has one. -/
structure BadNumber where
  field : String
  text : String
  deriving DecidableEq, Repr

namespace Declarations

open Number Text

/-- The numeral behind the first `key:`. -/
def numeral? (key : String) (s : List Char) : Option (List Char) :=
  firstMatch (fun s => (after? (key.toList ++ [':']) s).map takeNumeral) s

def number? (key : String) (s : List Char) : Except BadNumber (Option Float) :=
  match numeral? key s with
  | none => .ok none
  | some numeral =>
    match readFloat? numeral with
    | some value => .ok (some value)
    | none => .error ⟨key, String.ofList numeral⟩

def hexDigit? (c : Char) : Option Nat :=
  if '0' ≤ c ∧ c ≤ '9' then some (c.toNat - '0'.toNat)
  else if 'a' ≤ c ∧ c ≤ 'f' then some (c.toNat - 'a'.toNat + 10)
  else if 'A' ≤ c ∧ c ≤ 'F' then some (c.toNat - 'A'.toNat + 10)
  else none

def hexByte? (high low : Char) : Option UInt8 :=
  return UInt8.ofNat (16 * (← hexDigit? high) + (← hexDigit? low))

/-- The three bytes of six hexadecimal digits at the start of a text. -/
def hexBytes? : List Char → Option (UInt8 × UInt8 × UInt8)
  | r₁ :: r₀ :: g₁ :: g₀ :: b₁ :: b₀ :: _ =>
    return (← hexByte? r₁ r₀, ← hexByte? g₁ g₀, ← hexByte? b₁ b₀)
  | _ => none

/-- The bytes behind the first `key:#` that has six hexadecimal digits behind it. -/
def bytes? (key : String) (s : List Char) : Option (UInt8 × UInt8 × UInt8) :=
  firstMatch (fun s => after? (key.toList ++ [':', '#']) s >>= hexBytes?) s

/-- The color of a key, opaque unless the key has an opacity. -/
def color? (key : String) (s : List Char) : Except BadNumber (Option Color) :=
  match bytes? key s with
  | none => .ok none
  | some (red, green, blue) => do
    let opacity ← number? (key ++ "-opacity") s
    return some (.ofBytes red green blue (opacity.getD 1))

def fill? (s : String) : Except BadNumber (Option Color) := color? "fill" s.toList

/-- The stroke, of no width unless there is one. -/
def stroke? (s : String) : Except BadNumber (Option Edge) := do
  match ← color? "stroke" s.toList with
  | none => return none
  | some color =>
    let width ← number? "stroke-width" s.toList
    return some ⟨color, roundTo 3 (width.getD 0)⟩

end Declarations

/-- Left and top. -/
def defaultAlign : String := "h0,v1"

/-- The style of a text of declarations. -/
def Style.ofDeclarations (s : String) : Except BadNumber Style := do
  let fill ← Declarations.fill? s
  let stroke ← Declarations.stroke? s
  return { align := some defaultAlign, fill, stroke }

end RenderLayout
