import RenderLayout.Drawing.Decode
import RenderLayout.Proofs.DeclarationReading
import RenderLayout.Proofs.RoundedNumbers

/-!
The same text as the number of an attribute and as that of a declaration.

An attribute is read as a whole, with an exponent, a unit and blanks behind the digits. A declaration
is read as far as its digits go, so that an exponent is lost.
-/

namespace RenderLayout

namespace Number

open Text

/-! ### Exponents -/

/-- A sign as it is written; no sign is a plus. -/
inductive SignText : Bool → List Char → Prop
  | none : SignText false []
  | plus : SignText false ['+']
  | minus : SignText true ['-']

/-- An exponent as it is written: a letter, a sign if there is one, and digits. No exponent is
zero. -/
inductive ExponentText : Int → List Char → Prop
  | none : ExponentText 0 []
  | written {letter : Char} {negative : Bool} {sign digits : List Char}
      (hletter : letter = 'e' ∨ letter = 'E') (hsign : SignText negative sign)
      (hdigits : AreDigits digits) (hne : digits ≠ []) :
      ExponentText (if negative then -(ofDigits digits : Int) else ofDigits digits)
        (letter :: (sign ++ digits))

lemma exists_signText (s : List Char) :
    ∃ sign, SignText (takeSign s).1 sign ∧ s = sign ++ (takeSign s).2 := by
  unfold takeSign
  split
  · exact ⟨_, .minus, rfl⟩
  · exact ⟨_, .plus, rfl⟩
  · exact ⟨_, .none, rfl⟩

lemma exponentText_of_readExponent? {s : List Char} {exponent : Int}
    (h : readExponent? s = some exponent) : ExponentText exponent s := by
  rcases s with _ | ⟨letter, rest⟩
  · obtain rfl := Option.some.inj h
    exact .none
  · have hletter : letter = 'e' ∨ letter = 'E' := Numeral.head_of_readExponent? h letter rfl
    obtain ⟨sign, hsign, hrest⟩ := exists_signText rest
    unfold readExponent? at h
    dsimp only at h
    rw [if_pos hletter] at h
    generalize takeSign rest = taken at h hsign hrest
    obtain ⟨negative, digits⟩ := taken
    obtain rfl : rest = sign ++ digits := hrest
    by_cases hbad : digits.isEmpty ∨ !digits.all Char.isDigit
    · rw [if_pos hbad] at h
      cases h
    · rw [if_neg hbad] at h
      obtain rfl := Option.some.inj h
      obtain ⟨hne, hdigits⟩ := not_or.1 hbad
      refine .written hletter hsign (fun c hc => ?_) fun hnil => hne (List.isEmpty_iff.2 hnil)
      exact List.all_eq_true.1 (by simpa using hdigits) c hc

/-! ### Numbers of attributes -/

/-- A text that is read as a number without a sign: a numeral, an exponent, a unit of pixels and
blanks, all but the numeral if there are any. -/
structure NumberText (v : String) (n : Numeral) (exponent : Int) : Prop where
  good : n.Good
  parts : ∃ power unit blanks, v.toList = n.text ++ (power ++ (unit ++ blanks)) ∧
    ExponentText exponent power ∧ (unit = [] ∨ unit = ['p', 'x']) ∧ AllBlank blanks

variable {n : Numeral} {s rest front behind : List Char}

/-- What no numeral has does not go beyond what is behind the numeral. -/
lemma Numeral.exists_of_append_eq (h : n.text ++ rest = front ++ behind)
    (hbehind : ∀ c ∈ behind, ¬ IsNumeralChar c) :
    ∃ more, front = n.text ++ more ∧ rest = more ++ behind := by
  obtain ⟨more, hfront, hrest⟩ | ⟨more, hnumeral, hbehind'⟩ := List.append_eq_append_iff.1 h
  · exact ⟨more, hfront, hrest⟩
  · have hnil : more = [] := by
      refine List.eq_nil_iff_forall_not_mem.2 fun c hc => hbehind c ?_ ?_
      · rw [hbehind']
        exact List.mem_append_left _ hc
      · exact Numeral.isNumeralChar_of_mem (by rw [hnumeral]; exact List.mem_append_right _ hc)
    rw [hnil] at hnumeral hbehind'
    exact ⟨[], by simpa using hnumeral.symm, by simpa using hbehind'.symm⟩

lemma Numeral.Ends.of_append (h : n.Ends (rest ++ behind)) : n.Ends rest := by
  rcases rest with _ | ⟨c, rest⟩
  · exact n.ends_nil
  · exact ⟨h.no_digit, h.no_point⟩

/-- Dropping the unit takes nothing or the unit. -/
lemma exists_dropPixels (s : List Char) :
    ∃ unit, (unit = [] ∨ unit = ['p', 'x']) ∧ s = dropPixels s ++ unit := by
  unfold dropPixels
  split
  case isTrue h =>
    obtain ⟨front, rfl⟩ := List.isSuffixOf_iff_suffix.1 h
    exact ⟨['p', 'x'], Or.inr rfl, by simp⟩
  case isFalse => exact ⟨[], Or.inl rfl, by simp⟩

/-- Trimming takes nothing from the front of a numeral. -/
lemma Numeral.exists_trim (hne : n.text ≠ []) (rest : List Char) :
    ∃ blanks, AllBlank blanks ∧ n.text ++ rest = trim (n.text ++ rest) ++ blanks := by
  obtain ⟨before, blanks, hbefore, hblanks, hparts⟩ := Text.exists_trim (n.text ++ rest)
  obtain ⟨c, more, hc⟩ := List.exists_cons_of_ne_nil hne
  have hfirst : isBlank c = false :=
    (Numeral.isNumeralChar_of_mem (by rw [hc]; exact List.mem_cons_self)).isBlank
  rcases before with _ | ⟨b, before⟩
  · exact ⟨blanks, hblanks, hparts⟩
  · have hb := hbefore b List.mem_cons_self
    rw [hc] at hparts
    obtain rfl : c = b := (List.cons.inj hparts).1
    rw [hfirst] at hb
    cases hb

/-- What an attribute has for a number, if it starts with a good numeral. -/
lemma exists_numberText {v : String} {x : Float} (hv : v.toList = n.text ++ rest) (hgood : n.Good)
    (hends : n.Ends rest) (hx : readFloat? (dropPixels (trim v.toList)) = some x) :
    ∃ exponent, NumberText v n exponent ∧ x = n.scaled exponent := by
  obtain ⟨blanks, hblanks, hparts⟩ := Numeral.exists_trim hgood.text_ne_nil rest
  obtain ⟨unit, hunit, hdrop⟩ := exists_dropPixels (trim (n.text ++ rest))
  obtain ⟨trimmed, htrim, hrest⟩ := Numeral.exists_of_append_eq hparts fun c hc hchar =>
    absurd (hblanks c hc) (by rw [hchar.isBlank]; exact Bool.false_ne_true)
  obtain ⟨power, hpower, rfl⟩ := Numeral.exists_of_append_eq (htrim.symm.trans hdrop)
    fun c hc hchar => by
      have hletter : c = 'p' ∨ c = 'x' := by
        rcases hunit with rfl | rfl
        · cases hc
        · simpa using hc
      rcases hletter with rfl | rfl
      · exact hchar.ne (by decide) (by decide) rfl
      · exact hchar.ne (by decide) (by decide) rfl
  rw [hv, hpower] at hx
  rw [hrest, List.append_assoc] at hends
  rw [Numeral.readFloat?_text hgood hends.of_append] at hx
  obtain ⟨exponent, hexponent, rfl⟩ := Option.map_eq_some_iff.1 hx
  refine ⟨exponent, ⟨hgood, power, unit, blanks, ?_, exponentText_of_readExponent? hexponent,
    hunit, hblanks⟩, rfl⟩
  rw [hv, hrest, List.append_assoc]

end Number

/-! ### Numbers of declarations -/

namespace Declarations

open Number Text

/-- The numbers of a style that declarations have as they are written. -/
inductive Quantity where
  | strokeWidth
  | strokeOpacity
  | fillOpacity
  deriving DecidableEq, Repr

namespace Quantity

/-- The declaration of a color, and that of the number. -/
def declare : Quantity → String → String
  | .strokeWidth, v => "stroke:#000000;stroke-width:" ++ v
  | .strokeOpacity, v => "stroke:#000000;stroke-opacity:" ++ v
  | .fillOpacity, v => "fill:#000000;fill-opacity:" ++ v

/-- The number as the stroke or the fill of declarations has it. -/
def read : Quantity → String → Except BadNumber (Option Float)
  | .strokeWidth, s => return (← stroke? s).map (·.distance)
  | .strokeOpacity, s => return (← stroke? s).map (·.color.alpha)
  | .fillOpacity, s => return (← fill? s).map (·.alpha)

/-- The color without which the number is not read. -/
def color : Quantity → String
  | .strokeWidth | .strokeOpacity => "stroke"
  | .fillOpacity => "fill"

def field : Quantity → String
  | .strokeWidth => "stroke-width"
  | .strokeOpacity => "stroke-opacity"
  | .fillOpacity => "fill-opacity"

variable {quantity : Quantity} {v : String}

lemma numeral?_declare (quantity : Quantity) (v : String) :
    numeral? quantity.field (quantity.declare v).toList = some (takeNumeral v.toList) := by
  cases quantity
  all_goals
    unfold field declare
    rw [String.toList_append]
    rfl

lemma isSome_bytes?_declare (quantity : Quantity) (v : String) :
    (bytes? quantity.color (quantity.declare v).toList).isSome = true := by
  cases quantity
  all_goals
    unfold color declare
    rw [String.toList_append]
    rfl

/-- The color is declared. -/
lemma not_colorOf_none : ¬ ColorOf quantity.color (quantity.declare v) none := by
  rintro ⟨hnone⟩
  exact hnone (bytes?_isSome.1 (isSome_bytes?_declare quantity v))

/-- What is read is the number of the field, rounded. -/
lemma exists_number?_of_read {result : Option Float}
    (h : quantity.read (quantity.declare v) = .ok result) :
    ∃ number default, number? quantity.field (quantity.declare v).toList = .ok number ∧
      result = some (roundTo 3 (number.getD default)) := by
  cases quantity with
  | strokeWidth =>
    obtain ⟨stroke, hstroke, h⟩ := bind_eq_ok_iff.1 h
    obtain rfl := Except.ok.inj h
    cases stroke?_eq_ok_iff.1 hstroke with
    | absent hcolor => exact absurd hcolor (@not_colorOf_none .strokeWidth v)
    | present _ hwidth => exact ⟨_, 0, number?_eq_ok_iff.2 hwidth, rfl⟩
  | strokeOpacity =>
    obtain ⟨stroke, hstroke, h⟩ := bind_eq_ok_iff.1 h
    obtain rfl := Except.ok.inj h
    cases stroke?_eq_ok_iff.1 hstroke with
    | absent hcolor => exact absurd hcolor (@not_colorOf_none .strokeOpacity v)
    | present hcolor _ =>
      cases hcolor with
      | present _ hopacity => exact ⟨_, 1, number?_eq_ok_iff.2 hopacity, rfl⟩
  | fillOpacity =>
    obtain ⟨fill, hfill, h⟩ := bind_eq_ok_iff.1 h
    obtain rfl := Except.ok.inj h
    cases color?_eq_ok_iff.1 hfill with
    | absent hnone => exact absurd (.absent hnone) (@not_colorOf_none .fillOpacity v)
    | present _ hopacity => exact ⟨_, 1, number?_eq_ok_iff.2 hopacity, rfl⟩

/-- A declaration has the numeral at the start of its text for a number. -/
lemma read_declare {result : Option Float}
    (h : quantity.read (quantity.declare v) = .ok result) :
    ∃ (n : Numeral) (rest : List Char), v.toList = n.text ++ rest ∧ n.Ends rest ∧ n.Good ∧
      result = some (roundTo 3 n.value) := by
  obtain ⟨n, rest, hv, hends⟩ := Numeral.exists_ends v.toList
  obtain ⟨number, default, hnumber, hresult⟩ := exists_number?_of_read h
  unfold number? at hnumber
  rw [numeral?_declare, hv, Numeral.takeNumeral_text hends] at hnumber
  dsimp only at hnumber
  split at hnumber
  case h_1 value hvalue =>
    obtain rfl := Except.ok.inj hnumber
    obtain ⟨hgood, rfl⟩ := Numeral.readFloat?_eq_some_iff.1 hvalue
    exact ⟨n, rest, hv, hends, hgood, hresult⟩
  case h_2 => cases hnumber

end Quantity

end Declarations

section Agreement

open Declarations Number

variable {quantity : Quantity} {attributes : Table String} {element key v : String} {x : Float}
  {result : Option Float}

/-- **A text as an attribute and as a declaration.** Both have the number that the digits spell, but
the declaration has it without the exponent, so that they agree only if the exponent is zero or
the number becomes zero or infinite with it and without. -/
theorem attribute_and_declaration (hv : attributes.find? key = some v)
    (hx : numberAttribute element attributes key = .ok x)
    (hresult : quantity.read (quantity.declare v) = .ok result) :
    ∃ n exponent, NumberText v n exponent ∧ x = n.scaled exponent ∧
      result = some (roundTo 3 n.value) ∧
      (result = some (roundTo 3 x) ↔
        exponent = 0 ∨
        (roundTo 3 n.value = positiveZero ∧ roundTo 3 x = positiveZero) ∨
        (roundTo 3 n.value = positiveInfinity ∧ roundTo 3 x = positiveInfinity)) := by
  obtain ⟨n, rest, hparts, hends, hgood, rfl⟩ := Quantity.read_declare hresult
  unfold numberAttribute at hx
  rw [hv] at hx
  dsimp only at hx
  split at hx
  case h_1 value hvalue =>
    obtain rfl := Except.ok.inj hx
    obtain ⟨exponent, htext, rfl⟩ := exists_numberText hparts hgood hends hvalue
    refine ⟨n, exponent, htext, rfl, rfl, ?_⟩
    have hexponent : (0 : Int) - n.places = exponent - n.places ↔ exponent = 0 := by omega
    rw [Option.some_inj, ← hexponent]
    exact roundTo_ofDecimal_eq_iff
  case h_2 => cases hx

/-- A width with decimals, a unit and a blank behind. -/
def wide : Table String := .ofList [("width", "2.50px ")]

theorem attribute_and_declaration_wide : ∃ x result,
    wide.find? "width" = some "2.50px " ∧ numberAttribute "rect" wide "width" = .ok x ∧
    Quantity.strokeWidth.read (Quantity.strokeWidth.declare "2.50px ") = .ok result ∧
    ∃ n exponent, NumberText "2.50px " n exponent ∧ x = n.scaled exponent ∧
      result = some (roundTo 3 n.value) ∧
      (result = some (roundTo 3 x) ↔
        exponent = 0 ∨
        (roundTo 3 n.value = positiveZero ∧ roundTo 3 x = positiveZero) ∨
        (roundTo 3 n.value = positiveInfinity ∧ roundTo 3 x = positiveInfinity)) := by
  have hread : ((numberAttribute "rect" wide "width").toOption.bind fun _ =>
      (Quantity.strokeWidth.read (Quantity.strokeWidth.declare "2.50px ")).toOption).isSome =
        true := by
    decide +kernel
  obtain ⟨result, hboth⟩ := Option.isSome_iff_exists.1 hread
  obtain ⟨x, hx, hresult⟩ := Option.bind_eq_some_iff.1 hboth
  have hx := toOption_eq_some_iff.1 hx
  have hresult := toOption_eq_some_iff.1 hresult
  have hfound : wide.find? "width" = some "2.50px " := by decide +kernel
  exact ⟨x, result, hfound, hx, hresult, attribute_and_declaration hfound hx hresult⟩

/-- A thousand, written with an exponent. -/
def far : Table String := .ofList [("width", "1e3")]

/-- **An exponent is lost in a declaration**: a width of a thousand is read as one. -/
theorem exponent_lost : ∃ x y,
    far.find? "width" = some "1e3" ∧ numberAttribute "rect" far "width" = .ok x ∧
    Quantity.strokeWidth.read (Quantity.strokeWidth.declare "1e3") = .ok (some y) ∧
    y ≠ roundTo 3 x := by
  have hread : ((numberAttribute "rect" far "width").toOption.bind fun x =>
      (Quantity.strokeWidth.read (Quantity.strokeWidth.declare "1e3")).toOption.bind fun result =>
        result.map fun y => decide (y.toBits = (roundTo 3 x).toBits)) = some false := by
    decide +kernel
  obtain ⟨x, hx, hread⟩ := Option.bind_eq_some_iff.1 hread
  obtain ⟨result, hresult, hread⟩ := Option.bind_eq_some_iff.1 hread
  obtain ⟨y, rfl, hdiffer⟩ := Option.map_eq_some_iff.1 hread
  refine ⟨x, y, by decide +kernel, toOption_eq_some_iff.1 hx, toOption_eq_some_iff.1 hresult, ?_⟩
  rintro rfl
  exact of_decide_eq_false hdiffer rfl

end Agreement

end RenderLayout
