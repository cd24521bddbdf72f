import RenderLayout.Proofs.DeclarationText
import RenderLayout.Proofs.Numerals

/-!
What is read from a text of declarations.

The color of a key is at the first place where the key has one, whatever it has before. The number of
a key is at its first place, so that a text there that is no number fails the whole style. It is read
only if there is the color that it belongs to.
-/

namespace RenderLayout

namespace Declarations

open Number Text

/-! ### Bytes of colors -/

/-- The two hexadecimal digits of a byte, in small letters. -/
def byteDigits (byte : UInt8) : List Char :=
  [Nat.digitChar (byte.toNat / 16), Nat.digitChar (byte.toNat % 16)]

/-- The text starts with the key and a color. -/
def ColorHere (key : String) (rest : List Char) : Prop :=
  ∃ digits, IsHex digits ∧ key.toList ++ [':', '#'] ++ digits <+: rest

/-- The digits of the first color of the key, in either case of letters, are those of the bytes. -/
def HasBytes (key s : String) (bytes : UInt8 × UInt8 × UInt8) : Prop :=
  ∃ before digits behind,
    FirstAt (ColorHere key) s.toList before (key.toList ++ [':', '#'] ++ (digits ++ behind)) ∧
      digits.map Char.toLower = byteDigits bytes.1 ++ byteDigits bytes.2.1 ++ byteDigits bytes.2.2

lemma toLower_of_hexDigit? {c : Char} {value : Nat} (h : hexDigit? c = some value) :
    value < 16 ∧ c.toLower = Nat.digitChar value := by
  have htable : ∀ code < 103, ∀ value ∈ hexDigit? (Char.ofNat code),
      value < 16 ∧ (Char.ofNat code).toLower = Nat.digitChar value := by decide
  have hcode : c.toNat ≤ 102 := by
    unfold hexDigit? at h
    split_ifs at h with hdigit hsmall hlarge
    · exact le_trans (show c.toNat ≤ 57 from hdigit.2) (by decide)
    · exact hsmall.2
    · exact le_trans (show c.toNat ≤ 70 from hlarge.2) (by decide)
  have hc := htable c.toNat (Nat.lt_succ_of_le hcode) value
  rw [Char.ofNat_toNat] at hc
  exact hc h

lemma digitChar_inj {m n : Nat} (hm : m < 16) (hn : n < 16)
    (h : Nat.digitChar m = Nat.digitChar n) : m = n := by
  have htable : ∀ m < 16, ∀ n < 16, Nat.digitChar m = Nat.digitChar n → m = n := by decide
  exact htable m hm n hn h

lemma byteDigits_inj {a b : UInt8} (h : byteDigits a = byteDigits b) : a = b := by
  obtain ⟨hhigh, hlow⟩ := List.cons.inj h
  have ha := a.toNat_lt
  have hb := b.toNat_lt
  have hhigh := digitChar_inj (by omega) (by omega) hhigh
  have hlow := digitChar_inj (by omega) (by omega) (List.cons.inj hlow).1
  exact UInt8.toNat_inj.1 (by omega)

lemma byteDigits_of_hexByte? {high low : Char} {byte : UInt8} (h : hexByte? high low = some byte) :
    [high, low].map Char.toLower = byteDigits byte := by
  obtain ⟨m, hm, h⟩ := Option.bind_eq_some_iff.1 h
  obtain ⟨n, hn, h⟩ := Option.bind_eq_some_iff.1 h
  obtain rfl := Option.some.inj h
  obtain ⟨hm, hhigh⟩ := toLower_of_hexDigit? hm
  obtain ⟨hn, hlow⟩ := toLower_of_hexDigit? hn
  have hbyte : (UInt8.ofNat (16 * m + n)).toNat = 16 * m + n :=
    UInt8.toNat_ofNat_of_lt' (show 16 * m + n < 256 by omega)
  unfold byteDigits
  rw [hbyte, show (16 * m + n) / 16 = m by omega, show (16 * m + n) % 16 = n by omega, ← hhigh,
    ← hlow]
  rfl

lemma byteDigits_of_hexBytes? {digits behind : List Char} {bytes : UInt8 × UInt8 × UInt8}
    (hdigits : IsHex digits) (h : hexBytes? (digits ++ behind) = some bytes) :
    digits.map Char.toLower =
      byteDigits bytes.1 ++ byteDigits bytes.2.1 ++ byteDigits bytes.2.2 := by
  match digits, hdigits.1 with
  | [r₁, r₀, g₁, g₀, b₁, b₀], _ =>
    obtain ⟨red, hred, h⟩ := Option.bind_eq_some_iff.1 h
    obtain ⟨green, hgreen, h⟩ := Option.bind_eq_some_iff.1 h
    obtain ⟨blue, hblue, h⟩ := Option.bind_eq_some_iff.1 h
    obtain rfl := Option.some.inj h
    rw [← byteDigits_of_hexByte? hred, ← byteDigits_of_hexByte? hgreen,
      ← byteDigits_of_hexByte? hblue]
    rfl

lemma colorHere_iff {key : String} {rest : List Char} :
    (after? (key.toList ++ [':', '#']) rest >>= hexBytes?).isSome = true ↔ ColorHere key rest := by
  constructor
  · intro h
    obtain ⟨bytes, hbytes⟩ := Option.isSome_iff_exists.1 h
    obtain ⟨behind, hbehind, hread⟩ := Option.bind_eq_some_iff.1 hbytes
    obtain ⟨digits, hdigits, more, rfl⟩ := hexBytes?_isSome.1 (Option.isSome_of_eq_some hread)
    refine ⟨digits, hdigits, more, ?_⟩
    rw [eq_append_of_after? hbehind, List.append_assoc]
  · rintro ⟨digits, hdigits, more, rfl⟩
    rw [List.append_assoc, after?_append]
    exact hexBytes?_isSome.2 ⟨digits, hdigits, more, rfl⟩

/-- The first color that is found is the first color of the key. -/
lemma bytes?_eq_some_iff {key s : String} {bytes : UInt8 × UInt8 × UInt8} :
    bytes? key s.toList = some bytes ↔ HasBytes key s bytes := by
  have hhere : (fun rest => (after? (key.toList ++ [':', '#']) rest >>= hexBytes?).isSome = true) =
      ColorHere key := funext fun rest => propext colorHere_iff
  have hread (bytes : UInt8 × UInt8 × UInt8) (h : bytes? key s.toList = some bytes) :
      HasBytes key s bytes := by
    obtain ⟨before, rest, hfirst, hrest⟩ := firstMatch_eq_some_iff_firstAt.1 h
    rw [hhere] at hfirst
    obtain ⟨found, hfound, hbytes⟩ := Option.bind_eq_some_iff.1 hrest
    obtain ⟨digits, hdigits, behind, rfl⟩ := hexBytes?_isSome.1 (Option.isSome_of_eq_some hbytes)
    obtain rfl := eq_append_of_after? hfound
    exact ⟨before, digits, behind, hfirst, byteDigits_of_hexBytes? hdigits hbytes⟩
  refine ⟨hread bytes, ?_⟩
  rintro ⟨before, digits, behind, hfirst, hdigits⟩
  -- there are bytes of the color, and they have the same digits
  have hsome : (bytes? key s.toList).isSome = true := by
    rw [hfirst.parts]
    exact isSome_firstMatch (colorHere_iff.2 hfirst.holds)
  obtain ⟨bytes', hbytes'⟩ := Option.isSome_iff_exists.1 hsome
  obtain ⟨before', digits', behind', hfirst', hdigits'⟩ := hread bytes' hbytes'
  have hrest := List.append_cancel_left (hfirst.unique hfirst').2
  have hlength (digits : List Char) (bytes : UInt8 × UInt8 × UInt8)
      (h : digits.map Char.toLower =
        byteDigits bytes.1 ++ byteDigits bytes.2.1 ++ byteDigits bytes.2.2) :
      digits.length = 6 := by
    rw [← List.length_map (f := Char.toLower), h]
    rfl
  obtain ⟨rfl, -⟩ := List.append_inj hrest
    ((hlength _ _ hdigits).trans (hlength _ _ hdigits').symm)
  obtain ⟨hfront, hblue⟩ := List.append_inj (hdigits.symm.trans hdigits') rfl
  obtain ⟨hred, hgreen⟩ := List.append_inj hfront rfl
  rw [hbytes', Prod.ext (byteDigits_inj hred)
    (Prod.ext (byteDigits_inj hgreen) (byteDigits_inj hblue))]

/-! ### Numbers -/

/-- At the first place of the key, which need not be a number, the numeral is behind it. -/
def HasNumeral (key s : String) (n : Numeral) : Prop :=
  ∃ before rest,
    FirstAt (key.toList ++ [':'] <+: ·) s.toList before (key.toList ++ [':'] ++ (n.text ++ rest)) ∧
      n.Ends rest

/-- The number of a key, if the key is there at all. -/
inductive NumberOf (key s : String) : Option Float → Prop
  | absent (h : ¬ key.toList ++ [':'] <:+: s.toList) : NumberOf key s none
  | present (n : Numeral) (h : HasNumeral key s n) (hgood : n.Good) : NumberOf key s (some n.value)

/-- What is behind the key is a text that is no number. -/
def BadNumeral (key s text : String) : Prop :=
  ∃ n, HasNumeral key s n ∧ ¬ n.Good ∧ text = String.ofList n.text

lemma numeral?_eq_some_iff {key s : String} {numeral : List Char} :
    numeral? key s.toList = some numeral ↔ ∃ n, HasNumeral key s n ∧ n.text = numeral := by
  have hhere : (fun rest => ((after? (key.toList ++ [':']) rest).map takeNumeral).isSome = true) =
      (key.toList ++ [':'] <+: ·) := by
    refine funext fun rest => propext ?_
    rw [Option.isSome_map, Option.isSome_iff_exists]
    exact exists_congr fun behind => after?_eq_some_iff.trans eq_comm
  unfold numeral? HasNumeral
  rw [firstMatch_eq_some_iff_firstAt, hhere]
  constructor
  · rintro ⟨before, rest, hfirst, hrest⟩
    obtain ⟨behind, hbehind, rfl⟩ := Option.map_eq_some_iff.1 hrest
    obtain ⟨n, rest', rfl, hends⟩ := Numeral.exists_ends behind
    obtain rfl := eq_append_of_after? hbehind
    exact ⟨n, ⟨before, rest', hfirst, hends⟩, (Numeral.takeNumeral_text hends).symm⟩
  · rintro ⟨n, ⟨before, rest, hfirst, hends⟩, rfl⟩
    refine ⟨before, _, hfirst, ?_⟩
    rw [after?_append, Option.map_some, Numeral.takeNumeral_text hends]

lemma numeral?_eq_none_iff {key s : String} :
    numeral? key s.toList = none ↔ ¬ key.toList ++ [':'] <:+: s.toList := by
  rw [← Option.not_isSome_iff_eq_none, not_iff_not]
  constructor
  · intro h
    obtain ⟨numeral, hnumeral⟩ := Option.isSome_iff_exists.1 h
    obtain ⟨n, ⟨before, rest, hfirst, -⟩, -⟩ := numeral?_eq_some_iff.1 hnumeral
    exact ⟨before, n.text ++ rest, by rw [hfirst.parts, List.append_assoc]⟩
  · rintro ⟨before, rest, hs⟩
    rw [← hs, List.append_assoc]
    refine isSome_firstMatch ?_
    rw [after?_append]
    rfl

lemma number?_eq_ok_iff {key s : String} {number : Option Float} :
    number? key s.toList = .ok number ↔ NumberOf key s number := by
  unfold number?
  cases hnumeral : numeral? key s.toList with
  | none =>
    have habsent := numeral?_eq_none_iff.1 hnumeral
    constructor
    · intro h
      obtain rfl := Except.ok.inj h
      exact .absent habsent
    · rintro (⟨-⟩ | ⟨n, h, -⟩)
      · rfl
      · rw [numeral?_eq_some_iff.2 ⟨n, h, rfl⟩] at hnumeral
        cases hnumeral
  | some numeral =>
    obtain ⟨n, hn, rfl⟩ := numeral?_eq_some_iff.1 hnumeral
    constructor
    · intro h
      dsimp only at h
      split at h
      case h_1 value hvalue =>
        obtain rfl := Except.ok.inj h
        obtain ⟨hgood, rfl⟩ := Numeral.readFloat?_eq_some_iff.1 hvalue
        exact .present n hn hgood
      case h_2 => cases h
    · rintro (⟨habsent⟩ | ⟨m, hm, hgood⟩)
      · rw [numeral?_eq_none_iff.2 habsent] at hnumeral
        cases hnumeral
      · have htext := hnumeral.symm.trans (numeral?_eq_some_iff.2 ⟨m, hm, rfl⟩)
        rw [Option.some.inj htext]
        dsimp only
        rw [Numeral.readFloat?_eq_some_iff.2 ⟨hgood, rfl⟩]

lemma number?_eq_error_iff {key s : String} {fault : BadNumber} :
    number? key s.toList = .error fault ↔
      fault.field = key ∧ BadNumeral key s fault.text := by
  unfold number?
  cases hnumeral : numeral? key s.toList with
  | none =>
    refine iff_of_false nofun ?_
    rintro ⟨-, n, hn, -⟩
    rw [numeral?_eq_some_iff.2 ⟨n, hn, rfl⟩] at hnumeral
    cases hnumeral
  | some numeral =>
    dsimp only
    constructor
    · intro h
      obtain ⟨n, hn, rfl⟩ := numeral?_eq_some_iff.1 hnumeral
      split at h
      case h_1 => cases h
      case h_2 hnone =>
        obtain rfl := Except.error.inj h
        refine ⟨rfl, n, hn, fun hgood => ?_, rfl⟩
        rw [Numeral.readFloat?_eq_some_iff.2 ⟨hgood, rfl⟩] at hnone
        cases hnone
    · rintro ⟨hfield, n, hn, hbad, htext⟩
      obtain rfl := Option.some.inj (hnumeral.symm.trans (numeral?_eq_some_iff.2 ⟨n, hn, rfl⟩))
      split
      case h_1 value hvalue => exact absurd (Numeral.readFloat?_eq_some_iff.1 hvalue).1 hbad
      case h_2 =>
        rw [← hfield, ← htext]

/-! ### Colors and strokes -/

/-- The color of a key, opaque if it has no opacity. -/
inductive ColorOf (key s : String) : Option Color → Prop
  | absent (h : ¬ HasColor key s) : ColorOf key s none
  | present {red green blue : UInt8} {opacity : Option Float} (h : HasBytes key s (red, green, blue))
      (hopacity : NumberOf (key ++ "-opacity") s opacity) :
      ColorOf key s (some (.ofBytes red green blue (opacity.getD 1)))

/-- The stroke, of no width if there is none. -/
inductive StrokeOf (s : String) : Option Edge → Prop
  | absent (h : ColorOf "stroke" s none) : StrokeOf s none
  | present {color : Color} {width : Option Float} (h : ColorOf "stroke" s (some color))
      (hwidth : NumberOf "stroke-width" s width) :
      StrokeOf s (some ⟨color, roundTo 3 (width.getD 0)⟩)

/-- A style as it is declared. -/
structure Declares (s : String) (style : Style) : Prop where
  align : style.align = some "h0,v1"
  fill : ColorOf "fill" s style.fill
  stroke : StrokeOf s style.stroke
  rotation : style.rotation = none
  shadow : style.shadow = none

lemma color?_eq_ok_iff {key s : String} {color : Option Color} :
    color? key s.toList = .ok color ↔ ColorOf key s color := by
  unfold color?
  cases hbytes : bytes? key s.toList with
  | none =>
    have hnone : ¬ HasColor key s := by
      rw [← bytes?_isSome, hbytes]
      exact Bool.false_ne_true
    constructor
    · intro h
      obtain rfl := Except.ok.inj h
      exact .absent hnone
    · rintro (⟨-⟩ | ⟨h, -⟩)
      · rfl
      · rw [bytes?_eq_some_iff.2 h] at hbytes
        cases hbytes
  | some bytes =>
    obtain ⟨red, green, blue⟩ := bytes
    constructor
    · intro h
      obtain ⟨opacity, hopacity, h⟩ := bind_eq_ok_iff.1 h
      obtain rfl := Except.ok.inj h
      exact .present (bytes?_eq_some_iff.1 hbytes) (number?_eq_ok_iff.1 hopacity)
    · rintro (⟨hnone⟩ | ⟨h, hopacity⟩)
      · exact absurd (bytes?_isSome.1 (Option.isSome_of_eq_some hbytes)) hnone
      · obtain ⟨⟩ := hbytes.symm.trans (bytes?_eq_some_iff.2 h)
        exact bind_eq_ok_iff.2 ⟨_, number?_eq_ok_iff.2 hopacity, rfl⟩

lemma stroke?_eq_ok_iff {s : String} {stroke : Option Edge} :
    stroke? s = .ok stroke ↔ StrokeOf s stroke := by
  constructor
  · intro h
    obtain ⟨color, hcolor, h⟩ := bind_eq_ok_iff.1 h
    have hcolor := color?_eq_ok_iff.1 hcolor
    cases color with
    | none =>
      obtain rfl := Except.ok.inj h
      exact .absent hcolor
    | some color =>
      obtain ⟨width, hwidth, h⟩ := bind_eq_ok_iff.1 h
      obtain rfl := Except.ok.inj h
      exact .present hcolor (number?_eq_ok_iff.1 hwidth)
  · rintro (⟨h⟩ | ⟨h, hwidth⟩)
    · exact bind_eq_ok_iff.2 ⟨none, color?_eq_ok_iff.2 h, rfl⟩
    · refine bind_eq_ok_iff.2 ⟨_, color?_eq_ok_iff.2 h, ?_⟩
      exact bind_eq_ok_iff.2 ⟨_, number?_eq_ok_iff.2 hwidth, rfl⟩

lemma ofDeclarations_eq_ok_iff {s : String} {style : Style} :
    Style.ofDeclarations s = .ok style ↔ Declares s style := by
  constructor
  · intro h
    obtain ⟨fill, hfill, h⟩ := bind_eq_ok_iff.1 h
    obtain ⟨stroke, hstroke, h⟩ := bind_eq_ok_iff.1 h
    obtain rfl := Except.ok.inj h
    exact ⟨rfl, color?_eq_ok_iff.1 hfill, stroke?_eq_ok_iff.1 hstroke, rfl, rfl⟩
  · rintro ⟨halign, hfill, hstroke, hrotation, hshadow⟩
    obtain ⟨align, stroke, fill, rotation, shadow⟩ := style
    obtain rfl : align = some "h0,v1" := halign
    obtain rfl : rotation = none := hrotation
    obtain rfl : shadow = none := hshadow
    refine bind_eq_ok_iff.2 ⟨fill, color?_eq_ok_iff.2 hfill, ?_⟩
    exact bind_eq_ok_iff.2 ⟨stroke, stroke?_eq_ok_iff.2 hstroke, rfl⟩

/-! ### Faults -/

/-- A number that is read, and the color it belongs to. -/
structure Field where
  color : String
  number : String

/-- The fields in the order in which they are read. -/
def fields : List Field :=
  [⟨"fill", "fill-opacity"⟩, ⟨"stroke", "stroke-opacity"⟩, ⟨"stroke", "stroke-width"⟩]

/-- There is the color of the field, and its number is none. -/
structure IsBad (s : String) (field : Field) (text : String) : Prop where
  color : HasColor field.color s
  number : BadNumeral field.number s text

/-- The fault names the first field that is bad, and what it has for a number. -/
def FirstBad (s : String) (fault : BadNumber) : Prop :=
  ∃ before color behind, fields = before ++ ⟨color, fault.field⟩ :: behind ∧
    IsBad s ⟨color, fault.field⟩ fault.text ∧ ∀ field ∈ before, ∀ text, ¬ IsBad s field text

def fieldFault? (s : String) (field : Field) : Option BadNumber :=
  if (bytes? field.color s.toList).isSome then fault? (number? field.number s.toList) else none

lemma fieldFault?_eq_some_iff {s : String} {field : Field} {fault : BadNumber} :
    fieldFault? s field = some fault ↔ fault.field = field.number ∧ IsBad s field fault.text := by
  unfold fieldFault?
  split
  case isTrue hcolor =>
    rw [fault?_eq_some_iff, number?_eq_error_iff]
    exact and_congr_right fun _ => ⟨fun h => ⟨bytes?_isSome.1 hcolor, h⟩, fun h => h.number⟩
  case isFalse hcolor =>
    exact iff_of_false nofun fun h => hcolor (bytes?_isSome.2 h.2.color)

lemma fieldFault?_eq_none_iff {s : String} {field : Field} :
    fieldFault? s field = none ↔ ∀ text, ¬ IsBad s field text := by
  constructor
  · intro h text hbad
    have hsome : fieldFault? s field = some ⟨field.number, text⟩ :=
      fieldFault?_eq_some_iff.2 ⟨rfl, hbad⟩
    rw [h] at hsome
    cases hsome
  · intro h
    refine Option.eq_none_iff_forall_ne_some.2 fun fault hfault => ?_
    exact h fault.text (fieldFault?_eq_some_iff.1 hfault).2

lemma fault?_color? (key s : String) :
    fault? (color? key s.toList) = fieldFault? s ⟨key, key ++ "-opacity"⟩ := by
  unfold color? fieldFault?
  cases bytes? key s.toList with
  | none => rfl
  | some bytes =>
    dsimp only
    rw [fault?_bind]
    cases number? (key ++ "-opacity") s.toList <;> rfl

lemma fault?_stroke? (s : String) :
    fault? (stroke? s) =
      (fieldFault? s ⟨"stroke", "stroke-opacity"⟩).or (fieldFault? s ⟨"stroke", "stroke-width"⟩) := by
  have hopacity : fault? (color? "stroke" s.toList) = fieldFault? s ⟨"stroke", "stroke-opacity"⟩ :=
    fault?_color? "stroke" s
  unfold stroke?
  rw [← hopacity, fault?_bind]
  cases hcolor : color? "stroke" s.toList with
  | error fault => rfl
  | ok color =>
    have hsome : (bytes? "stroke" s.toList).isSome = color.isSome :=
      Bool.eq_iff_iff.2 (bytes?_isSome.trans (color?_isSome hcolor).symm)
    unfold fieldFault?
    rw [hsome]
    cases color with
    | none => rfl
    | some color =>
      dsimp only
      rw [fault?_bind]
      cases number? "stroke-width" s.toList <;> rfl

/-- The fault of a text is that of the first field with one. -/
lemma fault?_ofDeclarations (s : String) :
    fault? (Style.ofDeclarations s) = fields.findSome? (fieldFault? s) := by
  have hfields : fields.findSome? (fieldFault? s) =
      (fault? (fill? s)).or (fault? (stroke? s)) := by
    rw [fault?_stroke?, show fault? (fill? s) = fieldFault? s ⟨"fill", "fill-opacity"⟩ from
      fault?_color? "fill" s]
    simp only [fields, List.findSome?_cons, List.findSome?_nil]
    cases fieldFault? s ⟨"fill", "fill-opacity"⟩ <;>
      cases fieldFault? s ⟨"stroke", "stroke-opacity"⟩ <;>
      cases fieldFault? s ⟨"stroke", "stroke-width"⟩ <;> rfl
  unfold Style.ofDeclarations
  rw [hfields, fault?_bind]
  cases fill? s with
  | error fault => rfl
  | ok fill =>
    dsimp only
    rw [fault?_bind]
    cases stroke? s <;> rfl

end Declarations

/-- **What is read from declarations.** A text fails just if there is a color with a number that is
none, and then as the first such number does; otherwise its style is the one that it declares. -/
theorem Style.ofDeclarations_reads (s : String) :
    ((∃ fault, ofDeclarations s = .error fault) ↔
        ∃ field ∈ Declarations.fields, ∃ text, Declarations.IsBad s field text) ∧
      (∀ fault, ofDeclarations s = .error fault ↔ Declarations.FirstBad s fault) ∧
      ∀ style, ofDeclarations s = .ok style ↔ Declarations.Declares s style := by
  have hfault (fault : BadNumber) : ofDeclarations s = .error fault ↔
      Declarations.fields.findSome? (Declarations.fieldFault? s) = some fault := by
    rw [← Declarations.fault?_ofDeclarations, fault?_eq_some_iff]
  refine ⟨?_, fun fault => ?_, fun style => Declarations.ofDeclarations_eq_ok_iff⟩
  · rw [exists_congr hfault, ← Option.isSome_iff_exists, List.findSome?_isSome_iff]
    refine exists_congr fun field => and_congr_right fun _ => ?_
    rw [Option.isSome_iff_exists]
    constructor
    · rintro ⟨fault, h⟩
      exact ⟨fault.text, (Declarations.fieldFault?_eq_some_iff.1 h).2⟩
    · rintro ⟨text, h⟩
      exact ⟨⟨field.number, text⟩, Declarations.fieldFault?_eq_some_iff.2 ⟨rfl, h⟩⟩
  · rw [hfault, List.findSome?_eq_some_iff]
    constructor
    · rintro ⟨before, ⟨color, number⟩, behind, hfields, h, hbefore⟩
      obtain ⟨rfl, hbad⟩ := Declarations.fieldFault?_eq_some_iff.1 h
      exact ⟨before, color, behind, hfields, hbad,
        fun field hfield => Declarations.fieldFault?_eq_none_iff.1 (hbefore field hfield)⟩
    · rintro ⟨before, color, behind, hfields, hbad, hbefore⟩
      exact ⟨before, _, behind, hfields, Declarations.fieldFault?_eq_some_iff.2 ⟨rfl, hbad⟩,
        fun field hfield => Declarations.fieldFault?_eq_none_iff.2 (hbefore field hfield)⟩

/-- A color that has too few digits is passed over, a number that has none is not. -/
example : fault? (Style.ofDeclarations "fill:#0;fill:#000000;fill-opacity:.;fill-opacity:1") =
    some ⟨"fill-opacity", "."⟩ := by decide +kernel

end RenderLayout
