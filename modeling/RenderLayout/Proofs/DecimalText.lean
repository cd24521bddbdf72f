import RenderLayout.Proofs.Rounding
import RenderLayout.Proofs.TextParts

/-!
Finite floats survive as text.

The plain text of a finite float is a sign, digits and at most one point among them. Reading it
takes the digits back out, as a decimal that rounds to the float.
-/

namespace RenderLayout.Number

open Text

/-! ### Digits -/

/-- Nothing but decimal digits. -/
def AreDigits (s : List Char) : Prop := ∀ c ∈ s, c.isDigit = true

lemma AreDigits.append {s t : List Char} (hs : AreDigits s) (ht : AreDigits t) :
    AreDigits (s ++ t) := fun c hc =>
  (List.mem_append.1 hc).elim (hs c) (ht c)

lemma areDigits_zeros (n : Nat) : AreDigits (List.replicate n '0') := fun c hc => by
  rw [List.eq_of_mem_replicate hc]
  rfl

lemma areDigits_digitsOf (n : Nat) : AreDigits (digitsOf n) := fun _ hc =>
  Nat.isDigit_of_mem_toDigits (by decide) (by decide) hc

lemma ofDigits_digitsOf (n : Nat) : ofDigits (digitsOf n) = n := Nat.ofDigitChars_ten_toDigits

lemma ofDigits_append_zeros (s : List Char) (n : Nat) :
    ofDigits (s ++ List.replicate n '0') = ofDigits s * 10 ^ n := by
  show Nat.ofDigitChars 10 (s ++ List.replicate n '0') 0 = Nat.ofDigitChars 10 s 0 * 10 ^ n
  rw [Nat.ofDigitChars_append, Nat.ofDigitChars_replicate_zero, Nat.mul_comm]

lemma ofDigits_zeros_append (s : List Char) (n : Nat) :
    ofDigits (List.replicate n '0' ++ s) = ofDigits s := by
  show Nat.ofDigitChars 10 (List.replicate n '0' ++ s) 0 = Nat.ofDigitChars 10 s 0
  rw [Nat.ofDigitChars_append, Nat.ofDigitChars_replicate_zero, Nat.mul_zero]

/-! ### Reading digits -/

section Reading

variable (negative : Bool) {whole decimals rest : List Char}

/-- Digits alone are a decimal, and so are digits before an exponent. -/
lemma readDecimal?_whole (hwhole : AreDigits whole) (hne : whole ≠ [])
    (hrest : Stops Char.isDigit rest) (hpoint : ∀ c ∈ rest.head?, c ≠ '.') :
    readDecimal? negative (whole ++ rest) =
      (readExponent? rest).map fun exponent => ofDecimal negative (ofDigits whole) exponent := by
  unfold readDecimal?
  dsimp only
  rw [takeWhile_append_stop hwhole hrest, dropWhile_append_stop hwhole hrest]
  split
  case h_1 tail => exact absurd rfl (hpoint '.' rfl)
  case h_2 =>
    rw [if_neg (by simp [hne]), List.append_nil]
    simp

/-- Of the digits around a point one is enough. -/
lemma readDecimal?_point (hwhole : AreDigits whole) (hdecimals : AreDigits decimals)
    (hne : whole ++ decimals ≠ []) (hrest : Stops Char.isDigit rest) :
    readDecimal? negative (whole ++ '.' :: (decimals ++ rest)) =
      (readExponent? rest).map fun exponent =>
        ofDecimal negative (ofDigits (whole ++ decimals)) (exponent - decimals.length) := by
  have hpoint : Stops Char.isDigit ('.' :: (decimals ++ rest)) := stops_cons rfl _
  unfold readDecimal?
  dsimp only
  rw [takeWhile_append_stop hwhole hpoint, dropWhile_append_stop hwhole hpoint]
  simp only
  rw [takeWhile_append_stop hdecimals hrest, dropWhile_append_stop hdecimals hrest,
    if_neg (by simpa using hne)]

end Reading

/-! ### The layout in places -/

/-- How a number written out in places is made: digits alone, or with some of them behind a
point. -/
lemma inPlaces_cases (n : Nat) (exponent : Int) :
    (0 ≤ exponent ∧ inPlaces [] (digitsOf n) exponent =
        digitsOf n ++ List.replicate exponent.toNat '0') ∨
      ∃ whole decimals, AreDigits whole ∧ AreDigits decimals ∧ whole ≠ [] ∧
        inPlaces [] (digitsOf n) exponent = whole ++ '.' :: decimals ∧
        ofDigits (whole ++ decimals) = n ∧ -(decimals.length : Int) = exponent := by
  unfold inPlaces
  dsimp only
  split
  case isTrue hwhole => exact Or.inl ⟨hwhole, List.append_nil _⟩
  case isFalse hdecimals =>
    right
    split
    case isTrue hshort =>
      refine ⟨['0'], List.replicate ((-exponent).toNat - (digitsOf n).length) '0' ++ digitsOf n,
        areDigits_zeros 1, (areDigits_zeros _).append (areDigits_digitsOf n), by simp, rfl, ?_, ?_⟩
      · rw [show ['0'] = List.replicate 1 '0' from rfl, ofDigits_zeros_append,
          ofDigits_zeros_append, ofDigits_digitsOf]
      · rw [List.length_append, List.length_replicate]
        omega
    case isFalse hlong =>
      refine ⟨_, _, fun c hc => areDigits_digitsOf n c (List.mem_of_mem_take hc),
        fun c hc => areDigits_digitsOf n c (List.mem_of_mem_drop hc), ?_, rfl, ?_, ?_⟩
      · intro hnil
        have := congrArg List.length hnil
        rw [List.length_take, List.length_nil] at this
        omega
      · rw [List.take_append_drop, ofDigits_digitsOf]
      · rw [List.length_drop]
        omega

/-- A number of digits before the point with zeros is a decimal of exponent zero. -/
lemma Decimal.Rounds.whole {n mantissa scale : Nat} {exponent : Int}
    (h : (Decimal.mk n exponent).Rounds mantissa scale) (hwhole : 0 ≤ exponent) :
    (Decimal.mk (n * 10 ^ exponent.toNat) 0).Rounds mantissa scale := by
  have hplaces : (-exponent).toNat = 0 := by omega
  unfold Decimal.Rounds at h ⊢
  dsimp only at h ⊢
  rw [hplaces] at h
  have hpoint : n * 10 ^ exponent.toNat * (unitsPerOne * Nat.pow 10 (0 : Int).toNat) =
      n * (unitsPerOne * Nat.pow 10 exponent.toNat) := by
    show n * 10 ^ exponent.toNat * (unitsPerOne * 10 ^ 0) = n * (unitsPerOne * 10 ^ exponent.toNat)
    ring
  rw [hpoint]
  exact h

/-- A decimal that rounds to a magnitude reads as it when it is written out in places. -/
lemma readDecimal?_inPlaces {decimal : Decimal} {mantissa scale : Nat} (negative : Bool)
    (h : decimal.Rounds mantissa scale) (hmagnitude : IsMagnitude mantissa scale)
    (hpos : mantissa ≠ 0) :
    readDecimal? negative (inPlaces [] (digitsOf decimal.digits) decimal.exponent) =
      some (ofMagnitudeBits negative (scale <<< 52 + mantissa)) := by
  obtain ⟨n, exponent⟩ := decimal
  rcases inPlaces_cases n exponent with
    ⟨hwhole, htext⟩ | ⟨whole, decimals, hw, hd, hne, htext, hvalue, hexponent⟩
  · have hdigits := (areDigits_digitsOf n).append (areDigits_zeros exponent.toNat)
    have hread := readDecimal?_whole negative hdigits (by simp [digitsOf, Nat.toDigits_ne_nil])
      (stops_nil _) nofun
    rw [List.append_nil, ofDigits_append_zeros, ofDigits_digitsOf] at hread
    rw [htext, hread]
    exact congrArg some (ofDecimal_of_rounds negative (h.whole hwhole) hmagnitude hpos)
  · have hread := readDecimal?_point negative hw hd (by simp [hne]) (stops_nil _)
    rw [List.append_nil, hvalue] at hread
    rw [htext, hread, ← ofDecimal_of_rounds negative h hmagnitude hpos, ← hexponent]
    exact congrArg (fun e => some (ofDecimal negative n e)) (Int.zero_sub _)

/-! ### The plain text -/

/-- A character of a number written out in places. -/
def IsPlaceChar (c : Char) : Prop := c.isDigit = true ∨ c = '.'

lemma inPlaces_chars (n : Nat) (exponent : Int) :
    (∃ first rest, inPlaces [] (digitsOf n) exponent = first :: rest ∧ first.isDigit = true) ∧
      ∀ c ∈ inPlaces [] (digitsOf n) exponent, IsPlaceChar c := by
  have hstart : ∀ {s : List Char} (rest : List Char), AreDigits s → s ≠ [] →
      ∃ first others, s ++ rest = first :: others ∧ first.isDigit = true := by
    intro s rest hs hne
    obtain ⟨first, others, rfl⟩ := List.exists_cons_of_ne_nil hne
    exact ⟨first, others ++ rest, rfl, hs first List.mem_cons_self⟩
  rcases inPlaces_cases n exponent with
    ⟨-, htext⟩ | ⟨whole, decimals, hw, hd, hne, htext, -, -⟩
  · rw [htext]
    exact ⟨hstart _ (areDigits_digitsOf n) (by simp [digitsOf, Nat.toDigits_ne_nil]),
      fun c hc => Or.inl (((areDigits_digitsOf n).append (areDigits_zeros _)) c hc)⟩
  · rw [htext]
    refine ⟨hstart _ hw hne, fun c hc => ?_⟩
    rcases List.mem_append.1 hc with hc | hc
    · exact Or.inl (hw c hc)
    · rcases List.mem_cons.1 hc with rfl | hc
      · exact Or.inr rfl
      · exact Or.inl (hd c hc)

lemma isNumeralChar_of_isDigit {c : Char} (h : c.isDigit = true) : IsNumeralChar c :=
  Or.inl (isDecimal_of_isDigit h)

lemma takeSign_signed (negative : Bool) {first : Char} (h : IsNumeralChar first)
    (rest : List Char) :
    takeSign (signed negative (first :: rest)) = (negative, first :: rest) := by
  cases negative with
  | true => rfl
  | false =>
    show takeSign (first :: rest) = _
    unfold takeSign
    split
    case h_1 heq => exact absurd (List.cons.inj heq).1 (h.ne (by decide) (by decide))
    case h_2 heq => exact absurd (List.cons.inj heq).1 (h.ne (by decide) (by decide))
    case h_3 => rfl

/-- A text that starts with a digit or a point is no word. -/
lemma readFloat?_signed (negative : Bool) {first : Char} (h : IsNumeralChar first)
    (rest : List Char) :
    readFloat? (signed negative (first :: rest)) = readDecimal? negative (first :: rest) := by
  have hword : ∀ c word, isDecimal c = false → c ≠ '.' →
      (first :: rest).map Char.toLower ≠ c :: word := by
    intro c word hdigit hpoint heq
    rw [List.map_cons, h.toLower] at heq
    exact h.ne hdigit hpoint (List.cons.inj heq).1
  unfold readFloat?
  rw [takeSign_signed negative h]
  dsimp only
  have hinfinite : ¬ ((first :: rest).map Char.toLower = "inf".toList ∨
      (first :: rest).map Char.toLower = "infinity".toList) :=
    not_or.2 ⟨hword _ _ (by decide) (by decide), hword _ _ (by decide) (by decide)⟩
  have hnan : ¬ (first :: rest).map Char.toLower = "nan".toList :=
    hword _ _ (by decide) (by decide)
  rw [if_neg hinfinite, if_neg hnan]

/-- **The plain text of a finite float reads back as the float.** -/
theorem readFloat?_plain {x : Float} (h : x.isFinite = true) :
    readFloat? (Format.plain.write x) = some x := by
  obtain ⟨negative, mantissa, scale, hx, hmagnitude, hback⟩ := ofFloat_of_isFinite h
  unfold Format.write
  rw [hx]
  dsimp only
  by_cases hzero : mantissa = 0
  · have hscale : scale = 0 := by
      have := hmagnitude.low
      rw [Nat.one_shiftLeft] at this
      omega
    rw [if_pos hzero, ← hback, hzero, hscale]
    cases negative <;> rfl
  · rw [if_neg hzero]
    obtain ⟨⟨first, rest, htext, hfirst⟩, -⟩ := inPlaces_chars
      (shortest .up mantissa scale).digits (shortest .up mantissa scale).exponent
    have hread := readDecimal?_inPlaces negative (shortest_rounds .up mantissa scale) hmagnitude
      hzero
    rw [htext] at hread
    show readFloat? (signed negative (inPlaces [] (digitsOf (shortest .up mantissa scale).digits)
      (shortest .up mantissa scale).exponent)) = some x
    rw [htext, readFloat?_signed negative (isNumeralChar_of_isDigit hfirst), hread, hback]

/-- Digits, a point and a sign are all that the plain text of a finite float holds. -/
lemma plain_chars {x : Float} (h : x.isFinite = true) {c : Char} (hc : c ∈ Format.plain.write x) :
    IsPlaceChar c ∨ c = '-' := by
  obtain ⟨negative, mantissa, scale, hx, -, -⟩ := ofFloat_of_isFinite h
  unfold Format.write at hc
  rw [hx] at hc
  have hplaces := fun decimal : Decimal => (inPlaces_chars decimal.digits decimal.exponent).2 c
  cases negative with
  | false => exact Or.inl (hplaces _ hc)
  | true =>
    rcases List.mem_cons.1 hc with rfl | hc
    · exact Or.inr rfl
    · exact Or.inl (hplaces _ hc)

end RenderLayout.Number
