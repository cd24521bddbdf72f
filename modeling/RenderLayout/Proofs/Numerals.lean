import RenderLayout.Proofs.DecimalText

/-!
Numerals in a text.

The numeral at the start of a text is as long as it can be, with digits of any script. What reads as
a number are only digits of ASCII, and an exponent behind them.
-/

namespace RenderLayout.Number

open Text

/-- Digits of any script, with at most one point among them. -/
structure Numeral where
  whole : List Char
  /-- What is behind the point, if there is one. -/
  decimals : Option (List Char)
  whole_decimal : ∀ c ∈ whole, isDecimal c = true
  decimals_decimal : ∀ c ∈ decimals.getD [], isDecimal c = true

namespace Numeral

def text (n : Numeral) : List Char := n.whole ++ n.decimals.elim [] ('.' :: ·)

def digits (n : Numeral) : List Char := n.whole ++ n.decimals.getD []

/-- How many digits are behind the point. -/
def places (n : Numeral) : Nat := (n.decimals.getD []).length

/-- There is a digit, and all digits are those of ASCII. -/
structure Good (n : Numeral) : Prop where
  some_digit : n.digits ≠ []
  ascii : AreDigits n.digits

/-- The float nearest to the digits, with an exponent. -/
def scaled (n : Numeral) (exponent : Int) : Float :=
  ofDecimal false (ofDigits n.digits) (exponent - n.places)

/-- What the digits of a good numeral say. -/
def value (n : Numeral) : Float := n.scaled 0

/-- The numeral is not to be made longer by what is behind it. -/
structure Ends (n : Numeral) (rest : List Char) : Prop where
  no_digit : Stops isDecimal rest
  no_point : n.decimals = none → ∀ c ∈ rest.head?, c ≠ '.'

variable {n : Numeral} {s rest : List Char}

/-! ### The numeral at the start -/

lemma ends_nil (n : Numeral) : n.Ends [] := ⟨stops_nil _, fun _ => nofun⟩

lemma mem_text {c : Char} : c ∈ n.text ↔ c ∈ n.digits ∨ c = '.' ∧ n.decimals ≠ none := by
  unfold text digits
  cases n.decimals with
  | none => simp
  | some decimals =>
    simp
    tauto

lemma isDecimal_of_mem_digits {c : Char} (h : c ∈ n.digits) : isDecimal c = true :=
  (List.mem_append.1 h).elim (n.whole_decimal c) (n.decimals_decimal c)

lemma isNumeralChar_of_mem {c : Char} (h : c ∈ n.text) : IsNumeralChar c :=
  (mem_text.1 h).elim (fun hc => Or.inl (isDecimal_of_mem_digits hc)) fun hc => Or.inr hc.1

lemma takeNumeral_text (h : n.Ends rest) : takeNumeral (n.text ++ rest) = n.text := by
  obtain ⟨whole, decimals, hwhole, hdecimals⟩ := n
  unfold takeNumeral text
  cases decimals with
  | none =>
    dsimp only [Option.elim_none]
    rw [List.append_nil, takeWhile_append_stop hwhole h.no_digit,
      dropWhile_append_stop hwhole h.no_digit]
    split
    case h_1 tail => exact absurd rfl (h.no_point rfl '.' rfl)
    case h_2 => rfl
  | some decimals =>
    have hpoint : Stops isDecimal ('.' :: (decimals ++ rest)) := stops_cons (by decide) _
    dsimp only [Option.elim_some]
    rw [List.append_assoc, List.cons_append, takeWhile_append_stop hwhole hpoint,
      dropWhile_append_stop hwhole hpoint]
    exact congrArg (whole ++ '.' :: ·) (takeWhile_append_stop hdecimals h.no_digit)

/-- At the start of every text there is a numeral, if only an empty one. -/
lemma exists_ends (s : List Char) :
    ∃ (n : Numeral) (rest : List Char), s = n.text ++ rest ∧ n.Ends rest := by
  obtain ⟨whole, behind, rfl, hwhole, hbehind⟩ := exists_run isDecimal s
  by_cases hpoint : '.' ∈ behind.head?
  · obtain ⟨behind, rfl⟩ := List.head?_eq_some_iff.1 hpoint
    obtain ⟨decimals, rest, rfl, hdecimals, hrest⟩ := exists_run isDecimal behind
    refine ⟨⟨whole, some decimals, hwhole, hdecimals⟩, rest, ?_, hrest, nofun⟩
    simp [text]
  · refine ⟨⟨whole, none, hwhole, nofun⟩, behind, ?_, hbehind, ?_⟩
    · simp [text]
    · rintro - c hc rfl
      exact hpoint hc

/-! ### What reads as a number -/

/-- Whether a numeral is good is to be seen from its text. -/
lemma good_iff_text :
    n.Good ↔ (∃ c ∈ n.text, c ≠ '.') ∧ ∀ c ∈ n.text, c.isDigit = true ∨ c = '.' := by
  have hpoint (c : Char) (hc : c ∈ n.digits) : c ≠ '.' := by
    rintro rfl
    exact absurd (isDecimal_of_mem_digits hc) (by decide)
  constructor
  · rintro ⟨hsome, hascii⟩
    obtain ⟨c, hc⟩ := List.exists_mem_of_ne_nil _ hsome
    refine ⟨⟨c, mem_text.2 (Or.inl hc), hpoint c hc⟩, fun c hc => ?_⟩
    exact (mem_text.1 hc).imp (hascii c) (·.1)
  · rintro ⟨⟨c, hc, hne⟩, hall⟩
    constructor
    · exact List.ne_nil_of_mem ((mem_text.1 hc).resolve_right fun h => hne h.1)
    · exact fun d hd => (hall d (mem_text.2 (Or.inl hd))).resolve_right (hpoint d hd)

lemma Good.text_ne_nil (h : n.Good) : n.text ≠ [] := by
  obtain ⟨⟨c, hc, -⟩, -⟩ := good_iff_text.1 h
  exact List.ne_nil_of_mem hc

lemma Ends.stops_isDigit (h : n.Ends rest) : Stops Char.isDigit rest := fun c hc =>
  Bool.eq_false_iff.2 fun hdigit => by
    have hdecimal := h.no_digit c hc
    rw [isDecimal_of_isDigit hdigit] at hdecimal
    cases hdecimal

lemma readDecimal?_text (negative : Bool) (h : n.Good) (hends : n.Ends rest) :
    readDecimal? negative (n.text ++ rest) =
      (readExponent? rest).map fun exponent =>
        ofDecimal negative (ofDigits n.digits) (exponent - n.places) := by
  have hstops := hends.stops_isDigit
  obtain ⟨hsome, hascii⟩ := h
  unfold digits at hsome hascii
  unfold text digits places
  cases hdecimals : n.decimals with
  | none =>
    rw [hdecimals, Option.getD_none, List.append_nil] at hsome hascii
    rw [Option.elim_none, Option.getD_none, List.append_nil,
      readDecimal?_whole negative hascii hsome hstops (hends.no_point hdecimals)]
    simp
  | some decimals =>
    rw [hdecimals, Option.getD_some] at hsome hascii
    rw [Option.elim_some, Option.getD_some, List.append_assoc, List.cons_append]
    exact readDecimal?_point negative (fun c hc => hascii c (List.mem_append_left _ hc))
      (fun c hc => hascii c (List.mem_append_right _ hc)) hsome hstops

lemma isDecimal_of_areDigits (h : AreDigits s) : ∀ c ∈ s, isDecimal c = true := fun c hc =>
  isDecimal_of_isDigit (h c hc)

/-- A decimal is a good numeral and an exponent. -/
lemma exists_good_of_readDecimal? {negative : Bool} {x : Float}
    (h : readDecimal? negative s = some x) :
    ∃ (n : Numeral) (rest : List Char) (exponent : Int), s = n.text ++ rest ∧ n.Good ∧
      readExponent? rest = some exponent := by
  obtain ⟨whole, behind, rfl, hwhole, hbehind⟩ := exists_run Char.isDigit s
  unfold readDecimal? at h
  dsimp only at h
  rw [takeWhile_append_stop hwhole hbehind, dropWhile_append_stop hwhole hbehind] at h
  split at h
  case h_1 tail =>
    obtain ⟨decimals, rest, rfl, hdecimals, hrest⟩ := exists_run Char.isDigit tail
    rw [takeWhile_append_stop hdecimals hrest, dropWhile_append_stop hdecimals hrest] at h
    split_ifs at h with hnone
    obtain ⟨exponent, hexponent, -⟩ := Option.map_eq_some_iff.1 h
    refine ⟨⟨whole, some decimals, isDecimal_of_areDigits hwhole,
      isDecimal_of_areDigits hdecimals⟩, rest, exponent, by simp [text], ⟨?_, ?_⟩, hexponent⟩
    · simpa [digits] using hnone
    · exact AreDigits.append hwhole hdecimals
  case h_2 =>
    split_ifs at h with hnone
    obtain ⟨exponent, hexponent, -⟩ := Option.map_eq_some_iff.1 h
    refine ⟨⟨whole, none, isDecimal_of_areDigits hwhole, nofun⟩, behind, exponent,
      by simp [text], ⟨?_, ?_⟩, hexponent⟩
    · simpa [digits] using hnone
    · exact AreDigits.append hwhole nofun

/-- An exponent has a letter at its start. -/
lemma head_of_readExponent? {exponent : Int} (h : readExponent? s = some exponent) :
    ∀ c ∈ s.head?, c = 'e' ∨ c = 'E' := by
  rintro c hc
  obtain ⟨rest, rfl⟩ := List.head?_eq_some_iff.1 hc
  unfold readExponent? at h
  dsimp only at h
  split at h
  case isTrue hletter => exact hletter
  case isFalse => cases h

lemma readFloat?_eq_readDecimal? (h : ∀ c ∈ s.head?, IsNumeralChar c) :
    readFloat? s = readDecimal? false s := by
  cases s with
  | nil => rfl
  | cons c rest => exact readFloat?_signed false (h c rfl) rest

/-- A good numeral is read with the exponent behind it. -/
lemma readFloat?_text (h : n.Good) (hends : n.Ends rest) :
    readFloat? (n.text ++ rest) = (readExponent? rest).map n.scaled := by
  obtain ⟨c, more, hc⟩ := List.exists_cons_of_ne_nil h.text_ne_nil
  have hchar : ∀ d ∈ (n.text ++ rest).head?, IsNumeralChar d := by
    rw [hc]
    rintro d hd
    obtain rfl := Option.some.inj hd
    exact isNumeralChar_of_mem (by rw [hc]; exact List.mem_cons_self)
  rw [readFloat?_eq_readDecimal? hchar, readDecimal?_text false h hends]
  rfl

/-- A numeral alone reads as a number just if it is good. -/
lemma readFloat?_eq_some_iff {x : Float} : readFloat? n.text = some x ↔ n.Good ∧ x = n.value := by
  have hread (h : n.Good) : readFloat? n.text = some n.value := by
    have hread := readFloat?_text h (ends_nil n)
    rwa [List.append_nil] at hread
  constructor
  · intro h
    have hgood : n.Good := by
      have hchar : ∀ c ∈ n.text.head?, IsNumeralChar c := fun c hc =>
        isNumeralChar_of_mem (List.mem_of_mem_head? hc)
      rw [readFloat?_eq_readDecimal? hchar] at h
      obtain ⟨m, rest, exponent, htext, hm, hexponent⟩ := exists_good_of_readDecimal? h
      -- no letter is in a numeral, and so there is no exponent
      have hrest : rest = [] := by
        rcases rest with _ | ⟨c, rest⟩
        · rfl
        · have hc : IsNumeralChar c := isNumeralChar_of_mem (by rw [htext]; simp)
          rcases head_of_readExponent? hexponent c rfl with rfl | rfl
          · exact absurd rfl (hc.ne (d := 'e') (by decide) (by decide))
          · exact absurd rfl (hc.ne (d := 'E') (by decide) (by decide))
      rw [hrest, List.append_nil] at htext
      exact good_iff_text.2 (by rw [htext]; exact good_iff_text.1 hm)
    exact ⟨hgood, Option.some.inj (h.symm.trans (hread hgood))⟩
  · rintro ⟨hgood, rfl⟩
    exact hread hgood

/-- What the numeral of a text reads as. -/
lemma exists_value {x : Float} (h : readFloat? (takeNumeral s) = some x) :
    ∃ n : Numeral, n.Good ∧ x = n.value := by
  obtain ⟨n, rest, rfl, hends⟩ := exists_ends s
  rw [takeNumeral_text hends] at h
  exact ⟨n, readFloat?_eq_some_iff.1 h⟩

end Numeral

end RenderLayout.Number
