import RenderLayout.Json.Writer
import RenderLayout.Proofs.DecimalText

/-!
Which JSON texts hold a null.

A null is a word outside of all strings. It is written for the value null and for every float that
is not finite, and nothing else that stands outside of strings has an `n`. So a text holds a null
if and only if its value holds one of these.
-/

namespace RenderLayout

/-! ### Floats -/

namespace Number

/-- A character of a number. -/
def IsNumberChar (c : Char) : Prop := IsPlaceChar c ∨ c ∈ ['-', '+', 'e']

lemma not_isNumberChar {c : Char} (h : c ∈ ['n', '"']) : ¬ IsNumberChar c := by
  simp only [List.mem_cons, List.not_mem_nil, or_false] at h
  rcases h with rfl | rfl <;> simp [IsNumberChar, IsPlaceChar]

lemma isNumberChar_digitsOf {n : Nat} {c : Char} (h : c ∈ digitsOf n) : IsNumberChar c :=
  Or.inl (Or.inl (areDigits_digitsOf n c h))

lemma isNumberChar_signed {negative : Bool} {text : List Char}
    (h : ∀ c ∈ text, IsNumberChar c) : ∀ c ∈ signed negative text, IsNumberChar c := by
  cases negative with
  | false => exact h
  | true =>
    intro c hc
    rcases List.mem_cons.1 hc with rfl | hc
    · exact Or.inr (by decide)
    · exact h c hc

lemma isNumberChar_withExponent (n : Nat) (exponent : Int) :
    ∀ c ∈ withExponent (digitsOf n) exponent, IsNumberChar c := by
  have hdigits := areDigits_digitsOf n
  intro c hc
  rcases List.mem_append.1 hc with hc | hc
  · split at hc
    case h_1 first second rest hsome =>
      rw [hsome] at hdigits
      simp only [List.mem_cons] at hc
      rcases hc with rfl | rfl | rfl | hc
      · exact Or.inl (Or.inl (hdigits _ (by simp)))
      · exact Or.inl (Or.inr rfl)
      · exact Or.inl (Or.inl (hdigits _ (by simp)))
      · exact Or.inl (Or.inl (hdigits _ (by simp [hc])))
    case h_2 => exact Or.inl (Or.inl (hdigits c hc))
  · simp only [List.mem_cons] at hc
    rcases hc with rfl | rfl | hc
    · exact Or.inr (by decide)
    · split <;> exact Or.inr (by decide)
    · exact isNumberChar_digitsOf hc

lemma isNumberChar_inPlaces (n : Nat) (exponent : Int) :
    ∀ c ∈ inPlaces ['.', '0'] (digitsOf n) exponent, IsNumberChar c := by
  have hplaces := (inPlaces_chars n exponent).2
  unfold inPlaces at hplaces ⊢
  split at hplaces
  case isTrue h =>
    rw [if_pos h]
    intro c hc
    rcases List.mem_append.1 hc with hc | hc
    · exact Or.inl (hplaces c (by simpa using hc))
    · simp only [List.mem_cons, List.not_mem_nil, or_false] at hc
      rcases hc with rfl | rfl
      · exact Or.inl (Or.inr rfl)
      · exact Or.inl (Or.inl (by decide))
  case isFalse h =>
    rw [if_neg h]
    exact fun c hc => Or.inl (hplaces c hc)

lemma isNumberChar_layOut (decimal : Decimal) :
    ∀ c ∈ Format.scientific.layOut decimal, IsNumberChar c := by
  unfold Format.layOut Format.scientific
  dsimp only
  split
  · exact isNumberChar_inPlaces decimal.digits decimal.exponent
  · exact isNumberChar_withExponent decimal.digits _

end Number

namespace Json

open Number

/-- A finite float is written as a number. -/
lemma isNumberChar_renderFloat {x : Float} (h : x.isFinite = true) :
    ∀ c ∈ renderFloat x, IsNumberChar c := by
  obtain ⟨negative, mantissa, scale, hx, -, -⟩ := ofFloat_of_isFinite h
  unfold renderFloat Format.write
  rw [hx]
  exact isNumberChar_signed (isNumberChar_layOut _)

lemma renderFloat_of_not_isFinite {x : Float} (h : ¬ x.isFinite = true) :
    renderFloat x = "null".toList := by
  unfold renderFloat
  split
  case h_1 negative mantissa scale hx => exact absurd hx (ofFloat_ne_finite h _ _ _)
  case h_2 => rfl

/-! ### Texts without their strings -/

/-- Where a reader of a text stands: outside of its strings, within one, or behind a backslash. -/
inductive Quotation where
  | outside
  | within
  | escaped

/-- What stands outside of the strings of a text. -/
def unquoted : Quotation → List Char → List Char
  | _, [] => []
  | .outside, c :: s => if c = '"' then unquoted .within s else c :: unquoted .outside s
  | .within, c :: s =>
    unquoted (if c = '"' then .outside else if c = '\\' then .escaped else .within) s
  | .escaped, _ :: s => unquoted .within s

/-- A null stands outside of the strings of a text. -/
def HasNull (text : String) : Prop := "null".toList <:+: unquoted .outside text.toList

instance (text : String) : Decidable (HasNull text) :=
  inferInstanceAs (Decidable (_ <:+: _))

/-- What a part of a text adds to what stands outside of strings: nothing with an `n`, or else a
null. -/
def Shows (free : Bool) (s : List Char) : Prop :=
  ∃ shown, (∀ rest, unquoted .outside (s ++ rest) = shown ++ unquoted .outside rest) ∧
    (free = true → 'n' ∉ shown) ∧ (free = false → "null".toList <:+: shown)

lemma Shows.append {free free' : Bool} {s t : List Char} (hs : Shows free s)
    (ht : Shows free' t) : Shows (free && free') (s ++ t) := by
  obtain ⟨shown, hs, hfree, hnull⟩ := hs
  obtain ⟨shown', ht, hfree', hnull'⟩ := ht
  refine ⟨shown ++ shown', fun rest => ?_, fun h => ?_, fun h => ?_⟩
  · rw [List.append_assoc, hs, ht, List.append_assoc]
  · rw [Bool.and_eq_true] at h
    rw [List.mem_append, not_or]
    exact ⟨hfree h.1, hfree' h.2⟩
  · rcases Bool.and_eq_false_iff.1 h with h | h
    · exact (hnull h).trans List.infix_append_left
    · exact (hnull' h).trans List.infix_append_right

lemma unquoted_append {s : List Char} (h : '"' ∉ s) (rest : List Char) :
    unquoted .outside (s ++ rest) = s ++ unquoted .outside rest := by
  induction s with
  | nil => rfl
  | cons c s ih =>
    rw [List.mem_cons, not_or] at h
    rw [List.cons_append, unquoted, if_neg (Ne.symm h.1), ih h.2, List.cons_append]

lemma shows_plain {s : List Char} (hword : 'n' ∉ s) (hquote : '"' ∉ s) : Shows true s :=
  ⟨s, unquoted_append hquote, fun _ => hword, nofun⟩

lemma shows_number {s : List Char} (h : ∀ c ∈ s, IsNumberChar c) : Shows true s :=
  shows_plain (fun hc => not_isNumberChar (by simp) (h _ hc))
    fun hc => not_isNumberChar (by simp) (h _ hc)

lemma shows_null : Shows false "null".toList :=
  ⟨"null".toList, unquoted_append (by decide), nofun, fun _ => List.infix_rfl⟩

lemma hexDigit_ne (n : Nat) : hexDigit n ≠ '"' ∧ hexDigit n ≠ '\\' := by
  have hsmall : ∀ m < 16, hexDigit m ≠ '"' ∧ hexDigit m ≠ '\\' := by decide
  have hmod : hexDigit n = hexDigit (n % 16) := by simp [hexDigit]
  rw [hmod]
  exact hsmall _ (Nat.mod_lt n (by decide))

/-- An escaped character does not end the string that it is in. -/
lemma unquoted_escapeChar (c : Char) (rest : List Char) :
    unquoted .within (escapeChar c ++ rest) = unquoted .within rest := by
  unfold escapeChar
  split_ifs with hquote hslash
  case neg =>
    simp [unquoted, hquote, hslash]
  all_goals simp [unquoted, hexDigit_ne]

/-- A string shows nothing outside of strings. -/
lemma unquoted_quote (s : String) (rest : List Char) :
    unquoted .outside (quote s ++ rest) = unquoted .outside rest := by
  have hinner : ∀ (chars rest : List Char),
      unquoted .within (chars.flatMap escapeChar ++ rest) = unquoted .within rest := by
    intro chars rest
    induction chars with
    | nil => rfl
    | cons c chars ih => rw [List.flatMap_cons, List.append_assoc, unquoted_escapeChar, ih]
  rw [quote, List.cons_append, List.cons_append, unquoted, if_pos rfl, List.append_assoc, hinner]
  rfl

lemma shows_quote (s : String) : Shows true (quote s) :=
  ⟨[], unquoted_quote s, fun _ => List.not_mem_nil, nofun⟩

/-! ### Values -/

mutual

/-- A value holds neither null nor a float that is not finite. -/
def nullFree : Json → Bool
  | .null => false
  | .float x => x.isFinite
  | .arr items => nullFreeItems items
  | .obj members => nullFreeMembers members
  | _ => true
termination_by structural v => v

def nullFreeItems : List Json → Bool
  | [] => true
  | item :: items => item.nullFree && nullFreeItems items
termination_by structural items => items

def nullFreeMembers : List (String × Json) → Bool
  | [] => true
  | member :: members => nullFreeMember member && nullFreeMembers members
termination_by structural members => members

def nullFreeMember : String × Json → Bool
  | (_, value) => value.nullFree
termination_by structural m => m

end

lemma shows_mark {free : Bool} {s : List Char} (h : Shows free s) {c : Char}
    (hc : c ∉ ['n', '"']) : Shows free (c :: s) := by
  simp only [List.mem_cons, List.not_mem_nil, or_false, not_or] at hc
  have hmark : Shows true [c] :=
    shows_plain (by simpa using Ne.symm hc.1) (by simpa using Ne.symm hc.2)
  simpa using hmark.append h

mutual

lemma shows_renderChars (v : Json) : Shows v.nullFree (renderChars v) := by
  cases v with
  | null => exact shows_null
  | bool value =>
    cases value with
    | true =>
      rw [nullFree, renderChars]
      · exact shows_plain (by decide) (by decide)
      all_goals nofun
    | false =>
      rw [nullFree, renderChars]
      · exact shows_plain (by decide) (by decide)
      all_goals nofun
  | int n =>
    exact shows_number (isNumberChar_signed fun d hd => isNumberChar_digitsOf hd)
  | float x =>
    by_cases h : x.isFinite = true
    · rw [nullFree, h]
      exact shows_number (isNumberChar_renderFloat h)
    · rw [nullFree, Bool.eq_false_of_not_eq_true h, renderChars, renderFloat_of_not_isFinite h]
      exact shows_null
  | str s => exact shows_quote s
  | arr items =>
    cases items with
    | nil =>
      rw [nullFree, nullFreeItems, renderChars]
      exact shows_plain (by decide) (by decide)
    | cons item items =>
      exact shows_mark ((shows_renderChars item).append (shows_renderItems items)) (by decide)
  | obj members =>
    cases members with
    | nil =>
      rw [nullFree, nullFreeMembers, renderChars]
      exact shows_plain (by decide) (by decide)
    | cons member members =>
      exact shows_mark ((shows_renderMember member).append (shows_renderMembers members))
        (by decide)

lemma shows_renderItems (items : List Json) : Shows (nullFreeItems items) (renderItems items) := by
  cases items with
  | nil =>
    rw [nullFreeItems, renderItems]
    exact shows_plain (by decide) (by decide)
  | cons item items =>
    exact shows_mark ((shows_renderChars item).append (shows_renderItems items)) (by decide)

lemma shows_renderMembers (members : List (String × Json)) :
    Shows (nullFreeMembers members) (renderMembers members) := by
  cases members with
  | nil =>
    rw [nullFreeMembers, renderMembers]
    exact shows_plain (by decide) (by decide)
  | cons member members =>
    exact shows_mark ((shows_renderMember member).append (shows_renderMembers members)) (by decide)

lemma shows_renderMember (m : String × Json) : Shows (nullFreeMember m) (renderMember m) := by
  obtain ⟨key, value⟩ := m
  have h := (shows_quote key).append (shows_mark (shows_renderChars value) (by decide : ':' ∉ _))
  rw [Bool.true_and] at h
  rw [nullFreeMember, renderMember]
  exact h

end

/-- **A text holds a null** exactly if its value holds null or a float that is not finite. -/
theorem hasNull_render_iff (v : Json) : HasNull v.render ↔ v.nullFree = false := by
  obtain ⟨shown, hshown, hfree, hnull⟩ := shows_renderChars v
  have htext : unquoted .outside v.render.toList = shown := by
    have h := hshown []
    rw [List.append_nil] at h
    rw [render, String.toList_ofList, h, unquoted, List.append_nil]
  unfold HasNull
  rw [htext]
  constructor
  · intro hword
    by_contra h
    exact hfree (by simpa using h) (hword.subset (by decide))
  · exact hnull

end Json

end RenderLayout
