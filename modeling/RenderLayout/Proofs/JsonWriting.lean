import RenderLayout.Proofs.JsonReading
import RenderLayout.Proofs.LayoutNumbers

/-!
What is spelled by the texts that are written for a JSON value.

The text without blanks and the one with an item a line spell the same syntax tree, whose value is
the one that was written, with the members of objects in the order of their keys. This holds of
values without floats, which a text does not always give back. No blank is written in canonical text
for any value but within a string.
-/

namespace RenderLayout.Json

open Number Reader

variable {s t : List Char}

/-! ### Strings -/

lemma charSpelled_escapeChar (c : Char) (t : List Char) : CharSpelled c (escapeChar c ++ t) t := by
  have hcode {n : Nat} (hn : c.toNat = n) : c = Char.ofNat n := by rw [← hn, Char.ofNat_toNat]
  have hhex : ∀ n < 32, IsHex4 n ['0', '0', hexDigit (n / 16), hexDigit n] := by
    unfold IsHex4
    decide
  unfold escapeChar
  split_ifs with hquote hslash hline hreturn htab hback hfeed hcontrol
  · rw [hquote]; exact .letter (by decide)
  · rw [hslash]; exact .letter (by decide)
  · rw [hline]; exact .letter (by decide)
  · rw [hreturn]; exact .letter (by decide)
  · rw [htab]; exact .letter (by decide)
  · rw [hcode hback]; exact .letter (by decide)
  · rw [hcode hfeed]; exact .letter (by decide)
  · exact .code (hhex _ hcontrol)
  · exact .itself hquote hslash (by omega)

lemma stringSpelled_escaped (cs t : List Char) :
    StringSpelled cs (cs.flatMap escapeChar ++ '"' :: t) t := by
  induction cs with
  | nil => exact .nil
  | cons c cs ih =>
    rw [List.flatMap_cons, List.append_assoc]
    exact .cons (charSpelled_escapeChar c _) ih

lemma quote_append (s : String) (t : List Char) :
    quote s ++ t = '"' :: (s.toList.flatMap escapeChar ++ '"' :: t) := by
  simp [quote]

/-! ### Whole numbers -/

lemma head?_digitsOf_ne {n : Nat} (h : 0 < n) : (digitsOf n).head? ≠ some '0' := by
  induction n using Nat.base_induction 10 (by decide) with
  | single m hm =>
    rw [digitsOf, Nat.toDigits_of_lt_base hm]
    simpa using h.ne'
  | digit m k hk hm ih =>
    rw [digitsOf, ← Nat.toDigits_append_toDigits (by decide) hm hk,
      List.head?_append_of_ne_nil _ Nat.toDigits_ne_nil]
    exact ih hm

/-- A whole number as it is written. -/
def Literal.ofInt (n : Int) : Literal where
  negative := n < 0
  whole := digitsOf n.natAbs
  decimals := none
  exponent := none
  some_digit := Nat.toDigits_ne_nil
  are_digits := areDigits_digitsOf _
  no_zero h := by
    rcases Nat.eq_zero_or_pos n.natAbs with hzero | hpos
    · rw [hzero]
      rfl
    · exact absurd h (head?_digitsOf_ne hpos)
  some_decimal := nofun
  are_decimals := nofun

lemma Literal.text_ofInt (n : Int) : (Literal.ofInt n).text = renderInt n := by
  show signed (n < 0) (digitsOf n.natAbs ++ []) = renderInt n
  rw [List.append_nil]
  rfl

lemma absorbDigits_eq {run : List Char} {n : Nat} (h : Nat.ofDigitChars 10 run n ≤ greatestWord) :
    absorbDigits n run = (Nat.ofDigitChars 10 run n, 0) := by
  induction run generalizing n with
  | nil => rfl
  | cons d run ih =>
    rw [Nat.ofDigitChars_cons] at h ⊢
    have hgrown : 10 * n + (d.toNat - '0'.toNat) ≤ greatestWord := by
      refine le_trans ?_ h
      rw [Nat.ofDigitChars_eq_ofDigitChars_zero]
      exact (Nat.le_mul_of_pos_left _ (by positivity)).trans (Nat.le_add_right _ _)
    rw [absorbDigits, if_neg hgrown.not_gt, ih h]

lemma Literal.value?_ofInt {n : Int} (hlow : -2 ^ 63 ≤ n) (hhigh : n < 2 ^ 64) :
    (Literal.ofInt n).value? = some (.int n) := by
  have hdigits : Nat.ofDigitChars 10 (digitsOf n.natAbs) 0 = n.natAbs := ofDigits_digitsOf n.natAbs
  have hword : n.natAbs ≤ greatestWord := by
    rw [show greatestWord = 2 ^ 64 - 1 from rfl]
    omega
  have habsorb := absorbDigits_eq (hdigits.le.trans hword)
  rw [hdigits] at habsorb
  show (if (absorbDigits 0 (digitsOf n.natAbs)).2 = 0 then
    some (wholeNumber (n < 0) (absorbDigits 0 (digitsOf n.natAbs)).1) else _) = _
  rw [habsorb, if_pos rfl]
  congr 1
  unfold wholeNumber
  by_cases hn : n < 0
  · rw [if_neg (by simpa using hn), if_neg (by rw [show 1 <<< 63 = 2 ^ 63 from rfl]; omega)]
    congr 1
    omega
  · rw [if_pos (by simpa using hn)]
    congr 1
    omega

/-! ### Trees -/

mutual

/-- The syntax tree that is written for a value, with a null in place of a float. -/
def Tree.ofJson : Json → Tree .value
  | .null => .null
  | .bool value => .bool value
  | .int n => .number (.ofInt n)
  | .float _ => .null
  | .str s => .str s
  | .arr items => .arr (Tree.ofItems items)
  | .obj members => .obj (Tree.ofMembers members)
termination_by structural v => v

def Tree.ofItems : List Json → Tree .items
  | [] => .noItems
  | v :: items => .item (Tree.ofJson v) (Tree.ofItems items)
termination_by structural items => items

def Tree.ofMembers : List (String × Json) → Tree .members
  | [] => .noMembers
  | m :: members => Tree.ofMember m (Tree.ofMembers members)
termination_by structural members => members

/-- A member in front of others. -/
def Tree.ofMember : String × Json → Tree .members → Tree .members
  | (key, v) => .member key (Tree.ofJson v)
termination_by structural m => m

end

/-- A value without floats, which a text does not always give back. -/
inductive Floatless : Json → Prop
  | null : Floatless .null
  | bool (value : Bool) : Floatless (.bool value)
  | int (n : Int) : Floatless (.int n)
  | str (s : String) : Floatless (.str s)
  | arr {items : List Json} (hitems : ∀ v ∈ items, Floatless v) : Floatless (.arr items)
  | obj {members : List (String × Json)} (hmembers : ∀ m ∈ members, Floatless m.2) :
      Floatless (.obj members)

/-- A value without floats in which lists and objects nest at most so deep: whole numbers fit 64
bits, with or without a sign, and the members of objects are in the order of their keys. -/
inductive Plain : Nat → Json → Prop
  | null {depth : Nat} : Plain depth .null
  | bool {depth : Nat} (value : Bool) : Plain depth (.bool value)
  | int {depth : Nat} {n : Int} (hlow : -2 ^ 63 ≤ n) (hhigh : n < 2 ^ 64) : Plain depth (.int n)
  | str {depth : Nat} (s : String) : Plain depth (.str s)
  | arr {depth : Nat} {items : List Json} (hitems : ∀ v ∈ items, Plain depth v) :
      Plain (depth + 1) (.arr items)
  | obj {depth : Nat} {members : List (String × Json)} (hkeys : Increasing members)
      (hmembers : ∀ m ∈ members, Plain depth m.2) : Plain (depth + 1) (.obj members)

lemma Plain.floatless {depth : Nat} {v : Json} (h : Plain depth v) : Floatless v := by
  induction h with
  | null => exact .null
  | bool value => exact .bool value
  | int => exact .int _
  | str s => exact .str s
  | arr _ ih => exact .arr ih
  | obj _ _ ih => exact .obj ih

/-! ### Texts without blanks -/

lemma spelled_renderItems {items : List Json}
    (h : ∀ v ∈ items, ∀ t, Spelled true (.ofJson v) (renderChars v ++ t) t) (t : List Char) :
    Spelled false (.ofItems items) (renderItems items ++ t) t := by
  induction items with
  | nil => exact .noItems (Blanks.refl _)
  | cons v items ih =>
    rw [List.forall_mem_cons] at h
    rw [renderItems, List.append_assoc]
    exact .item ⟨_, Blanks.refl _, Blanks.refl _⟩ (h.1 _) (ih h.2)

lemma renderMember_append (key : String) (v : Json) (t : List Char) :
    renderMember (key, v) ++ t =
      '"' :: (key.toList.flatMap escapeChar ++ '"' :: ':' :: (renderChars v ++ t)) := by
  rw [renderMember, List.append_assoc, quote_append, List.cons_append]

lemma spelled_renderMembers {members : List (String × Json)}
    (h : ∀ m ∈ members, ∀ t, Spelled true (.ofJson m.2) (renderChars m.2 ++ t) t) (t : List Char) :
    Spelled false (.ofMembers members) (renderMembers members ++ t) t := by
  induction members with
  | nil => exact .noMembers (Blanks.refl _)
  | cons m members ih =>
    obtain ⟨key, v⟩ := m
    rw [List.forall_mem_cons] at h
    rw [renderMembers, List.append_assoc, List.cons_append, renderMember_append]
    exact .member ⟨_, Blanks.refl _, Blanks.refl _⟩ (stringSpelled_escaped _ _) (Blanks.refl _)
      (Blanks.refl _) (h.1 _) (ih h.2)

/-- **The text of a value spells it.** -/
theorem Floatless.spelled_render {v : Json} (h : Floatless v) (t : List Char) :
    Spelled true (.ofJson v) (renderChars v ++ t) t := by
  induction h generalizing t with
  | null => exact .null
  | bool value => cases value <;> exact .bool _
  | int n =>
    rw [renderChars, ← Literal.text_ofInt]
    exact .number _
  | str s =>
    rw [renderChars, quote_append]
    exact .str (stringSpelled_escaped _ t)
  | @arr items _ ih =>
    cases items with
    | nil => exact .arr (.noItems (Blanks.refl _))
    | cons v items =>
      rw [List.forall_mem_cons] at ih
      rw [renderChars, List.append_assoc]
      exact .arr (.item (Blanks.refl _) (ih.1 _) (spelled_renderItems ih.2 t))
  | @obj members _ ih =>
    cases members with
    | nil => exact .obj (.noMembers (Blanks.refl _))
    | cons m members =>
      obtain ⟨key, v⟩ := m
      rw [List.forall_mem_cons] at ih
      rw [renderChars, List.append_assoc, List.cons_append, renderMember_append]
      exact .obj (.member (Blanks.refl _) (stringSpelled_escaped _ _) (Blanks.refl _)
        (Blanks.refl _) (ih.1 _) (spelled_renderMembers ih.2 t))

/-! ### Texts with an item a line -/

lemma blanks_indented (depth : Nat) (t : List Char) : Blanks (indented depth ++ t) t := by
  refine ⟨indented depth, fun c hc => ?_, rfl⟩
  rcases List.mem_cons.1 hc with rfl | hc
  · rfl
  · rw [List.eq_of_mem_replicate hc]
    rfl

lemma separated_indented (depth : Nat) (t : List Char) :
    Separated false (',' :: (indented depth ++ t)) t :=
  ⟨_, Blanks.refl _, blanks_indented depth t⟩

lemma spelled_prettyItems {depth : Nat} {items : List Json}
    (h : ∀ v ∈ items, ∀ t, Spelled true (.ofJson v) (prettyChars (depth + 1) v ++ t) t)
    (t : List Char) : Spelled false (.ofItems items) (prettyItems depth items ++ t) t := by
  induction items with
  | nil =>
    rw [prettyItems, List.append_assoc]
    exact .noItems (blanks_indented depth _)
  | cons v items ih =>
    rw [List.forall_mem_cons] at h
    rw [prettyItems, List.append_assoc, List.append_assoc]
    exact .item (separated_indented _ _) (h.1 _) (ih h.2)

lemma prettyMember_append (depth : Nat) (key : String) (v : Json) (t : List Char) :
    prettyMember depth (key, v) ++ t =
      '"' :: (key.toList.flatMap escapeChar ++
        '"' :: ':' :: ' ' :: (prettyChars depth v ++ t)) := by
  rw [prettyMember, List.append_assoc, quote_append, List.cons_append, List.cons_append]

lemma blanks_blank (t : List Char) : Blanks (' ' :: t) t := ⟨[' '], by simp [isBlank], rfl⟩

lemma spelled_prettyMembers {depth : Nat} {members : List (String × Json)}
    (h : ∀ m ∈ members, ∀ t, Spelled true (.ofJson m.2) (prettyChars (depth + 1) m.2 ++ t) t)
    (t : List Char) : Spelled false (.ofMembers members) (prettyMembers depth members ++ t) t := by
  induction members with
  | nil =>
    rw [prettyMembers, List.append_assoc]
    exact .noMembers (blanks_indented depth _)
  | cons m members ih =>
    obtain ⟨key, v⟩ := m
    rw [List.forall_mem_cons] at h
    rw [prettyMembers, List.append_assoc, List.append_assoc, prettyMember_append]
    exact .member (separated_indented _ _) (stringSpelled_escaped _ _) (Blanks.refl _)
      (blanks_blank _) (h.1 _) (ih h.2)

/-- **The text of a value with an item a line** spells the same. -/
theorem Floatless.spelled_pretty {v : Json} (h : Floatless v) (depth : Nat) (t : List Char) :
    Spelled true (.ofJson v) (prettyChars depth v ++ t) t := by
  induction h generalizing depth t with
  | null => exact Floatless.null.spelled_render t
  | bool value => exact (Floatless.bool value).spelled_render t
  | int n => exact (Floatless.int n).spelled_render t
  | str s => exact (Floatless.str s).spelled_render t
  | @arr items _ ih =>
    cases items with
    | nil => exact .arr (.noItems (Blanks.refl _))
    | cons v items =>
      rw [List.forall_mem_cons] at ih
      rw [prettyChars, List.append_assoc, List.append_assoc]
      exact .arr (.item (blanks_indented _ _) (ih.1 _ _)
        (spelled_prettyItems (fun v hv => ih.2 v hv _) t))
  | @obj members _ ih =>
    cases members with
    | nil => exact .obj (.noMembers (Blanks.refl _))
    | cons m members =>
      obtain ⟨key, v⟩ := m
      rw [List.forall_mem_cons] at ih
      rw [prettyChars, List.append_assoc, List.append_assoc, prettyMember_append]
      exact .obj (.member (blanks_indented _ _) (stringSpelled_escaped _ _) (Blanks.refl _)
        (blanks_blank _) (ih.1 _ _) (spelled_prettyMembers (fun m hm => ih.2 m hm _) t))

/-- A text with one item a line, and blanks behind it, spells its value. -/
lemma Floatless.spells_pretty {v : Json} (h : Floatless v) :
    Spells (.ofJson v) (v.pretty ++ "\n") := by
  have hline : Blanks ['\n'] [] := ⟨['\n'], by simp [isBlank], rfl⟩
  refine ⟨prettyChars 0 v ++ ['\n'], ['\n'], ?_, h.spelled_pretty 0 _, hline⟩
  rw [pretty, String.toList_append, String.toList_ofList]
  exact Blanks.refl _

/-! ### Values of trees -/

/-- The keys of what members stand for. -/
lemma Tree.keys_meaning? {depth : Nat} {l : List (String × Json)} :
    ∀ (members : Tree .members), members.meaning? depth = some l → l.map (·.1) = members.keys
  | .noMembers, h => by
    obtain rfl := Option.some.inj h
    rfl
  | .member key value members, h => by
    rw [Tree.meaning?] at h
    obtain ⟨v, -, h⟩ := Option.bind_eq_some_iff.1 h
    obtain ⟨ms, hms, rfl⟩ := Option.map_eq_some_iff.1 h
    rw [List.map_cons, Tree.keys, keys_meaning? members hms]

lemma object_of_increasing {members : List (String × Json)} (h : Increasing members) :
    object members = .obj members := by
  rw [object_eq, Table.ofList_pairs ⟨members, h⟩]

lemma meaning?_ofItems {depth : Nat} {items : List Json}
    (h : ∀ v ∈ items, (Tree.ofJson v).meaning? depth = some v) :
    (Tree.ofItems items).meaning? depth = some items := by
  induction items with
  | nil => rfl
  | cons v items ih =>
    rw [List.forall_mem_cons] at h
    rw [Tree.ofItems, Tree.meaning?, h.1, ih h.2]
    rfl

lemma meaning?_ofMembers {depth : Nat} {members : List (String × Json)}
    (h : ∀ m ∈ members, (Tree.ofJson m.2).meaning? depth = some m.2) :
    (Tree.ofMembers members).meaning? depth = some members := by
  induction members with
  | nil => rfl
  | cons m members ih =>
    obtain ⟨key, v⟩ := m
    rw [List.forall_mem_cons] at h
    rw [Tree.ofMembers, Tree.ofMember, Tree.meaning?, h.1, ih h.2]
    rfl

/-- The tree that is written for a value stands for it. -/
lemma Plain.meaning?_ofJson {depth : Nat} {v : Json} (h : Plain depth v) :
    (Tree.ofJson v).meaning? depth = some v := by
  induction h with
  | null => rw [Tree.ofJson, Tree.meaning?]
  | bool value => rw [Tree.ofJson, Tree.meaning?]
  | int hlow hhigh => rw [Tree.ofJson, Tree.meaning?, Literal.value?_ofInt hlow hhigh]
  | str s => rw [Tree.ofJson, Tree.meaning?]
  | arr _ ih =>
    rw [Tree.ofJson, Tree.meaning?, meaning?_ofItems ih]
    rfl
  | obj hkeys _ ih =>
    rw [Tree.ofJson, Tree.meaning?, meaning?_ofMembers ih, ← object_of_increasing hkeys]
    rfl

lemma keysIncreasing_ofItems {items : List Json}
    (h : ∀ v ∈ items, (Tree.ofJson v).KeysIncreasing) : (Tree.ofItems items).KeysIncreasing := by
  induction items with
  | nil => trivial
  | cons v items ih =>
    rw [List.forall_mem_cons] at h
    exact ⟨h.1, ih h.2⟩

lemma keysIncreasing_ofMembers {members : List (String × Json)}
    (h : ∀ m ∈ members, (Tree.ofJson m.2).KeysIncreasing) :
    (Tree.ofMembers members).KeysIncreasing := by
  induction members with
  | nil => trivial
  | cons m members ih =>
    obtain ⟨key, v⟩ := m
    rw [List.forall_mem_cons] at h
    exact ⟨h.1, ih h.2⟩

lemma keys_ofMembers (members : List (String × Json)) :
    (Tree.ofMembers members).keys = members.map (·.1) := by
  induction members with
  | nil => rfl
  | cons m members ih =>
    obtain ⟨key, v⟩ := m
    rw [Tree.ofMembers, Tree.ofMember, Tree.keys, ih]
    rfl

/-- The keys of every object are written in order. -/
lemma Plain.keysIncreasing_ofJson {depth : Nat} {v : Json} (h : Plain depth v) :
    (Tree.ofJson v).KeysIncreasing := by
  induction h with
  | null | bool | int | str => trivial
  | arr _ ih => exact keysIncreasing_ofItems ih
  | obj hkeys _ ih =>
    refine ⟨?_, keysIncreasing_ofMembers ih⟩
    rw [keys_ofMembers]
    exact List.pairwise_map.2 hkeys

/-! ### Blanks -/

/-- What a part of a text adds to what stands outside of strings is free of blanks. -/
def Tight (s : List Char) : Prop :=
  ∃ shown, (∀ rest, unquoted .outside (s ++ rest) = shown ++ unquoted .outside rest) ∧
    ∀ c ∈ shown, Text.isBlank c = false

lemma Tight.append (hs : Tight s) (ht : Tight t) : Tight (s ++ t) := by
  obtain ⟨shown, hs, hblank⟩ := hs
  obtain ⟨shown', ht, hblank'⟩ := ht
  refine ⟨shown ++ shown', fun rest => ?_, fun c hc => ?_⟩
  · rw [List.append_assoc, hs, ht, List.append_assoc]
  · exact (List.mem_append.1 hc).elim (hblank c) (hblank' c)

/-- Printed characters other than the quotation mark. -/
lemma tight_printed (h : ∀ c ∈ s, 35 ≤ c.toNat ∧ c.toNat ≤ 126) : Tight s := by
  refine ⟨s, unquoted_append fun hquote => ?_, fun c hc => ?_⟩
  · exact absurd (h _ hquote).1 (by decide)
  · exact Text.isBlank_of_printed (by have := h c hc; omega) (h c hc).2

lemma tight_number (h : ∀ c ∈ s, IsNumberChar c) : Tight s := by
  refine tight_printed fun c hc => ?_
  rcases h c hc with (hdigit | rfl) | hmark
  · simp only [Char.isDigit, Bool.and_eq_true, decide_eq_true_iff] at hdigit
    have hlow : 48 ≤ c.toNat := hdigit.1
    have hhigh : c.toNat ≤ 57 := hdigit.2
    omega
  · decide
  · simp only [List.mem_cons, List.not_mem_nil, or_false] at hmark
    rcases hmark with rfl | rfl | rfl <;> decide

lemma tight_quote (s : String) : Tight (quote s) := ⟨[], unquoted_quote s, nofun⟩

lemma tight_mark (hs : Tight s) {c : Char} (hc : 35 ≤ c.toNat ∧ c.toNat ≤ 126) :
    Tight (c :: s) := by
  have hmark : Tight [c] := tight_printed (by simpa using hc)
  exact hmark.append hs

mutual

lemma tight_renderChars (v : Json) : Tight (renderChars v) := by
  cases v with
  | null => exact tight_printed (by simp [renderChars])
  | bool value =>
    cases value with
    | true => exact tight_printed (by simp [renderChars])
    | false => exact tight_printed (by simp [renderChars])
  | int n => exact tight_number (isNumberChar_signed fun d hd => isNumberChar_digitsOf hd)
  | float x =>
    by_cases h : x.isFinite = true
    · exact tight_number (isNumberChar_renderFloat h)
    · rw [renderChars, renderFloat_of_not_isFinite h]
      exact tight_printed (by simp)
  | str s => exact tight_quote s
  | arr items =>
    cases items with
    | nil => exact tight_printed (by simp [renderChars])
    | cons item items =>
      exact tight_mark ((tight_renderChars item).append (tight_renderItems items)) (by decide)
  | obj members =>
    cases members with
    | nil => exact tight_printed (by simp [renderChars])
    | cons member members =>
      exact tight_mark ((tight_renderMember member).append (tight_renderMembers members))
        (by decide)

lemma tight_renderItems (items : List Json) : Tight (renderItems items) := by
  cases items with
  | nil => exact tight_printed (by simp [renderItems])
  | cons item items =>
    exact tight_mark ((tight_renderChars item).append (tight_renderItems items)) (by decide)

lemma tight_renderMembers (members : List (String × Json)) : Tight (renderMembers members) := by
  cases members with
  | nil => exact tight_printed (by simp [renderMembers])
  | cons member members =>
    exact tight_mark ((tight_renderMember member).append (tight_renderMembers members)) (by decide)

lemma tight_renderMember (m : String × Json) : Tight (renderMember m) := by
  obtain ⟨key, value⟩ := m
  rw [renderMember]
  exact (tight_quote key).append (tight_mark (tight_renderChars value) (by decide))

end

/-- **No blank is written** outside of strings. -/
theorem not_isBlank_of_mem_unquoted {v : Json} {c : Char}
    (h : c ∈ unquoted .outside v.render.toList) : Text.isBlank c = false := by
  obtain ⟨shown, hshown, hblank⟩ := tight_renderChars v
  have htext := hshown []
  rw [List.append_nil, unquoted, List.append_nil] at htext
  rw [render, String.toList_ofList, htext] at h
  exact hblank c h

end RenderLayout.Json
