import Mathlib.Data.List.TakeWhile
import Mathlib.Tactic.Common
import RenderLayout.Text.Blank
import RenderLayout.Text.Digit
import RenderLayout.Text.Search

/-!
Texts and their parts: the run at the front of a text, its lines, the blanks around it, and the first
place in it where something stands.
-/

namespace RenderLayout.Text

/-! ### The run at the front -/

variable {p : Char → Bool} {s front rest : List Char}

/-- The text goes on with no more of these characters. -/
def Stops (p : Char → Bool) (rest : List Char) : Prop := ∀ c ∈ rest.head?, p c = false

lemma stops_nil (p : Char → Bool) : Stops p [] := nofun

lemma stops_cons {c : Char} (h : p c = false) (rest : List Char) : Stops p (c :: rest) := by
  rintro d hd
  obtain rfl := Option.some.inj hd
  exact h

lemma takeWhile_append_stop (hfront : ∀ c ∈ front, p c = true) (hrest : Stops p rest) :
    (front ++ rest).takeWhile p = front := by
  rw [List.takeWhile_append_of_pos hfront]
  cases rest with
  | nil => exact List.append_nil front
  | cons c rest =>
    have hc : ¬ p c = true := by rw [hrest c rfl]; exact Bool.false_ne_true
    rw [List.takeWhile_cons_of_neg hc, List.append_nil]

lemma dropWhile_append_stop (hfront : ∀ c ∈ front, p c = true) (hrest : Stops p rest) :
    (front ++ rest).dropWhile p = rest := by
  rw [List.dropWhile_append_of_pos hfront]
  cases rest with
  | nil => rfl
  | cons c rest =>
    have hc : ¬ p c = true := by rw [hrest c rfl]; exact Bool.false_ne_true
    exact List.dropWhile_cons_of_neg hc

lemma stops_dropWhile (p : Char → Bool) (s : List Char) : Stops p (s.dropWhile p) := by
  intro c hc
  have hhead := List.head?_dropWhile_not p s
  rw [Option.mem_def.1 hc] at hhead
  simpa using hhead

/-- Every text is the run at its front and a rest that goes on with something else. -/
lemma exists_run (p : Char → Bool) (s : List Char) :
    ∃ front rest, s = front ++ rest ∧ (∀ c ∈ front, p c = true) ∧ Stops p rest :=
  ⟨s.takeWhile p, s.dropWhile p, List.takeWhile_append_dropWhile.symm,
    fun _ hc => List.mem_takeWhile_imp hc, stops_dropWhile p s⟩

/-! ### Characters of numerals -/

/-- A digit of some script, or a point. -/
def IsNumeralChar (c : Char) : Prop := isDecimal c = true ∨ c = '.'

lemma IsNumeralChar.ne {c d : Char} (h : IsNumeralChar c) (hdigit : isDecimal d = false)
    (hpoint : d ≠ '.') : c ≠ d := by
  rintro rfl
  rcases h with h | h
  · rw [hdigit] at h
    cases h
  · exact hpoint h

/-- No digit of any script is a blank. -/
lemma IsNumeralChar.isBlank {c : Char} (h : IsNumeralChar c) : isBlank c = false := by
  rcases h with h | rfl
  · have htable : ∀ z ∈ decimalZeros, ∀ i < 10, isBlankCode (z + i) = false := by decide
    obtain ⟨z, hz, hc⟩ := List.any_eq_true.1 h
    rw [Bool.and_eq_true, decide_eq_true_iff, decide_eq_true_iff] at hc
    have hcode := htable z hz (c.toNat - z) (by omega)
    rwa [Nat.add_sub_cancel' hc.1] at hcode
  · rfl

/-- No letter from `A` to `Z` is among the characters of numerals. -/
lemma IsNumeralChar.toLower {c : Char} (h : IsNumeralChar c) : c.toLower = c := by
  unfold Char.toLower
  split
  case isTrue hletter =>
    have hlow : 65 ≤ c.toNat := hletter.1
    have hhigh : c.toNat ≤ 90 := hletter.2
    rcases h with h | rfl
    · simp only [isDecimal, decimalZeros, List.any_cons, List.any_nil, Bool.or_eq_true,
        Bool.and_eq_true, decide_eq_true_eq, Bool.false_eq_true, or_false] at h
      omega
    · exact absurd hlow (by decide)
  case isFalse => rfl

/-! ### Lines -/

lemma split_eq_splitOnP (cut : Char → Bool) (s : List Char) : split cut s = s.splitOnP cut := by
  induction s with
  | nil => rw [List.splitOnP_nil]; rfl
  | cons c s ih =>
    rw [split, ih, List.splitOnP_cons_eq_if_modifyHead]
    obtain ⟨piece, pieces, hpieces⟩ := List.exists_cons_of_ne_nil (List.splitOnP_ne_nil cut s)
    rw [hpieces]
    rfl

/-! ### Blanks at the ends -/

/-- A printed character of ASCII is no blank. -/
lemma isBlank_of_printed {c : Char} (low : 33 ≤ c.toNat) (high : c.toNat ≤ 126) :
    isBlank c = false := by
  simp only [isBlank, isBlankCode, Bool.or_eq_false_iff, Bool.and_eq_false_iff,
    decide_eq_false_iff_not, beq_eq_false_iff_ne]
  omega

/-- Nothing but blanks. -/
def AllBlank (s : List Char) : Prop := ∀ c ∈ s, isBlank c = true

lemma trimEnd_append (hrest : AllBlank rest) (hlast : ∀ c ∈ s.getLast?, isBlank c = false) :
    trimEnd (s ++ rest) = s := by
  have hblank : ∀ c ∈ rest.reverse, isBlank c = true := fun c hc => hrest c (List.mem_reverse.1 hc)
  have hstop : Stops isBlank s.reverse := fun c hc => hlast c (by rwa [List.head?_reverse] at hc)
  unfold trimEnd
  rw [List.reverse_append, dropWhile_append_stop hblank hstop, List.reverse_reverse]

/-- What stands between blanks is what trimming leaves, if it neither starts nor ends with one. -/
lemma trim_append {before after : List Char} (hbefore : AllBlank before) (hafter : AllBlank after)
    (hne : s ≠ []) (hfirst : Stops isBlank s) (hlast : ∀ c ∈ s.getLast?, isBlank c = false) :
    trim (before ++ s ++ after) = s := by
  have hstop : Stops isBlank (s ++ after) := by
    obtain ⟨c, s, rfl⟩ := List.exists_cons_of_ne_nil hne
    exact hfirst
  unfold trim
  rw [List.append_assoc, dropWhile_append_stop hbefore hstop, trimEnd_append hafter hlast]

/-- Trimming takes blanks from the end. -/
lemma exists_trimEnd (s : List Char) : ∃ after, AllBlank after ∧ s = trimEnd s ++ after := by
  refine ⟨(s.reverse.takeWhile isBlank).reverse, fun c hc => ?_, ?_⟩
  · exact List.mem_takeWhile_imp (List.mem_reverse.1 hc)
  · unfold trimEnd
    rw [← List.reverse_append, List.takeWhile_append_dropWhile, List.reverse_reverse]

/-- Trimming takes blanks from the ends. -/
lemma exists_trim (s : List Char) :
    ∃ before after, AllBlank before ∧ AllBlank after ∧ s = before ++ trim s ++ after := by
  obtain ⟨after, hafter, hs⟩ := exists_trimEnd (s.dropWhile isBlank)
  refine ⟨s.takeWhile isBlank, after, fun _ hc => List.mem_takeWhile_imp hc, hafter, ?_⟩
  rw [List.append_assoc, trim, ← hs, List.takeWhile_append_dropWhile]

/-! ### The first place -/

/-- `rest` is what stands at the first place of a text where `P` holds, behind `before`. -/
structure FirstAt (P : List Char → Prop) (s before rest : List Char) : Prop where
  parts : s = before ++ rest
  holds : P rest
  least : ∀ before' rest', s = before' ++ rest' → P rest' → before.length ≤ before'.length

lemma FirstAt.unique {P : List Char → Prop} {before before' rest rest' : List Char}
    (h : FirstAt P s before rest) (h' : FirstAt P s before' rest') :
    before = before' ∧ rest = rest' := by
  have hlength := (h.least _ _ h'.parts h'.holds).antisymm (h'.least _ _ h.parts h.holds)
  exact List.append_inj (h.parts.symm.trans h'.parts) hlength

/-- A search finds what the pattern finds at the first place where it finds something. -/
lemma firstMatch_eq_some_iff_firstAt {α : Type} {pattern : List Char → Option α} {found : α} :
    firstMatch pattern s = some found ↔
      ∃ before rest, FirstAt (fun t => (pattern t).isSome = true) s before rest ∧
        pattern rest = some found := by
  rw [firstMatch_eq_some_iff]
  refine exists_congr fun before => exists_congr fun rest => ?_
  constructor
  · rintro ⟨rfl, hfound, hnone⟩
    refine ⟨⟨rfl, Option.isSome_of_eq_some hfound, fun before' rest' hs hsome => ?_⟩, hfound⟩
    -- an earlier place would be within `before`
    by_contra hlt
    obtain ⟨late, rfl, rfl⟩ | ⟨late, rfl, -⟩ := List.append_eq_append_iff.1 hs.symm
    · have hlate : late ≠ [] := by
        rintro rfl
        exact hlt (by rw [List.append_nil])
      rw [hnone before' late rfl hlate] at hsome
      cases hsome
    · exact hlt (by rw [List.length_append]; exact Nat.le_add_right _ _)
  · rintro ⟨⟨rfl, -, hleast⟩, hfound⟩
    refine ⟨rfl, hfound, fun early late hbefore hlate => ?_⟩
    by_contra hsome
    have hle := hleast early (late ++ rest) (by rw [hbefore, List.append_assoc])
      (Option.isSome_iff_ne_none.2 hsome)
    have hpos := List.length_pos_iff.2 hlate
    rw [hbefore, List.length_append] at hle
    omega

end RenderLayout.Text
