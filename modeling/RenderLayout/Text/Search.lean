/-!
Searching a text from left to right.

A pattern is a function from the text at a place to what it finds there. `firstMatch` takes the
first place where the pattern holds; `matches` goes on after each place, behind what was found.
-/

namespace RenderLayout.Text

/-- The text after `key`, if it starts with `key`. -/
def after? (key : List Char) (s : List Char) : Option (List Char) := key.isPrefixOf? s

/-- What `pattern` finds at the first place where it finds something. -/
def firstMatch (pattern : List Char → Option α) : List Char → Option α
  | [] => pattern []
  | c :: rest =>
    match pattern (c :: rest) with
    | some found => some found
    | none => firstMatch pattern rest

/-- What `pattern` finds, from left to right and without overlap: `pattern` gives with each find
the number of characters that it covers, and the next place is behind them. The first argument
counts the characters that are still covered. -/
def matchesFrom (pattern : List Char → Option (α × Nat)) : Nat → List Char → List α
  | _, [] => []
  | covered + 1, _ :: rest => matchesFrom pattern covered rest
  | 0, c :: rest =>
    match pattern (c :: rest) with
    | some (found, size) => found :: matchesFrom pattern (size - 1) rest
    | none => matchesFrom pattern 0 rest

def allMatches (pattern : List Char → Option (α × Nat)) (s : List Char) : List α :=
  matchesFrom pattern 0 s

theorem after?_cons (c d : Char) (key s : List Char) :
    after? (c :: key) (d :: s) = if c == d then after? key s else none := rfl

theorem after?_append (key s : List Char) : after? key (key ++ s) = some s := by
  induction key with
  | nil => cases s <;> rfl
  | cons c key ih => rw [List.cons_append, after?_cons, if_pos (beq_self_eq_true c), ih]

theorem eq_append_of_after? {key s rest : List Char} (h : after? key s = some rest) :
    s = key ++ rest := by
  induction key generalizing s with
  | nil => cases s <;> exact Option.some.inj h
  | cons c key ih =>
    cases s with
    | nil => cases h
    | cons d s =>
      rw [after?_cons] at h
      split at h
      case isTrue hcd => rw [eq_of_beq hcd, List.cons_append, ← ih h]
      case isFalse => cases h

theorem after?_eq_some_iff {key s rest : List Char} : after? key s = some rest ↔ s = key ++ rest :=
  ⟨eq_append_of_after?, fun h => h ▸ after?_append key rest⟩

/-- A find is at a place with no find before it. -/
theorem firstMatch_eq_some_iff {pattern : List Char → Option α} {s : List Char} {found : α} :
    firstMatch pattern s = some found ↔
      ∃ before rest, s = before ++ rest ∧ pattern rest = some found ∧
        ∀ early late, before = early ++ late → late ≠ [] → pattern (late ++ rest) = none := by
  induction s with
  | nil =>
    constructor
    · intro h
      exact ⟨[], [], rfl, h, by simp⟩
    · rintro ⟨before, rest, hs, hp, -⟩
      obtain ⟨rfl, rfl⟩ : before = [] ∧ rest = [] := by simpa using hs.symm
      exact hp
  | cons c s ih =>
    rw [firstMatch]
    cases hc : pattern (c :: s) with
    | some hit =>
      constructor
      · intro h
        exact ⟨[], c :: s, rfl, by rw [hc]; exact h, by simp⟩
      · rintro ⟨before, rest, hs, hp, hnone⟩
        cases before with
        | nil =>
          obtain rfl : c :: s = rest := hs
          rwa [hc] at hp
        | cons d before =>
          have := hnone [] (d :: before) rfl (by simp)
          rw [← hs, hc] at this
          exact absurd this (by simp)
    | none =>
      rw [show (match (none : Option α) with
        | some found => some found
        | none => firstMatch pattern s) = firstMatch pattern s from rfl, ih]
      constructor
      · rintro ⟨before, rest, hs, hp, hnone⟩
        refine ⟨c :: before, rest, by simp [hs], hp, ?_⟩
        intro early late hsplit hlate
        cases early with
        | nil =>
          obtain rfl : c :: before = late := hsplit
          simpa [hs] using hc
        | cons e early =>
          obtain ⟨rfl, rfl⟩ : c = e ∧ before = early ++ late := by simpa using hsplit
          exact hnone early late rfl hlate
      · rintro ⟨before, rest, hs, hp, hnone⟩
        cases before with
        | nil =>
          obtain rfl : c :: s = rest := hs
          exact absurd hp (by simp [hc])
        | cons d before =>
          obtain ⟨rfl, rfl⟩ : c = d ∧ s = before ++ rest := by simpa using hs
          exact ⟨before, rest, rfl, hp, fun early late h => hnone (c :: early) late (by simp [h])⟩

end RenderLayout.Text
