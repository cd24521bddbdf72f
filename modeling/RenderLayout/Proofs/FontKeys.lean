import RenderLayout.Font.Book
import RenderLayout.Proofs.FloatArithmetic
import RenderLayout.Proofs.Names
import RenderLayout.Proofs.StyleEquality

/-!
Fonts and the keys that they go by.

A font that is chosen has no negative size, so that its key tells its name and its size. A book
enters a font only where there is none, so that what has been chosen stays chosen; and in a book
that has come about by choosing and using fonts, what is used stays used, as it is.
-/

namespace RenderLayout

/-! ### Numbers without a sign -/

namespace Number

open Text

/-- The sign bit of the number is not set. -/
def Unsigned (x : Float) : Prop := x.toBits.toNat < signBit

lemma unsigned_ofMagnitudeBits (magnitude : Nat) : Unsigned (ofMagnitudeBits false magnitude) := by
  have hmin : min magnitude infiniteBits ≤ infiniteBits := Nat.min_le_right _ _
  unfold Unsigned
  rw [toNat_toBits_ofMagnitudeBits, signedBits, if_neg Bool.false_ne_true, Nat.zero_add]
  exact hmin.trans_lt (by decide)

lemma unsigned_ofDecimal (digits : Nat) (exponent : Int) :
    Unsigned (ofDecimal false digits exponent) := by
  unfold ofDecimal
  dsimp only
  split
  · exact unsigned_ofMagnitudeBits _
  · split
    · exact unsigned_ofMagnitudeBits _
    · exact unsigned_ofMagnitudeBits _

/-- A numeral is read without a sign. -/
lemma unsigned_numeral {s : List Char} {x : Float} (h : readFloat? (takeNumeral s) = some x) :
    Unsigned x := by
  obtain ⟨n, -, rfl⟩ := Numeral.exists_value h
  exact unsigned_ofDecimal _ _

/-- A number without a sign is taken apart without one. -/
lemma Unsigned.ofFloat {x : Float} (h : Unsigned x) (negative : Bool) :
    (Binary.ofFloat x = .infinite negative → negative = false) ∧
      ∀ mantissa scale, Binary.ofFloat x = .finite negative mantissa scale → negative = false := by
  have hsign : decide (signBit ≤ x.toBits.toNat) = false := decide_eq_false (not_le_of_gt h)
  unfold Binary.ofFloat
  dsimp only
  rw [hsign]
  split_ifs
  · simp
  · simp [eq_comm]
  · simp +contextual [eq_comm]
  · simp +contextual [eq_comm]

/-- Rounding to a whole number keeps a number without a sign from zero on. -/
lemma Unsigned.roundToInt64_nonneg {x : Float} (h : Unsigned x) : 0 ≤ roundToInt64 x := by
  unfold roundToInt64
  cases hx : Binary.ofFloat x with
  | nan => exact le_refl 0
  | infinite negative =>
    obtain rfl := (h.ofFloat negative).1 hx
    decide
  | finite negative mantissa scale =>
    obtain rfl := (h.ofFloat negative).2 mantissa scale hx
    dsimp only
    rw [if_neg Bool.false_ne_true]
    have hlast : (0 : Int) ≤ signBit - 1 := by decide
    exact le_min (Int.natCast_nonneg _) hlast

end Number

/-! ### Keys -/

namespace Font

/-- The key of a font without a negative size tells the font. -/
lemma key_inj {a b : Font} (ha : 0 ≤ a.size) (hb : 0 ≤ b.size) (h : a.key = b.key) : a = b := by
  obtain ⟨name, size⟩ := a
  obtain ⟨name', size'⟩ := b
  obtain ⟨m, rfl⟩ := Int.eq_ofNat_of_zero_le ha
  obtain ⟨n, rfl⟩ := Int.eq_ofNat_of_zero_le hb
  have hkey (name : String) (n : Nat) :
      (key ⟨name, n⟩).toList = name.toList ++ '-' :: (toString n).toList := by
    rw [show key ⟨name, n⟩ = name ++ "-" ++ toString n from rfl]
    simp
  have h := congrArg String.toList h
  rw [hkey, hkey] at h
  obtain ⟨hname, hnumber⟩ :=
    append_hyphen_inj (hyphen_not_mem_digits m) (Or.inl (hyphen_not_mem_digits n)) h
  rw [String.toList_inj.1 hname, number_of_digits hnumber]

/-- The size of a request is a number without a sign, or the default size. -/
lemma unsigned_size {declarations : String} {size : Float}
    (h : (Request.ofDeclarations declarations).size = some size) : Number.Unsigned size := by
  obtain ⟨numeral, hnumeral, rfl⟩ := Option.map_eq_some_iff.1 h
  obtain ⟨rest, hrest⟩ := Declarations.exists_of_firstMatch hnumeral
  obtain ⟨behind, -, hrest⟩ := Option.bind_eq_some_iff.1 hrest
  obtain ⟨-, -, hrest⟩ := Option.bind_eq_some_iff.1 hrest
  obtain rfl := Option.some.inj hrest
  unfold sizeOf
  cases hread : Number.readFloat? (Text.takeNumeral behind) with
  | none => exact Number.unsigned_ofMagnitudeBits _
  | some x => exact Number.unsigned_numeral hread

/-- A font that is chosen has no negative size. -/
lemma size_choose_nonneg (declarations : String) : 0 ≤ (choose declarations).font.size := by
  have hfallback : 0 ≤ fallback.size := by decide
  unfold choose Request.choose
  split
  case h_1 => exact hfallback
  case h_2 => exact hfallback
  case h_3 size family hsize hfamily =>
    unfold chooseFamily
    split
    · exact (unsigned_size hsize).roundToInt64_nonneg
    · exact hfallback

end Font

/-! ### Books -/

namespace FontBook

/-- What is done to a book. -/
inductive Call where
  /-- The font for some declarations is chosen. -/
  | choose (declarations : String)
  /-- A font is used. -/
  | use (key : String)

def perform (book : FontBook) : Call → FontBook
  | .choose declarations => (book.resolve declarations).2
  | .use key => book.use key

/-- The book after some calls in turn. -/
def run (book : FontBook) (calls : List Call) : FontBook := calls.foldl perform book

lemma run_append (book : FontBook) (calls more : List Call) :
    book.run (calls ++ more) = (book.run calls).run more :=
  List.foldl_append

/-- What is used has been chosen. -/
def Sound (book : FontBook) : Prop :=
  ∀ key font, book.used.find? key = some font → book.chosen.find? key = some font

/-- No font is taken out of the book or put in the place of another one. -/
structure Keeps (before after : FontBook) : Prop where
  chosen : ∀ key font, before.chosen.find? key = some font → after.chosen.find? key = some font
  used : ∀ key font, before.used.find? key = some font → after.used.find? key = some font

variable {book : FontBook}

lemma sound_empty : Sound {} := nofun

lemma Keeps.refl (book : FontBook) : Keeps book book := ⟨fun _ _ h => h, fun _ _ h => h⟩

lemma Keeps.trans {before middle after : FontBook} (h₁ : Keeps before middle)
    (h₂ : Keeps middle after) : Keeps before after :=
  ⟨fun key font h => h₂.chosen key font (h₁.chosen key font h),
    fun key font h => h₂.used key font (h₁.used key font h)⟩

lemma keeps_resolve (book : FontBook) (declarations : String) :
    book.Keeps (book.resolve declarations).2 where
  chosen key font hfont := by
    rw [find?_chosen_resolve, hfont]
    split <;> rfl
  used key font hfont := by rwa [used_resolve]

lemma Sound.resolve (h : book.Sound) (declarations : String) :
    (book.resolve declarations).2.Sound := by
  intro key font hfont
  rw [used_resolve] at hfont
  exact (keeps_resolve book declarations).chosen key font (h key font hfont)

lemma Sound.use (h : book.Sound) (name : String) : (book.use name).Sound := by
  intro key font hfont
  rw [chosen_use]
  rw [find?_used_use] at hfont
  split at hfont
  case isTrue hkey => rwa [← hkey.1]
  case isFalse => exact h key font hfont

lemma Sound.keeps_use (h : book.Sound) (name : String) : book.Keeps (book.use name) where
  chosen key font hfont := by rwa [chosen_use]
  used key font hfont := by
    rw [find?_used_use]
    split
    case isTrue hkey => rw [hkey.1, h key font hfont]
    case isFalse => exact hfont

/-- The step of a run. -/
lemma Sound.perform (h : book.Sound) (call : Call) :
    (book.perform call).Sound ∧ book.Keeps (book.perform call) := by
  cases call with
  | choose declarations => exact ⟨h.resolve declarations, keeps_resolve book declarations⟩
  | use key => exact ⟨h.use key, h.keeps_use key⟩

/-- **Books keep their fonts**: calls take no font out of a book and put none in the place of
another one, whether it is chosen or used. -/
theorem Sound.run (h : book.Sound) (calls : List Call) :
    (book.run calls).Sound ∧ book.Keeps (book.run calls) := by
  induction calls generalizing book with
  | nil => exact ⟨h, .refl book⟩
  | cons call rest ih =>
    obtain ⟨hsound, hkeeps⟩ := h.perform call
    obtain ⟨hrest, hkeepsRest⟩ := ih hsound
    exact ⟨hrest, hkeeps.trans hkeepsRest⟩

end FontBook

end RenderLayout
