import RenderLayout.Proofs.FontKeys
import RenderLayout.Proofs.Tables

/-!
What a book holds after some calls, in terms of the calls.

A book holds the fonts that have been chosen, and uses those whose key has been used behind the
choice. So it makes no difference whether a font is entered anew when it is chosen again, or only
when its key is missing: what stands under the key is the same font.
-/

namespace RenderLayout.FontBook

variable {calls : List Call} {font : Font} {key : String}

/-- Some call chooses the font. -/
def Chosen (calls : List Call) (font : Font) : Prop :=
  ∃ declarations, .choose declarations ∈ calls ∧ (Font.choose declarations).font = font

/-- Some call uses the key of the font, behind one that chooses the font. -/
def UsedBehind (calls : List Call) (key : String) (font : Font) : Prop :=
  font.key = key ∧ ∃ before after, calls = before ++ .use key :: after ∧ Chosen before font

lemma Chosen.size_nonneg (h : Chosen calls font) : 0 ≤ font.size := by
  obtain ⟨declarations, -, rfl⟩ := h
  exact Font.size_choose_nonneg declarations

lemma chosen_append {more : List Call} :
    Chosen (calls ++ more) font ↔ Chosen calls font ∨ Chosen more font := by
  unfold Chosen
  simp only [List.mem_append, or_and_right, exists_or]

lemma chosen_choose {declarations : String} :
    Chosen [.choose declarations] font ↔ (Font.choose declarations).font = font := by
  simp [Chosen]

lemma not_chosen_use (key : String) : ¬ Chosen [.use key] font := by
  simp [Chosen]

/-- One more call uses a font behind its choice only if it is a use, and the font has been
chosen. -/
lemma usedBehind_concat {call : Call} :
    UsedBehind (calls ++ [call]) key font ↔
      UsedBehind calls key font ∨ call = .use key ∧ font.key = key ∧ Chosen calls font := by
  constructor
  · rintro ⟨hkey, before, after, hcalls, hchosen⟩
    rcases List.eq_nil_or_concat' after with rfl | ⟨after, last, rfl⟩
    · obtain ⟨rfl, hcall⟩ := List.append_inj' hcalls rfl
      exact .inr ⟨List.singleton_inj.1 hcall, hkey, hchosen⟩
    · rw [← List.cons_append, ← List.append_assoc] at hcalls
      obtain ⟨rfl, -⟩ := List.append_inj' hcalls rfl
      exact .inl ⟨hkey, before, after, rfl, hchosen⟩
  · rintro (⟨hkey, before, after, rfl, hchosen⟩ | ⟨rfl, hkey, hchosen⟩)
    · exact ⟨hkey, before, after ++ [call], by simp, hchosen⟩
    · exact ⟨hkey, calls, [], rfl, hchosen⟩

lemma UsedBehind.chosen (h : UsedBehind calls key font) : Chosen calls font := by
  obtain ⟨-, before, after, rfl, hchosen⟩ := h
  exact chosen_append.2 (.inl hchosen)

/-! ### Steps and runs -/

/-- The book holds what the calls choose and uses what they use. -/
structure Records (book : FontBook) (calls : List Call) : Prop where
  chosen : ∀ key font, book.chosen.find? key = some font ↔ font.key = key ∧ Chosen calls font
  used : ∀ key font, book.used.find? key = some font ↔ UsedBehind calls key font

variable {book : FontBook}

lemma records_empty : Records {} [] where
  chosen _ _ := iff_of_false nofun fun h => by simpa [Chosen] using h.2
  used _ _ := iff_of_false nofun fun ⟨_, before, _, hcalls, _⟩ => by simp at hcalls

lemma enter_eq_self (h : book.chosen.find? font.key = some font) : book.enter font = book := by
  have hchosen : (book.enter font).chosen = book.chosen := by
    refine Table.ext_find? fun key => ?_
    rw [find?_chosen_enter]
    split
    case isTrue hkey => rw [← hkey, h]
    case isFalse => rfl
  obtain ⟨chosen, used⟩ := book
  exact congrArg (FontBook.mk · used) hchosen

/-- Nothing else stands under the key of a font that is chosen again. -/
lemma Records.resolve (h : book.Records calls) (declarations : String) :
    book.resolve declarations =
      (Font.choose declarations, book.enter (Font.choose declarations).font) := by
  unfold FontBook.resolve
  dsimp only
  split
  case h_1 font hfont =>
    obtain ⟨hkey, hchosen⟩ := (h.chosen _ _).1 hfont
    obtain rfl : font = (Font.choose declarations).font :=
      Font.key_inj hchosen.size_nonneg (Font.size_choose_nonneg declarations) hkey
    rw [enter_eq_self hfont]
  case h_2 => rfl

lemma Records.choose (h : book.Records calls) (declarations : String) :
    (book.resolve declarations).2.Records (calls ++ [.choose declarations]) where
  chosen key font := by
    rw [h.resolve, find?_chosen_enter, chosen_append, chosen_choose]
    split
    case isTrue hkey =>
      constructor
      · intro heq
        obtain rfl := Option.some.inj heq
        exact ⟨hkey, .inr rfl⟩
      · rintro ⟨hfont, hchosen | rfl⟩
        · have hlast : Chosen [.choose declarations] (Font.choose declarations).font :=
            chosen_choose.2 rfl
          rw [Font.key_inj hlast.size_nonneg hchosen.size_nonneg (hkey.trans hfont.symm)]
        · rfl
    case isFalse hkey =>
      rw [h.chosen]
      refine and_congr_right fun hfont => (or_iff_left ?_).symm
      rintro rfl
      exact hkey hfont
  used key font := by
    rw [used_resolve, h.used, usedBehind_concat]
    exact (or_iff_left fun hcall => nomatch hcall.1).symm

lemma Records.use (h : book.Records calls) (name : String) :
    (book.use name).Records (calls ++ [.use name]) where
  chosen key font := by
    rw [chosen_use, h.chosen, chosen_append, or_iff_left (not_chosen_use name)]
  used key font := by
    rw [find?_used_use, usedBehind_concat, Call.use.injEq]
    split
    case isTrue hname =>
      obtain ⟨rfl, -⟩ := hname
      rw [h.chosen]
      constructor
      · exact fun hchosen => .inr ⟨rfl, hchosen⟩
      · rintro (hused | ⟨-, hchosen⟩)
        · exact ⟨hused.1, hused.chosen⟩
        · exact hchosen
    case isFalse hname =>
      rw [h.used]
      refine (or_iff_left ?_).symm
      rintro ⟨rfl, hchosen⟩
      exact hname ⟨rfl, Table.contains_of_find? ((h.chosen _ _).2 hchosen)⟩

/-- The step of a run. -/
lemma Records.perform (h : book.Records calls) (call : Call) :
    (book.perform call).Records (calls ++ [call]) := by
  cases call with
  | choose declarations => exact h.choose declarations
  | use key => exact h.use key

lemma Records.run (h : book.Records calls) (more : List Call) :
    (book.run more).Records (calls ++ more) := by
  induction more generalizing book calls with
  | nil => rwa [List.append_nil]
  | cons call rest ih =>
    have hrest := ih (h.perform call)
    rwa [List.append_assoc, List.singleton_append] at hrest

lemma Records.use_eq_self (h : book.Records calls)
    (hnever : ∀ font, Chosen calls font → font.key ≠ key) : book.use key = book := by
  unfold FontBook.use
  cases hfont : book.chosen.find? key with
  | none => rfl
  | some font =>
    obtain ⟨hkey, hchosen⟩ := (h.chosen _ _).1 hfont
    exact absurd hkey (hnever font hchosen)

/-- **What a book answers does not depend on its history, and what it uses is told by it**: after any
calls on a new book, the font for declarations is the one that is chosen for them on any book, and
its entry is the same whether it is made again or not. A font is used just if its key has been used
behind a choice of it. To choose a font uses none, and to use a key that nothing has been chosen
under changes nothing. -/
theorem run_calls (calls : List Call) :
    (∀ declarations, (({} : FontBook).run calls).resolve declarations =
        (Font.choose declarations,
          (({} : FontBook).run calls).enter (Font.choose declarations).font)) ∧
      (∀ key font, (({} : FontBook).run calls).used.find? key = some font ↔
        font.key = key ∧ ∃ before after declarations, calls = before ++ .use key :: after ∧
          .choose declarations ∈ before ∧ (Font.choose declarations).font = font) ∧
      (∀ declarations, ((({} : FontBook).run calls).resolve declarations).2.used =
        (({} : FontBook).run calls).used) ∧
      ∀ key, (∀ declarations, .choose declarations ∈ calls → (Font.choose declarations).key ≠ key) →
        (({} : FontBook).run calls).use key = ({} : FontBook).run calls := by
  have h : (({} : FontBook).run calls).Records calls := records_empty.run calls
  refine ⟨h.resolve, fun key font => ?_, fun declarations => ?_, fun key hnever => ?_⟩
  · rw [h.used]
    constructor
    · rintro ⟨hkey, before, after, hcalls, declarations, hchosen⟩
      exact ⟨hkey, before, after, declarations, hcalls, hchosen⟩
    · rintro ⟨hkey, before, after, declarations, hcalls, hchosen⟩
      exact ⟨hkey, before, after, hcalls, declarations, hchosen⟩
  · rw [h.resolve]
    rfl
  · refine h.use_eq_self fun font ⟨declarations, hcall, hfont⟩ => ?_
    rw [← hfont]
    exact hnever declarations hcall

end RenderLayout.FontBook
