import Mathlib.Data.String.Basic
import Mathlib.Tactic.Common
import RenderLayout.Draft

/-!
The names of styles, and when two of them are the same.

The style of a component goes by its page, its kind and its number, joined by hyphens, and that of
a class by its page and the class. Kinds and numbers have no hyphen, so that a component's name can
be taken apart from its end. But pages and classes may have hyphens, and a class of a page that is
named after another page and a kind may go by the name of a component of that other page.
-/

namespace RenderLayout

/-! ### Last hyphens -/

/-- A text is cut at a hyphen in one way if neither cut leaves a hyphen where the other may go. -/
lemma append_hyphen_inj {a b c d : List Char} (hb : '-' ∉ b) (hda : '-' ∉ d ∨ '-' ∉ a)
    (h : a ++ '-' :: b = c ++ '-' :: d) : a = c ∧ b = d := by
  rcases List.append_eq_append_iff.1 h with ⟨e, rfl, he⟩ | ⟨e, rfl, he⟩
  · cases e with
    | nil => simpa using he
    | cons x e =>
      -- the second cut would be behind the first
      obtain ⟨-, rfl⟩ : '-' = x ∧ b = e ++ '-' :: d := by simpa using he
      simp at hb
  · cases e with
    | nil => simpa [eq_comm] using he
    | cons x e =>
      -- the second cut would be before the first
      obtain ⟨rfl, rfl⟩ : '-' = x ∧ d = e ++ '-' :: b := by simpa using he
      simp at hda

lemma hyphen_not_mem_kind (kind : Kind) : '-' ∉ kind.name.toList := by
  cases kind <;> decide

lemma kind_of_name {kind kind' : Kind} (h : kind.name.toList = kind'.name.toList) :
    kind = kind' := by
  cases kind <;> cases kind' <;> first | rfl | exact absurd h (by decide)

lemma hyphen_not_mem_digits (n : Nat) : '-' ∉ (toString n).toList := by
  intro h
  rw [Nat.toString_eq_repr, Nat.toList_repr] at h
  exact absurd (Nat.isDigit_of_mem_toDigits (by decide) (by decide) h) (by decide)

lemma number_of_digits {m n : Nat} (h : (toString m).toList = (toString n).toList) : m = n := by
  rw [Nat.toString_eq_repr, Nat.toString_eq_repr, Nat.toList_repr, Nat.toList_repr] at h
  simpa using congrArg (fun digits => Nat.ofDigitChars 10 digits 0) h

/-! ### Names of components and of classes -/

lemma toList_componentStyleName (page : String) (kind : Kind) (number : Nat) :
    (componentStyleName page kind number).toList =
      page.toList ++ '-' :: (kind.name.toList ++ '-' :: (toString number).toList) := by
  rw [show componentStyleName page kind number =
    page ++ "-" ++ kind.name ++ "-" ++ toString number from rfl]
  simp

lemma toList_classStyleName (page className : String) :
    (classStyleName page className).toList = page.toList ++ '-' :: className.toList := by
  unfold classStyleName
  simp

lemma after?_classStyleName (page className : String) :
    Text.after? (page ++ "-").toList (classStyleName page className).toList =
      some className.toList := by
  rw [show (classStyleName page className).toList = _ from String.toList_append,
    Text.after?_append]

lemma classStyleName_inj {page c d : String} (h : classStyleName page c = classStyleName page d) :
    c = d := by
  have h := congrArg String.toList h
  rw [toList_classStyleName, toList_classStyleName] at h
  exact String.toList_inj.1 (by simpa using h)

/-- A component's name tells its page, its kind and its number. -/
theorem componentStyleName_inj {page page' : String} {kind kind' : Kind} {number number' : Nat}
    (h : componentStyleName page kind number = componentStyleName page' kind' number') :
    page = page' ∧ kind = kind' ∧ number = number' := by
  have h := congrArg String.toList h
  rw [toList_componentStyleName, toList_componentStyleName] at h
  have hassoc (p k n : List Char) : p ++ '-' :: (k ++ '-' :: n) = (p ++ '-' :: k) ++ '-' :: n := by
    simp
  rw [hassoc, hassoc] at h
  obtain ⟨h, hnumber⟩ := append_hyphen_inj (hyphen_not_mem_digits _)
    (Or.inl (hyphen_not_mem_digits _)) h
  obtain ⟨hpage, hkind⟩ := append_hyphen_inj (hyphen_not_mem_kind _)
    (Or.inl (hyphen_not_mem_kind _)) h
  exact ⟨String.toList_inj.1 hpage, kind_of_name hkind, number_of_digits hnumber⟩

/-- The page whose classes may go by the names of components of a kind. -/
def Kind.namesake (page : String) (kind : Kind) : String := page ++ "-" ++ kind.name

lemma classStyleName_namesake (page : String) (kind : Kind) (number : Nat) :
    classStyleName (kind.namesake page) (toString number) =
      componentStyleName page kind number := by
  apply String.toList_inj.1
  rw [toList_classStyleName, toList_componentStyleName]
  simp [Kind.namesake]

lemma le_append (s t : String) : s ≤ s ++ t := by
  refine not_lt.1 fun h => ?_
  rw [String.lt_iff_toList_lt, String.toList_append] at h
  exact (List.prefix_append s.toList t.toList).le h

lemma page_lt_namesake (page : String) (kind : Kind) : page < kind.namesake page := by
  refine lt_of_le_of_ne ?_ fun h => ?_
  · rw [Kind.namesake, String.append_assoc]
    exact le_append page _
  · have h := congrArg (·.toList.length) h
    simp only [Kind.namesake, String.toList_append, List.length_append] at h
    have : "-".toList.length = 1 := rfl
    omega

/-- A class of a later page goes by a component's name only if the page is named after that of the
component and its kind, and the class after its number. -/
theorem eq_namesake_of_classStyleName {page other className : String} {kind : Kind} {number : Nat}
    (hlt : page < other)
    (h : classStyleName other className = componentStyleName page kind number) :
    other = kind.namesake page ∧ className = toString number := by
  have h := congrArg String.toList h
  rw [toList_classStyleName, toList_componentStyleName] at h
  rcases List.append_eq_append_iff.1 h with ⟨e, hpage, -⟩ | ⟨e, hother, he⟩
  · -- a page that another one begins with comes before it
    obtain rfl : page = other ++ String.ofList e := String.toList_inj.1 (by simpa using hpage)
    exact absurd (le_append other _) (not_le_of_gt hlt)
  · cases e with
    | nil =>
      rw [List.append_nil] at hother
      exact absurd (String.toList_inj.1 hother).symm (ne_of_lt hlt)
    | cons x e =>
      obtain ⟨rfl, hkind⟩ : '-' = x ∧ kind.name.toList ++ '-' :: (toString number).toList =
        e ++ '-' :: className.toList := by simpa using he
      obtain ⟨rfl, hclass⟩ :=
        append_hyphen_inj (hyphen_not_mem_digits _) (Or.inr (hyphen_not_mem_kind _)) hkind
      refine ⟨String.toList_inj.1 ?_, (String.toList_inj.1 hclass).symm⟩
      rw [hother]
      simp [Kind.namesake]

end RenderLayout
