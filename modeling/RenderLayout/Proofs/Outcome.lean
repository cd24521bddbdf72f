import Mathlib.Data.List.Forall2
import Mathlib.Tactic.Common

/-!
Outcomes of steps taken one after another: what all of them give, or the fault of the first that
fails.
-/

namespace RenderLayout

variable {ε α β γ : Type}

lemma ok_bind (a : α) (f : α → Except ε β) : ((.ok a : Except ε α) >>= f) = f a := rfl

lemma bind_eq_ok_iff {x : Except ε α} {f : α → Except ε β} {b : β} :
    (x >>= f) = .ok b ↔ ∃ a, x = .ok a ∧ f a = .ok b := by
  cases x with
  | error e => simp [bind, Except.bind]
  | ok a => simp [bind, Except.bind]

lemma mapError_eq_ok_iff {x : Except ε α} {g : ε → γ} {a : α} :
    x.mapError g = .ok a ↔ x = .ok a := by
  cases x <;> simp [Except.mapError]

lemma toOption_eq_some_iff {x : Except ε α} {a : α} : x.toOption = some a ↔ x = .ok a := by
  cases x <;> simp [Except.toOption]

/-- The fault of an outcome that is one. -/
def fault? : Except ε α → Option ε
  | .ok _ => none
  | .error e => some e

@[simp] lemma fault?_ok (a : α) : fault? (.ok a : Except ε α) = none := rfl
@[simp] lemma fault?_error (e : ε) : fault? (.error e : Except ε α) = some e := rfl
@[simp] lemma fault?_pure (a : α) : fault? (pure a : Except ε α) = none := rfl

lemma fault?_eq_none_iff {x : Except ε α} : fault? x = none ↔ ∃ a, x = .ok a := by
  cases x <;> simp

lemma fault?_eq_some_iff {x : Except ε α} {e : ε} : fault? x = some e ↔ x = .error e := by
  cases x <;> simp

lemma fault?_bind (x : Except ε α) (f : α → Except ε β) :
    fault? (x >>= f) = match x with | .ok a => fault? (f a) | .error e => some e := by
  cases x <;> rfl

/-- Of two steps the fault of the first is told before that of the second. -/
lemma fault?_seq (x : Except ε α) (y : Except ε β) :
    fault? (x >>= fun _ => y) = (fault? x).or (fault? y) := by
  cases x <;> rfl

lemma fault?_map (x : Except ε α) (f : α → β) : fault? (f <$> x) = fault? x := by
  cases x <;> rfl

lemma fault?_mapError (x : Except ε α) (g : ε → γ) : fault? (x.mapError g) = (fault? x).map g := by
  cases x <;> rfl

/-- A run over a list fails as the first of its steps that fails. -/
lemma fault?_mapM (f : α → Except ε β) (l : List α) :
    fault? (l.mapM f) = l.findSome? fun x => fault? (f x) := by
  induction l with
  | nil => rfl
  | cons x l ih =>
    rw [List.mapM_cons, List.findSome?_cons, fault?_bind]
    cases hx : f x with
    | error e => rfl
    | ok b =>
      rw [← ih]
      exact fault?_map (l.mapM f) (b :: ·)

lemma fault?_forM (f : α → Except ε PUnit) (l : List α) :
    fault? (l.forM f) = l.findSome? fun x => fault? (f x) := by
  induction l with
  | nil => rfl
  | cons x l ih =>
    show fault? (f x >>= fun _ => l.forM f) = _
    rw [List.findSome?_cons, fault?_bind, ← ih]
    cases f x <;> rfl

lemma findSome?_congr {f g : α → Option β} {l : List α} (h : ∀ a ∈ l, f a = g a) :
    l.findSome? f = l.findSome? g := by
  induction l with
  | nil => rfl
  | cons a l ih =>
    rw [List.findSome?_cons, List.findSome?_cons, h a List.mem_cons_self,
      ih fun b hb => h b (List.mem_cons_of_mem a hb)]

lemma mapM_eq_ok_iff {f : α → Except ε β} {l : List α} {bs : List β} :
    l.mapM f = .ok bs ↔ List.Forall₂ (fun a b => f a = .ok b) l bs := by
  induction l generalizing bs with
  | nil => cases bs <;> simp [pure, Except.pure]
  | cons x l ih =>
    rw [List.mapM_cons, bind_eq_ok_iff]
    cases bs with
    | nil => simp [bind_eq_ok_iff, pure, Except.pure]
    | cons b bs => simp [bind_eq_ok_iff, ih, pure, Except.pure]

lemma forall₂_getElem?_left {R : α → β → Prop} {l : List α} {bs : List β} (h : List.Forall₂ R l bs)
    {i : Nat} {a : α} (ha : l[i]? = some a) : ∃ b, bs[i]? = some b ∧ R a b := by
  induction h generalizing i with
  | nil => cases ha
  | @cons a' b _ _ hab _ ih =>
    cases i with
    | zero =>
      obtain rfl : a' = a := by simpa using ha
      exact ⟨b, rfl, hab⟩
    | succ i => exact ih (by simpa using ha)

lemma forall₂_getElem?_right {R : α → β → Prop} {l : List α} {bs : List β}
    (h : List.Forall₂ R l bs) {i : Nat} {b : β} (hb : bs[i]? = some b) :
    ∃ a, l[i]? = some a ∧ R a b :=
  forall₂_getElem?_left h.flip hb

/-! ### Two runs -/

/-- Two outcomes are both values that are related, or both faults. -/
inductive Agree (R : α → β → Prop) : Except ε α → Except ε β → Prop
  | ok {a : α} {b : β} (h : R a b) : Agree R (.ok a) (.ok b)
  | error (e e' : ε) : Agree R (.error e) (.error e')

namespace Agree

variable {δ : Type} {R : α → β → Prop} {S : γ → δ → Prop}

lemma refl {R : α → α → Prop} (h : ∀ a, R a a) (x : Except ε α) : Agree R x x := by
  cases x with
  | ok a => exact .ok (h a)
  | error e => exact .error e e

lemma self (x : Except ε α) : Agree Eq x x := refl (fun _ => rfl) x

lemma symm {x y : Except ε α} (h : Agree Eq x y) : Agree Eq y x := by
  cases h with
  | ok h => exact .ok h.symm
  | error e e' => exact .error e' e

lemma trans {x y z : Except ε α} (h : Agree Eq x y) (h' : Agree Eq y z) : Agree Eq x z := by
  cases h with
  | ok h => exact h ▸ h'
  | error e e' =>
    cases h' with
    | error _ e'' => exact .error e e''

lemma eq_ok {x y : Except ε α} {a : α} (h : Agree Eq x y) (hx : x = .ok a) : y = .ok a := by
  cases h with
  | ok h => exact h ▸ hx
  | error => cases hx

lemma same (f : α → γ) (x : Except ε α) : Agree (fun a b => f a = f b) x x :=
  refl (R := fun a b => f a = f b) (fun _ => rfl) x

lemma bind {x : Except ε α} {y : Except ε β} {f : α → Except ε γ} {g : β → Except ε δ}
    (h : Agree R x y) (hnext : ∀ a b, R a b → Agree S (f a) (g b)) :
    Agree S (x >>= f) (y >>= g) := by
  cases h with
  | ok h => exact hnext _ _ h
  | error e e' => exact .error e e'

lemma bind_eq {x y : Except ε α} {f : α → Except ε γ} {g : α → Except ε δ} (h : Agree Eq x y)
    (hnext : ∀ a, Agree S (f a) (g a)) : Agree S (x >>= f) (y >>= g) := by
  cases h with
  | ok h =>
    subst h
    exact hnext _
  | error e e' => exact .error e e'

/-- Behind the same step. -/
lemma step (x : Except ε α) {f : α → Except ε γ} {g : α → Except ε δ}
    (hnext : ∀ a, Agree S (f a) (g a)) : Agree S (x >>= f) (x >>= g) :=
  bind_eq (self x) hnext

lemma map {x y : Except ε α} (h : Agree Eq x y) (f : α → γ) : Agree Eq (f <$> x) (f <$> y) := by
  cases h with
  | ok h => exact .ok (congrArg f h)
  | error e e' => exact .error e e'

lemma mapError {ε' : Type} {x : Except ε α} {y : Except ε β} (h : Agree R x y) (f : ε → ε') :
    Agree R (x.mapError f) (y.mapError f) := by
  cases h with
  | ok h => exact .ok h
  | error e e' => exact .error (f e) (f e')

/-- Two runs over lists agree if their steps do. -/
lemma mapM {σ τ : Type} {f : σ → Except ε α} {g : τ → Except ε β} {l : List σ} {l' : List τ}
    (h : List.Forall₂ (fun s t => Agree R (f s) (g t)) l l') :
    Agree (List.Forall₂ R) (l.mapM f) (l'.mapM g) := by
  induction h with
  | nil => exact .ok .nil
  | cons hhead _ ih =>
    rw [List.mapM_cons, List.mapM_cons]
    exact hhead.bind fun a b hab => ih.bind fun as bs habs => .ok (.cons hab habs)

lemma foldlM {σ τ : Type} {f : α → σ → Except ε α} {g : β → τ → Except ε β} {l : List σ}
    {l' : List τ} (h : List.Forall₂ (fun s t => ∀ a b, R a b → Agree R (f a s) (g b t)) l l')
    {a : α} {b : β} (hab : R a b) : Agree R (l.foldlM f a) (l'.foldlM g b) := by
  induction h generalizing a b with
  | nil => exact .ok hab
  | cons hhead _ ih =>
    rw [List.foldlM_cons, List.foldlM_cons]
    exact (hhead a b hab).bind fun _ _ => ih

/-- Two lists that run alike from every start do so between others. -/
lemma foldlM_between {σ : Type} {f : α → σ → Except ε α} {l l' : List σ}
    (h : ∀ a, Agree Eq (l.foldlM f a) (l'.foldlM f a)) (before after : List σ) (a : α) :
    Agree Eq ((before ++ l ++ after).foldlM f a) ((before ++ l' ++ after).foldlM f a) := by
  simp only [List.foldlM_append, bind_assoc]
  exact .step _ fun b => (h b).bind_eq fun c => self _

end Agree

end RenderLayout
