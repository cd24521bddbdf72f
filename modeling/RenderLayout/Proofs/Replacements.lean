import Mathlib.Data.List.Induction
import Mathlib.Order.Bounds.Basic
import Mathlib.Tactic.Common
import Mathlib.Tactic.Order
import RenderLayout.Layout.Unify
import RenderLayout.Proofs.StyleEquality
import RenderLayout.Proofs.Tables

/-!
Which names unification replaces, and by which.

The names of equal styles make a group. A group has a first name, and one that represents it: the
first of its class names, or the first name if it has none. The scan over the pairs replaces every
other name of the group, at a pair that is known in advance: the first name and those before the
representative at their pair with the first name, those after it at their pair with the
representative.
-/

namespace RenderLayout

variable {classes : Names} {styles : Table Style} {replaced : Table String}
variable {a b c name other first kept x y new : String}

/-! ### Groups of equal styles -/

/-- Both names have styles, and these are equal. -/
def Alike (styles : Table Style) (a b : String) : Prop :=
  ∃ s t, styles.find? a = some s ∧ styles.find? b = some t ∧ (s == t) = true

lemma Alike.symm (h : Alike styles a b) : Alike styles b a := by
  obtain ⟨s, t, ha, hb, hst⟩ := h
  exact ⟨t, s, hb, ha, BEq.symm hst⟩

lemma Alike.trans (h : Alike styles a b) (h' : Alike styles b c) : Alike styles a c := by
  obtain ⟨s, t, ha, hb, hst⟩ := h
  obtain ⟨t', u, hb', hc, htu⟩ := h'
  obtain rfl : t = t' := Option.some.inj (hb.symm.trans hb')
  exact ⟨s, u, ha, hc, BEq.trans hst htu⟩

lemma Alike.self (h : Alike styles a b) : Alike styles a a := h.trans h.symm

lemma Alike.contains (h : Alike styles a b) : styles.contains a = true := by
  obtain ⟨s, -, ha, -, -⟩ := h
  exact Table.contains_of_find? ha

lemma Alike.of_nanFree {style : Style} (h : styles.find? a = some style) (hnan : style.NaNFree) :
    Alike styles a a :=
  ⟨style, style, h, h, hnan.beq_self⟩

/-- The names of styles equal to that of `name`. -/
def group (styles : Table Style) (name : String) : Set String := {other | Alike styles name other}

/-- Those of them that are names of classes. -/
def classGroup (classes : Names) (styles : Table Style) (name : String) : Set String :=
  {other | Alike styles name other ∧ classes.contains other = true}

/-- `kept` is the first class name of the group of `name`, or its first name if it has no class. -/
inductive Represents (classes : Names) (styles : Table Style) (name kept : String) : Prop
  | ofClass (least : IsLeast (classGroup classes styles name) kept)
  | ofRest (noClass : classGroup classes styles name = ∅) (least : IsLeast (group styles name) kept)

lemma group_eq (h : Alike styles name other) : group styles name = group styles other :=
  Set.ext fun _ => ⟨h.symm.trans, h.trans⟩

lemma classGroup_eq (h : Alike styles name other) :
    classGroup classes styles name = classGroup classes styles other :=
  Set.ext fun _ => and_congr_left fun _ => ⟨h.symm.trans, h.trans⟩

lemma exists_first (h : Alike styles name name) : ∃ first, IsLeast (group styles name) first := by
  obtain ⟨first, -, hfirst, hmin⟩ := styles.exists_least (P := Alike styles name) h.contains h
  exact ⟨first, hfirst, fun other ho => hmin other ho.symm.contains ho⟩

lemma exists_represents (classes : Names) (h : Alike styles name name) :
    ∃ kept, Represents classes styles name kept := by
  by_cases hempty : classGroup classes styles name = ∅
  · obtain ⟨first, hfirst⟩ := exists_first h
    exact ⟨first, .ofRest hempty hfirst⟩
  · obtain ⟨c, hc⟩ := Set.nonempty_iff_ne_empty.2 hempty
    obtain ⟨kept, -, hkept, hmin⟩ :=
      styles.exists_least (P := (· ∈ classGroup classes styles name)) hc.1.symm.contains hc
    exact ⟨kept, .ofClass ⟨hkept, fun other ho => hmin other ho.1.symm.contains ho⟩⟩

namespace Represents

lemma alike (h : Represents classes styles name kept) : Alike styles name kept := by
  cases h with
  | ofClass least => exact least.1.1
  | ofRest _ least => exact least.1

lemma transfer (h : Represents classes styles name kept) (ho : Alike styles other name) :
    Represents classes styles other kept := by
  cases h with
  | ofClass least =>
    rw [← classGroup_eq ho] at least
    exact .ofClass least
  | ofRest noClass least =>
    rw [← classGroup_eq ho] at noClass
    rw [← group_eq ho] at least
    exact .ofRest noClass least

lemma unique (h : Represents classes styles name kept) (h' : Represents classes styles name other) :
    kept = other := by
  cases h with
  | ofClass least =>
    cases h' with
    | ofClass least' => exact least.unique least'
    | ofRest noClass' => exact absurd least.1 (by rw [noClass']; exact id)
  | ofRest noClass least =>
    cases h' with
    | ofClass least' => exact absurd least'.1 (by rw [noClass]; exact id)
    | ofRest _ least' => exact least.unique least'

/-- No class name of the group comes before the representative. -/
lemma le_class (h : Represents classes styles name kept) (ho : Alike styles name other)
    (hclass : classes.contains other = true) : kept ≤ other := by
  cases h with
  | ofClass least => exact least.2 ⟨ho, hclass⟩
  | ofRest _ least => exact least.2 ho

lemma class_of_class (h : Represents classes styles name kept) (ho : Alike styles name other)
    (hclass : classes.contains other = true) : classes.contains kept = true := by
  cases h with
  | ofClass least => exact least.1.2
  | ofRest noClass =>
    have : other ∈ classGroup classes styles name := ⟨ho, hclass⟩
    exact absurd this (by rw [noClass]; exact id)

/-- Only a class name comes before the first name. -/
lemma class_of_lt (h : Represents classes styles name kept) (ho : Alike styles name other)
    (hlt : other < kept) : classes.contains kept = true := by
  cases h with
  | ofClass least => exact least.1.2
  | ofRest _ least => exact absurd (least.2 ho) (not_le_of_gt hlt)

end Represents

/-! ### The pair at which a name is replaced -/

/-- With `first` and `kept` of its group, `name` is replaced by `new` at the pair of `x` and `y`. -/
inductive ReplacedAt (first kept : String) : String → String → String → String → Prop
  | first (h : first < kept) : ReplacedAt first kept first kept first kept
  | before {name : String} (hfirst : first < name) (h : name < kept) :
    ReplacedAt first kept name first first name
  | after {name : String} (h : kept < name) : ReplacedAt first kept name kept kept name

namespace ReplacedAt

lemma lt (h : ReplacedAt first kept name new x y) : x < y := by
  cases h <;> assumption

lemma eq_or_eq (h : ReplacedAt first kept name new x y) : name = x ∨ name = y := by
  cases h
  · exact Or.inl rfl
  · exact Or.inr rfl
  · exact Or.inr rfl

/-- At a pair one name is replaced. -/
lemma unique_name {name' new' : String} (h : ReplacedAt first kept name new x y)
    (h' : ReplacedAt first kept name' new' x y) : name = name' ∧ new = new' := by
  cases h <;> cases h' <;> first | exact ⟨rfl, rfl⟩ | order

end ReplacedAt

/-- The style `name` is replaced by `new` at the pair of `x` and `y`. -/
def Replaces (classes : Names) (styles : Table Style) (name new x y : String) : Prop :=
  ∃ first kept, IsLeast (group styles name) first ∧ Represents classes styles name kept ∧
    ReplacedAt first kept name new x y

lemma replaces_iff (hfirst : IsLeast (group styles a) first)
    (hkept : Represents classes styles a kept) (h : Alike styles name a) :
    Replaces classes styles name new x y ↔ ReplacedAt first kept name new x y := by
  constructor
  · rintro ⟨first', kept', hfirst', hkept', hat⟩
    rw [group_eq h] at hfirst'
    obtain rfl := hfirst'.unique hfirst
    obtain rfl := hkept'.unique (hkept.transfer h)
    exact hat
  · intro hat
    exact ⟨first, kept, by rwa [group_eq h], hkept.transfer h, hat⟩

lemma Replaces.alike_left (h : Replaces classes styles name new x y) : Alike styles name x := by
  obtain ⟨first, kept, hfirst, hkept, hat⟩ := h
  cases hat with
  | first => exact hfirst.1
  | before => exact hfirst.1
  | after => exact hkept.alike

lemma Replaces.alike_right (h : Replaces classes styles name new x y) : Alike styles name y := by
  obtain ⟨first, kept, hfirst, hkept, hat⟩ := h
  cases hat with
  | first => exact hkept.alike
  | before => exact hkept.alike.self
  | after => exact hkept.alike.self

lemma Replaces.lt (h : Replaces classes styles name new x y) : x < y := by
  obtain ⟨first, kept, -, -, hat⟩ := h
  exact hat.lt

/-! ### One pair -/

/-- The pair of `x` and `y` comes before that of `a` and `b`. -/
def Earlier (x y a b : String) : Prop := x < a ∨ x = a ∧ y < b

namespace ReplacedAt

/-- When the pair of `a` and `b` comes, `name` is replaced. -/
def Done (first kept name a b : String) : Prop :=
  ∃ new x y, ReplacedAt first kept name new x y ∧ Earlier x y a b

/-- At the pair at which one of them is replaced, neither is replaced yet. -/
lemma not_done (h : ReplacedAt first kept name new a b) (hle : first ≤ kept) :
    ¬ Done first kept a a b ∧ ¬ Done first kept b a b := by
  constructor
  all_goals
    rintro ⟨new', x, y, hat, hearlier⟩
    unfold Earlier at hearlier
    cases h <;> cases hat <;> grind

/-- At the first pair after which its first name is not replaced, one of the two is. -/
lemma exists_of_not_done (hle : first ≤ a) (hlt : a < b) (h : ¬ Done first kept a a b) :
    ∃ name new, ReplacedAt first kept name new a b := by
  rcases lt_trichotomy a kept with hak | rfl | hka
  · rcases hle.eq_or_lt with rfl | hfa
    · rcases lt_trichotomy b kept with hbk | rfl | hkb
      · exact ⟨b, first, .before hlt hbk⟩
      · exact ⟨first, b, .first hak⟩
      · -- the first name is replaced at its pair with the representative, which is over
        exact absurd ⟨kept, first, kept, .first hak, Or.inr ⟨rfl, hkb⟩⟩ h
    · exact absurd ⟨first, first, a, .before hfa hak, Or.inl hfa⟩ h
  · exact ⟨b, a, .after hlt⟩
  · exact absurd ⟨kept, kept, a, .after hka, Or.inl hka⟩ h

end ReplacedAt

/-- The pair at which a name is replaced prefers the name that replaces it. -/
lemma prefer_eq (hfirst : IsLeast (group styles a) first) (hkept : Represents classes styles a kept)
    (hab : Alike styles a b) (h : ReplacedAt first kept name new a b) :
    prefer classes a b = (new, name) := by
  unfold prefer
  cases h with
  | first hlt =>
    have hclass : classes.contains b = true := hkept.class_of_lt hab.self hlt
    have hrest : classes.contains a = false := by
      by_contra hc
      exact absurd (hkept.le_class hab.self (by simpa using hc)) (not_le_of_gt hlt)
    simp [hclass, hrest]
  | before _ hlt =>
    have hrest : classes.contains b = false := by
      by_contra hc
      exact absurd (hkept.le_class hab (by simpa using hc)) (not_le_of_gt hlt)
    simp [hrest]
  | after _ =>
    cases hb : classes.contains b with
    | false => simp
    | true => simp [hkept.class_of_class hab hb]

lemma noteReplacement_eq (p q : String × Style) :
    noteReplacement classes replaced (p, q) =
      if replaced.contains p.1 = false ∧ replaced.contains q.1 = false ∧ (p.2 == q.2) = true then
        replaced.insert (prefer classes p.1 q.1).2 (prefer classes p.1 q.1).1
      else replaced := by
  obtain ⟨a, s⟩ := p
  obtain ⟨b, t⟩ := q
  unfold noteReplacement prefer
  dsimp only
  split <;> dsimp only <;> grind

/-- The names replaced are those whose pair comes before that of `a` and `b`. -/
def ReplacedBefore (classes : Names) (styles : Table Style) (replaced : Table String)
    (a b : String) : Prop :=
  ∀ name new, replaced.find? name = some new ↔
    ∃ x y, Replaces classes styles name new x y ∧ Earlier x y a b

lemma contains_replaced_iff (hstate : ReplacedBefore classes styles replaced a b)
    (hfirst : IsLeast (group styles a) first) (hkept : Represents classes styles a kept)
    (h : Alike styles name a) :
    replaced.contains name = true ↔ ReplacedAt.Done first kept name a b := by
  simp only [Table.contains_iff, hstate name, replaces_iff hfirst hkept h, ReplacedAt.Done]

/-- At a pair of different styles nothing is replaced. -/
lemma not_replaces_of_ne {s t : Style} (hs : styles.find? a = some s) (ht : styles.find? b = some t)
    (hst : ¬ (s == t) = true) : ¬ Replaces classes styles name new a b := by
  intro h
  obtain ⟨s', t', hs', ht', heq⟩ := h.alike_left.symm.trans h.alike_right
  obtain rfl : s = s' := Option.some.inj (hs.symm.trans hs')
  obtain rfl : t = t' := Option.some.inj (ht.symm.trans ht')
  exact hst heq

/-- The replacement that is due at a pair is the only one that comes with it. -/
lemma find?_insert_due {due into : String} (hfirst : IsLeast (group styles a) first)
    (hkept : Represents classes styles a kept) (hab : Alike styles a b)
    (hat : ReplacedAt first kept due into a b) (ha : replaced.contains a = false)
    (hb : replaced.contains b = false) (name new : String) :
    (replaced.insert due into).find? name = some new ↔
      replaced.find? name = some new ∨ Replaces classes styles name new a b := by
  rw [Table.find?_insert]
  by_cases hname : due = name
  · subst hname
    have halike : Alike styles due a := by
      rcases hat.eq_or_eq with rfl | rfl
      · exact hab.self
      · exact hab.symm
    have hnone : replaced.find? due = none := by
      rw [← Table.contains_eq_false_iff]
      rcases hat.eq_or_eq with rfl | rfl <;> assumption
    rw [if_pos rfl, hnone, replaces_iff hfirst hkept halike]
    constructor
    · rintro ⟨⟩
      exact Or.inr hat
    · rintro (⟨⟨⟩⟩ | h)
      rw [(hat.unique_name h).2]
  · have hnone : ¬ Replaces classes styles name new a b := fun h =>
      hname (hat.unique_name ((replaces_iff hfirst hkept h.alike_left).1 h)).1
    rw [if_neg hname, or_iff_left hnone]

/-- A pair adds the replacement that is due at it. -/
lemma find?_noteReplacement {s t : Style} (hs : styles.find? a = some s)
    (ht : styles.find? b = some t) (hlt : a < b)
    (hstate : ReplacedBefore classes styles replaced a b) (name new : String) :
    (noteReplacement classes replaced ((a, s), (b, t))).find? name = some new ↔
      replaced.find? name = some new ∨ Replaces classes styles name new a b := by
  by_cases hst : (s == t) = true
  case neg =>
    rw [noteReplacement_eq, if_neg (fun h => hst h.2.2),
      or_iff_left (not_replaces_of_ne hs ht hst)]
  case pos =>
    have hab : Alike styles a b := ⟨s, t, hs, ht, hst⟩
    obtain ⟨first, hfirst⟩ := exists_first hab.self
    obtain ⟨kept, hkept⟩ := exists_represents classes hab.self
    have hle : first ≤ kept := hfirst.2 hkept.alike
    have hopen {n : String} (h : Alike styles n a) :
        replaced.contains n = true ↔ ReplacedAt.Done first kept n a b :=
      contains_replaced_iff hstate hfirst hkept h
    by_cases hdone : ReplacedAt.Done first kept a a b
    case pos =>
      have hnone : ¬ Replaces classes styles name new a b := fun h =>
        (((replaces_iff hfirst hkept h.alike_left).1 h).not_done hle).1 hdone
      rw [noteReplacement_eq, if_neg (fun h => by simp [(hopen hab.self).2 hdone] at h),
        or_iff_left hnone]
    case neg =>
      obtain ⟨due, into, hat⟩ := ReplacedAt.exists_of_not_done (hfirst.2 hab.self) hlt hdone
      have ha : replaced.contains a = false := by
        simpa using (hopen hab.self).not.2 hdone
      have hb : replaced.contains b = false := by
        simpa using (hopen hab.symm).not.2 (hat.not_done hle).2
      rw [noteReplacement_eq, if_pos ⟨ha, hb, hst⟩, prefer_eq hfirst hkept hab hat]
      exact find?_insert_due hfirst hkept hab hat ha hb name new

/-! ### All pairs -/

/-- Pairs stand in the order of their first members, and then of their second ones. -/
lemma pairwise_orderedPairs {α : Type} {R : α → α → Prop} {l : List α} (h : l.Pairwise R) :
    (orderedPairs l).Pairwise fun p q => R p.1 q.1 ∨ p.1 = q.1 ∧ R p.2 q.2 := by
  induction l with
  | nil => exact List.Pairwise.nil
  | cons c rest ih =>
    obtain ⟨hhead, hrest⟩ := List.pairwise_cons.1 h
    refine List.pairwise_append.2 ⟨?_, ih hrest, ?_⟩
    · rw [List.pairwise_map]
      exact hrest.imp fun hab => Or.inr ⟨rfl, hab⟩
    · intro p hp q hq
      obtain ⟨b, -, rfl⟩ := List.mem_map.1 hp
      have hsub := mem_orderedPairs_iff.1 (show (q.1, q.2) ∈ orderedPairs rest from hq)
      exact Or.inl (hhead q.1 (hsub.subset List.mem_cons_self))

lemma mem_pairs {s t : Style} (h : ((a, s), (b, t)) ∈ orderedPairs styles.pairs) :
    styles.find? a = some s ∧ styles.find? b = some t ∧ a < b := by
  have hsub := mem_orderedPairs_iff.1 h
  have hlt : a < b := by simpa using styles.increasing.sublist hsub
  exact ⟨Table.find?_eq_some_iff.2 (hsub.subset (by simp)),
    Table.find?_eq_some_iff.2 (hsub.subset (by simp)), hlt⟩

lemma mem_orderedPairs_of_lt {s t : Style} (hs : styles.find? a = some s)
    (ht : styles.find? b = some t) (hlt : a < b) :
    ((a, s), (b, t)) ∈ orderedPairs styles.pairs := by
  rw [mem_orderedPairs_iff]
  rw [Table.find?_eq_some_iff] at hs ht
  obtain ⟨l, r, hsplit⟩ := List.append_of_mem hs
  have hinc := styles.increasing
  rw [hsplit] at hinc ht ⊢
  obtain ⟨-, -, hleft⟩ := List.pairwise_append.1 hinc
  rcases List.mem_append.1 ht with ht | ht
  · have hba : b < a := hleft _ ht _ List.mem_cons_self
    exact absurd hba (lt_asymm hlt)
  · rcases List.mem_cons.1 ht with heq | ht
    · obtain ⟨rfl, -⟩ := Prod.mk.inj heq
      exact absurd hlt (lt_irrefl b)
    · exact ((List.singleton_sublist.2 ht).cons_cons _).trans (List.sublist_append_right l _)

/-- Of the pairs scanned one after another, those before a pair are the earlier ones. -/
lemma mem_iff_earlier {scanned rest : List ((String × Style) × (String × Style))} {s t u v : Style}
    (h : orderedPairs styles.pairs = scanned ++ ((a, s), (b, t)) :: rest)
    (hmem : ((x, u), (y, v)) ∈ orderedPairs styles.pairs) :
    ((x, u), (y, v)) ∈ scanned ↔ Earlier x y a b := by
  have hsorted := pairwise_orderedPairs styles.increasing
  rw [h] at hsorted hmem
  obtain ⟨-, hrest, hscanned⟩ := List.pairwise_append.1 hsorted
  constructor
  · intro hx
    have := hscanned _ hx _ List.mem_cons_self
    rcases this with hlt | ⟨heq, hlt⟩
    · exact Or.inl hlt
    · exact Or.inr ⟨congrArg Prod.fst heq, hlt⟩
  · intro hearlier
    unfold Earlier at hearlier
    rcases List.mem_append.1 hmem with hmem | hmem
    · exact hmem
    · rcases List.mem_cons.1 hmem with heq | hmem
      · cases heq
        rcases hearlier with hlt | ⟨-, hlt⟩
        · exact absurd hlt (lt_irrefl _)
        · exact absurd hlt (lt_irrefl _)
      · have := (List.pairwise_cons.1 hrest).1 _ hmem
        dsimp only at this
        grind

/-- After a part of the scan the names replaced are those due at one of its pairs. -/
lemma find?_foldl_noteReplacement {scanned rest : List ((String × Style) × (String × Style))}
    (h : orderedPairs styles.pairs = scanned ++ rest) (name new : String) :
    (scanned.foldl (noteReplacement classes) .empty).find? name = some new ↔
      ∃ p ∈ scanned, Replaces classes styles name new p.1.1 p.2.1 := by
  induction scanned using List.reverseRecOn generalizing rest name new with
  | nil => simp
  | append_singleton scanned p ih =>
    obtain ⟨⟨a, s⟩, ⟨b, t⟩⟩ := p
    rw [List.append_assoc, List.singleton_append] at h
    obtain ⟨hs, ht, hlt⟩ := mem_pairs (h ▸ by simp : ((a, s), (b, t)) ∈ orderedPairs styles.pairs)
    have hstate : ReplacedBefore classes styles (scanned.foldl (noteReplacement classes) .empty)
        a b := by
      intro name new
      rw [ih h]
      constructor
      · rintro ⟨⟨⟨x, u⟩, ⟨y, v⟩⟩, hmem, hrep⟩
        exact ⟨x, y, hrep, (mem_iff_earlier h (h ▸ by simp [hmem])).1 hmem⟩
      · rintro ⟨x, y, hrep, hearlier⟩
        obtain ⟨-, u, -, hu, -⟩ := hrep.alike_left
        obtain ⟨-, v, -, hv, -⟩ := hrep.alike_right
        have hmem := mem_orderedPairs_of_lt hu hv hrep.lt
        exact ⟨_, (mem_iff_earlier h hmem).2 hearlier, hrep⟩
    rw [List.foldl_append, List.foldl_cons, List.foldl_nil,
      find?_noteReplacement hs ht hlt hstate, ih h]
    simp [or_and_right, exists_or]

namespace Layout

variable {layout : Layout}

lemma find?_replacements :
    (layout.replacements classes).find? name = some new ↔
      ∃ x y, Replaces classes layout.styles name new x y := by
  rw [replacements, find?_foldl_noteReplacement (List.append_nil _).symm]
  constructor
  · rintro ⟨p, -, h⟩
    exact ⟨_, _, h⟩
  · rintro ⟨x, y, h⟩
    obtain ⟨-, u, -, hu, -⟩ := h.alike_left
    obtain ⟨-, v, -, hv, -⟩ := h.alike_right
    exact ⟨_, mem_orderedPairs_of_lt hu hv h.lt, h⟩

lemma replaces_self_of_find? (h : (layout.replacements classes).find? name = some new) :
    Alike layout.styles name name := by
  obtain ⟨x, y, h⟩ := find?_replacements.1 h
  exact h.alike_left.self

/-- A style with NaN, which equals not even itself, is not replaced. -/
lemma find?_replacements_of_not_alike (h : ¬ Alike layout.styles name name) :
    (layout.replacements classes).find? name = none :=
  Option.eq_none_iff_forall_ne_some.2 fun _ hnew => h (replaces_self_of_find? hnew)

/-- The representative of a group is not replaced. -/
lemma find?_replacements_of_represents (h : Represents classes layout.styles name kept) :
    (layout.replacements classes).find? kept = none := by
  refine Option.eq_none_iff_forall_ne_some.2 fun new hnew => ?_
  obtain ⟨x, y, first, kept', -, hkept', hat⟩ := find?_replacements.1 hnew
  obtain rfl := hkept'.unique (h.transfer h.alike.symm)
  cases hat with
  | first hlt => exact lt_irrefl _ hlt
  | before _ hlt => exact lt_irrefl _ hlt
  | after hlt => exact lt_irrefl _ hlt

lemma replacements_of_replacedAt (hfirst : IsLeast (group layout.styles name) first)
    (hkept : Represents classes layout.styles name kept)
    (hat : ReplacedAt first kept name new x y) :
    (layout.replacements classes).find? name = some new :=
  find?_replacements.2 ⟨x, y, first, kept, hfirst, hkept, hat⟩

end Layout

end RenderLayout
