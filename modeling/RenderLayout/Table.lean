/-!
Tables: finite maps from names, kept in the order of their names.

`find?` is the view of a table. The lemmas say what each operation does to it, and `ext` that a
table is determined by it.
-/

namespace RenderLayout

/-- The pairs of a list, with the one of `key` put in its place in the order of names. -/
def insertPair (key : String) (value : α) : List (String × α) → List (String × α)
  | [] => [(key, value)]
  | (k, v) :: rest =>
    if key < k then (key, value) :: (k, v) :: rest
    else if key = k then (key, value) :: rest
    else (k, v) :: insertPair key value rest

def findPair (key : String) : List (String × α) → Option α
  | [] => none
  | (k, v) :: rest => if k = key then some v else findPair key rest

/-- Strictly increasing by name, so that no name stands twice. -/
def Increasing (pairs : List (String × α)) : Prop := pairs.Pairwise fun a b => a.1 < b.1

theorem mem_insertPair {key : String} {value : α} {pairs : List (String × α)} {p : String × α}
    (h : p ∈ insertPair key value pairs) : p = (key, value) ∨ p ∈ pairs := by
  induction pairs with
  | nil => exact Or.inl (by simpa [insertPair] using h)
  | cons head rest ih =>
    obtain ⟨k, v⟩ := head
    rw [insertPair] at h
    split at h
    · simpa using h
    · split at h
      · rcases List.mem_cons.1 h with h | h
        · exact Or.inl h
        · exact Or.inr (by simp [h])
      · rcases List.mem_cons.1 h with h | h
        · exact Or.inr (by simp [h])
        · rcases ih h with h | h
          · exact Or.inl h
          · exact Or.inr (by simp [h])

theorem lt_of_not_lt_of_ne {a b : String} (h : ¬ a < b) (hne : a ≠ b) : b < a := by
  rcases String.le_total a b with hab | hab
  · exact absurd (String.le_antisymm hab (String.not_lt.1 h)) hne
  · exact Classical.byContradiction fun hba => hne (String.le_antisymm (String.not_lt.1 hba) hab)

theorem Increasing.insertPair (key : String) (value : α) {pairs : List (String × α)}
    (h : Increasing pairs) : Increasing (RenderLayout.insertPair key value pairs) := by
  induction pairs with
  | nil => simp [RenderLayout.insertPair, Increasing]
  | cons head rest ih =>
    obtain ⟨k, v⟩ := head
    obtain ⟨hhead, hrest⟩ := List.pairwise_cons.1 h
    rw [RenderLayout.insertPair]
    split
    case isTrue hlt =>
      refine List.pairwise_cons.2 ⟨fun p hp => ?_, h⟩
      rcases List.mem_cons.1 hp with rfl | hp
      · exact hlt
      · exact String.lt_trans hlt (hhead p hp)
    case isFalse hlt =>
      split
      case isTrue heq =>
        subst heq
        exact List.pairwise_cons.2 ⟨hhead, hrest⟩
      case isFalse hne =>
        refine List.pairwise_cons.2 ⟨fun p hp => ?_, ih hrest⟩
        rcases mem_insertPair hp with rfl | hp
        · exact lt_of_not_lt_of_ne hlt hne
        · exact hhead p hp

theorem findPair_insertPair (key name : String) (value : α) (pairs : List (String × α)) :
    findPair name (insertPair key value pairs) =
      if key = name then some value else findPair name pairs := by
  induction pairs with
  | nil => rfl
  | cons head rest ih =>
    obtain ⟨k, v⟩ := head
    rw [insertPair]
    split
    · rfl
    · split
      case isTrue heq =>
        subst heq
        by_cases hn : key = name <;> simp [findPair, hn]
      case isFalse hne =>
        rw [findPair, ih]
        by_cases hk : k = name
        · subst hk
          simp [findPair, hne]
        · simp [findPair, hk]

theorem findPair_eq_some_of_mem {pairs : List (String × α)} (h : Increasing pairs)
    {key : String} {value : α} (hmem : (key, value) ∈ pairs) :
    findPair key pairs = some value := by
  induction pairs with
  | nil => simp at hmem
  | cons head rest ih =>
    obtain ⟨hhead, hrest⟩ := List.pairwise_cons.1 h
    rcases List.mem_cons.1 hmem with rfl | hmem
    · simp [findPair]
    · have hlt := hhead _ hmem
      have hne : head.1 ≠ key := fun heq => String.lt_irrefl key (by rw [← heq] at hlt ⊢; exact hlt)
      rw [findPair, if_neg hne, ih hrest hmem]

theorem mem_of_findPair_eq_some {pairs : List (String × α)} {key : String} {value : α}
    (h : findPair key pairs = some value) : (key, value) ∈ pairs := by
  induction pairs with
  | nil => simp [findPair] at h
  | cons head rest ih =>
    obtain ⟨k, v⟩ := head
    rw [findPair] at h
    split at h
    case isTrue heq => simp_all
    case isFalse => exact List.mem_cons_of_mem _ (ih h)

/-- The head of an increasing list has the least of its names. -/
theorem Increasing.not_mem_lower {head : String × α} {rest : List (String × α)}
    (h : Increasing (head :: rest)) {p : String × α} (hp : p ∈ head :: rest) : ¬ p.1 < head.1 := by
  rcases List.mem_cons.1 hp with rfl | hp
  · exact String.lt_irrefl _
  · exact String.lt_asymm ((List.pairwise_cons.1 h).1 p hp)

theorem Increasing.eq_of_findPair_eq {left right : List (String × α)} (hl : Increasing left)
    (hr : Increasing right) (h : ∀ key, findPair key left = findPair key right) : left = right := by
  induction left generalizing right with
  | nil =>
    cases right with
    | nil => rfl
    | cons head rest => simpa [findPair] using h head.1
  | cons a as ih =>
    cases right with
    | nil => simpa [findPair] using h a.1
    | cons b bs =>
      have hab : (a.1, a.2) ∈ b :: bs :=
        mem_of_findPair_eq_some (by rw [← h]; simp [findPair])
      have hba : (b.1, b.2) ∈ a :: as :=
        mem_of_findPair_eq_some (by rw [h]; simp [findPair])
      have hkey : a.1 = b.1 := Classical.byContradiction fun hne =>
        hl.not_mem_lower hba (lt_of_not_lt_of_ne (hr.not_mem_lower hab) hne)
      have hval : a.2 = b.2 := by
        have := h a.1
        simp only [findPair, if_true, hkey] at this
        simpa using this
      have hhead : a = b := Prod.ext hkey hval
      subst hhead
      rw [ih (List.pairwise_cons.1 hl).2 (List.pairwise_cons.1 hr).2]
      intro key
      by_cases hkey' : a.1 = key
      · subst hkey'
        have absent : ∀ {pairs : List (String × α)}, Increasing (a :: pairs) →
            findPair a.1 pairs = none := by
          intro pairs hp
          cases hf : findPair a.1 pairs with
          | none => rfl
          | some v =>
            have hlt := (List.pairwise_cons.1 hp).1 _ (mem_of_findPair_eq_some hf)
            exact absurd hlt (String.lt_irrefl _)
        rw [absent hl, absent hr]
      · simpa [findPair, hkey'] using h key

/-- A finite map from names; its pairs stand in the order of their names. -/
@[ext] structure Table (α : Type) where
  pairs : List (String × α)
  increasing : Increasing pairs

namespace Table

def empty : Table α := ⟨[], List.Pairwise.nil⟩

instance : Inhabited (Table α) := ⟨empty⟩

def find? (t : Table α) (key : String) : Option α := findPair key t.pairs

def contains (t : Table α) (key : String) : Bool := (t.find? key).isSome

/-- The table with `value` under `key`, in place of what was there. -/
def insert (t : Table α) (key : String) (value : α) : Table α :=
  ⟨insertPair key value t.pairs, t.increasing.insertPair key value⟩

def erase (t : Table α) (key : String) : Table α :=
  ⟨t.pairs.filter (·.1 ≠ key), t.increasing.filter _⟩

def map (f : α → β) (t : Table α) : Table β :=
  ⟨t.pairs.map fun p => (p.1, f p.2), by simpa [Increasing, List.pairwise_map] using t.increasing⟩

def keys (t : Table α) : List String := t.pairs.map (·.1)

def size (t : Table α) : Nat := t.pairs.length

/-- Later pairs replace earlier ones of the same name. -/
def insertAll (t : Table α) (pairs : List (String × α)) : Table α :=
  pairs.foldl (fun t p => t.insert p.1 p.2) t

def ofList (pairs : List (String × α)) : Table α := empty.insertAll pairs

def eraseAll (t : Table α) (keys : List String) : Table α := keys.foldl erase t

@[simp] theorem find?_empty (key : String) : (empty : Table α).find? key = none := rfl

theorem find?_insert (t : Table α) (key name : String) (value : α) :
    (t.insert key value).find? name = if key = name then some value else t.find? name :=
  findPair_insertPair key name value t.pairs

theorem ext_find? {s t : Table α} (h : ∀ key, s.find? key = t.find? key) : s = t :=
  Table.ext (s.increasing.eq_of_findPair_eq t.increasing h)

theorem find?_eq_some_iff {t : Table α} {key : String} {value : α} :
    t.find? key = some value ↔ (key, value) ∈ t.pairs :=
  ⟨mem_of_findPair_eq_some, findPair_eq_some_of_mem t.increasing⟩

theorem find?_erase (t : Table α) (key name : String) :
    (t.erase key).find? name = if key = name then none else t.find? name := by
  refine Option.ext fun value => ?_
  rw [find?_eq_some_iff]
  by_cases h : key = name
  · simp [erase, h]
  · simp [erase, h, find?_eq_some_iff, Ne.symm h]

theorem find?_eraseAll (t : Table α) (keys : List String) (name : String) :
    (t.eraseAll keys).find? name = if name ∈ keys then none else t.find? name := by
  induction keys generalizing t with
  | nil => simp [eraseAll]
  | cons key keys ih =>
    rw [show t.eraseAll (key :: keys) = (t.erase key).eraseAll keys from rfl, ih, find?_erase]
    by_cases h : key = name
    · subst h
      simp
    · simp [h, Ne.symm h]

theorem find?_map (f : α → β) (t : Table α) (key : String) :
    (t.map f).find? key = (t.find? key).map f := by
  obtain ⟨pairs, h⟩ := t
  simp only [map, find?]
  clear h
  induction pairs with
  | nil => rfl
  | cons head rest ih =>
    by_cases hk : head.1 = key <;> simp [findPair, hk, ih]

end Table

/-- A set of names. -/
abbrev Names := Table Unit

def Names.add (names : Names) (name : String) : Names := names.insert name ()

def Names.ofList (names : List String) : Names := names.foldl add .empty

theorem Names.contains_add (names : Names) (name other : String) :
    (names.add name).contains other = (name = other || names.contains other) := by
  by_cases h : name = other <;> simp [add, Table.contains, Table.find?_insert, h]

end RenderLayout
