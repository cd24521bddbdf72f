import Mathlib.Data.Finset.Max
import Mathlib.Data.List.Nodup
import Mathlib.Data.String.Basic
import Mathlib.Tactic.Common
import RenderLayout.Table

/-!
More on tables: their keys, the least key with a property, and what many insertions or many
removals come to.
-/

namespace RenderLayout

/-- The last element of a list that has a property. -/
lemma find?_reverse_eq_some_iff {α : Type} {l : List α} {p : α → Bool} {a : α} :
    l.reverse.find? p = some a ↔
      p a = true ∧ ∃ earlier later, l = earlier ++ a :: later ∧ ∀ b ∈ later, p b = false := by
  rw [List.find?_eq_some_iff_append]
  refine and_congr_right fun _ => ?_
  constructor
  · rintro ⟨later, earlier, hl, hlater⟩
    refine ⟨earlier.reverse, later.reverse, ?_, fun b hb => ?_⟩
    · rw [← List.reverse_reverse l, hl]
      simp
    · simpa using hlater b (List.mem_reverse.1 hb)
  · rintro ⟨earlier, later, rfl, hlater⟩
    refine ⟨later.reverse, earlier.reverse, by simp, fun b hb => ?_⟩
    simpa using hlater b (List.mem_reverse.1 hb)

namespace Table

variable {α : Type}

/-! ### Keys -/

lemma contains_iff {t : Table α} {key : String} :
    t.contains key = true ↔ ∃ value, t.find? key = some value := by
  rw [contains, Option.isSome_iff_exists]

lemma contains_of_find? {t : Table α} {key : String} {value : α} (h : t.find? key = some value) :
    t.contains key = true :=
  contains_iff.2 ⟨value, h⟩

lemma contains_eq_false_iff {t : Table α} {key : String} :
    t.contains key = false ↔ t.find? key = none := by
  rw [contains, Option.isSome_eq_false_iff, Option.isNone_iff_eq_none]

lemma mem_keys_iff {t : Table α} {key : String} : key ∈ t.keys ↔ t.contains key = true := by
  rw [contains_iff, keys, List.mem_map]
  constructor
  · rintro ⟨⟨k, v⟩, hmem, rfl⟩
    exact ⟨v, find?_eq_some_iff.2 hmem⟩
  · rintro ⟨value, h⟩
    exact ⟨(key, value), find?_eq_some_iff.1 h, rfl⟩

/-- A key behind another one is found among the pairs behind that one. -/
lemma find?_of_split {t : Table α} {earlier later : List (String × α)} {key name : String}
    {value : α} (h : t.pairs = earlier ++ (key, value) :: later) (hlt : key < name) :
    t.find? name = findPair name later := by
  have hinc := t.increasing
  rw [h] at hinc
  obtain ⟨-, hlast, hfirst⟩ := List.pairwise_append.1 hinc
  refine Option.ext fun found => ?_
  rw [find?_eq_some_iff, h]
  constructor
  · intro hmem
    rcases List.mem_append.1 hmem with hmem | hmem
    · have hname : name < key := hfirst _ hmem _ List.mem_cons_self
      exact absurd hname (lt_asymm hlt)
    · rcases List.mem_cons.1 hmem with heq | hmem
      · exact absurd (congrArg Prod.fst heq) (ne_of_gt hlt)
      · exact findPair_eq_some_of_mem (List.pairwise_cons.1 hlast).2 hmem
  · intro hfound
    exact List.mem_append_right _ (List.mem_cons_of_mem _ (mem_of_findPair_eq_some hfound))

lemma keys_map {β : Type} (f : α → β) (t : Table α) : (t.map f).keys = t.keys := by
  rw [keys, keys, map, List.map_map]
  rfl

/-- Tables with the same keys have them in the same order. -/
lemma keys_eq {β : Type} {s : Table α} {t : Table β}
    (h : ∀ key, s.contains key = t.contains key) : s.keys = t.keys := by
  have hunit : s.map (fun _ => ()) = t.map fun _ => () := by
    refine ext_find? fun key => ?_
    have hkey := h key
    rw [contains, contains] at hkey
    rw [find?_map, find?_map]
    cases hs : s.find? key <;> cases ht : t.find? key <;> simp_all
  rw [← keys_map (fun _ => ()) s, hunit, keys_map]

lemma contains_insert (t : Table α) (key name : String) (value : α) :
    (t.insert key value).contains name = (decide (key = name) || t.contains name) := by
  rw [contains, find?_insert]
  by_cases h : key = name <;> simp [h, contains]

lemma map_id (t : Table α) : t.map id = t := by
  refine ext_find? fun key => ?_
  rw [find?_map, Option.map_id, id]

lemma size_pos {t : Table α} {key : String} (h : t.contains key = true) : 0 < t.size := by
  have hkey := mem_keys_iff.2 h
  rw [keys] at hkey
  simpa [size] using List.length_pos_of_mem hkey

lemma nodup_keys (t : Table α) : t.keys.Nodup := by
  unfold keys
  refine List.pairwise_map.2 (t.increasing.imp ?_)
  intro a b hab
  exact ne_of_lt hab

/-- Among the keys that have a property there is a least one. -/
lemma exists_least (t : Table α) {P : String → Prop} {key : String} (hkey : t.contains key = true)
    (hP : P key) :
    ∃ least, t.contains least = true ∧ P least ∧
      ∀ other, t.contains other = true → P other → least ≤ other := by
  classical
  have hmem {k : String} : k ∈ t.keys.toFinset.filter P ↔ t.contains k = true ∧ P k := by
    rw [Finset.mem_filter, List.mem_toFinset, mem_keys_iff]
  obtain ⟨least, hleast, hmin⟩ :=
    Finset.exists_min_image (t.keys.toFinset.filter P) id ⟨key, hmem.2 ⟨hkey, hP⟩⟩
  obtain ⟨hleast, hPleast⟩ := hmem.1 hleast
  exact ⟨least, hleast, hPleast, fun other h hPother => hmin other (hmem.2 ⟨h, hPother⟩)⟩

lemma map_insert {β : Type} (f : α → β) (t : Table α) (key : String) (value : α) :
    (t.insert key value).map f = (t.map f).insert key (f value) := by
  refine ext_find? fun name => ?_
  simp only [find?_map, find?_insert]
  split <;> rfl

/-! ### Many insertions -/

/-- Of several pairs with a key the last one counts. -/
lemma find?_insertAll (t : Table α) (pairs : List (String × α)) (key : String) :
    (t.insertAll pairs).find? key =
      ((pairs.reverse.find? (·.1 = key)).map (·.2)).or (t.find? key) := by
  induction pairs generalizing t with
  | nil => rfl
  | cons p pairs ih =>
    rw [show t.insertAll (p :: pairs) = (t.insert p.1 p.2).insertAll pairs from rfl, ih,
      find?_insert, List.reverse_cons, List.find?_append]
    cases pairs.reverse.find? (·.1 = key) with
    | some q => rfl
    | none => by_cases h : p.1 = key <;> simp [h]

lemma find?_ofList (pairs : List (String × α)) (key : String) :
    (ofList pairs).find? key = (pairs.reverse.find? (·.1 = key)).map (·.2) := by
  rw [ofList, find?_insertAll, find?_empty, Option.or_none]

/-- Pairs go over those before them. -/
lemma find?_ofList_append (pairs more : List (String × α)) (key : String) :
    (ofList (pairs ++ more)).find? key = ((ofList more).find? key).or ((ofList pairs).find? key) := by
  rw [find?_ofList, find?_ofList, find?_ofList, List.reverse_append, List.find?_append,
    Option.map_or]

lemma find?_ofList_eq_some_iff_last {pairs : List (String × α)} {key : String} {value : α} :
    (ofList pairs).find? key = some value ↔
      ∃ earlier later, pairs = earlier ++ (key, value) :: later ∧ ∀ p ∈ later, p.1 ≠ key := by
  rw [find?_ofList, Option.map_eq_some_iff]
  constructor
  · rintro ⟨⟨k, v⟩, hfind, rfl⟩
    obtain ⟨hkey, earlier, later, hpairs, hlater⟩ := find?_reverse_eq_some_iff.1 hfind
    obtain rfl : k = key := of_decide_eq_true hkey
    exact ⟨earlier, later, hpairs, fun p hp => of_decide_eq_false (hlater p hp)⟩
  · rintro ⟨earlier, later, hpairs, hlater⟩
    exact ⟨(key, value), find?_reverse_eq_some_iff.2 ⟨decide_eq_true rfl, earlier, later, hpairs,
      fun p hp => decide_eq_false (hlater p hp)⟩, rfl⟩

/-- What is found after many insertions is one of them, or it was there. -/
lemma mem_or_of_find?_insertAll {t : Table α} {pairs : List (String × α)} {key : String} {value : α}
    (h : (t.insertAll pairs).find? key = some value) :
    (key, value) ∈ pairs ∨ t.find? key = some value := by
  rw [find?_insertAll] at h
  cases hq : pairs.reverse.find? (·.1 = key) with
  | none =>
    rw [hq] at h
    exact Or.inr h
  | some q =>
    rw [hq] at h
    obtain rfl : q.1 = key := by simpa using List.find?_some hq
    obtain rfl : q.2 = value := by simpa using h
    exact Or.inl (List.mem_reverse.1 (List.mem_of_find?_eq_some hq))

lemma find?_insertAll_of_ne (t : Table α) {pairs : List (String × α)} {key : String}
    (h : ∀ p ∈ pairs, p.1 ≠ key) : (t.insertAll pairs).find? key = t.find? key := by
  have hnone : pairs.reverse.find? (·.1 = key) = none := by
    rw [List.find?_eq_none]
    intro p hp
    simpa using h p (List.mem_reverse.1 hp)
  rw [find?_insertAll, hnone]
  rfl

lemma find?_insertAll_of_mem (t : Table α) {pairs : List (String × α)} {p : String × α}
    (hmem : p ∈ pairs) (hnodup : (pairs.map (·.1)).Nodup) :
    (t.insertAll pairs).find? p.1 = some p.2 := by
  have hfind : pairs.reverse.find? (·.1 = p.1) = some p := by
    cases hq : pairs.reverse.find? (·.1 = p.1) with
    | none =>
      have hself := List.find?_eq_none.1 hq p (List.mem_reverse.2 hmem)
      exact absurd (decide_eq_true rfl) hself
    | some q =>
      have hkey : q.1 = p.1 := by simpa using List.find?_some hq
      have hqmem : q ∈ pairs := List.mem_reverse.1 (List.mem_of_find?_eq_some hq)
      rw [List.inj_on_of_nodup_map hnodup hqmem hmem hkey]
  rw [find?_insertAll, hfind]
  rfl

/-- A table that is put over another one hides it where both have a key. -/
lemma find?_insertAll_pairs (t upper : Table α) (key : String) :
    (t.insertAll upper.pairs).find? key = (upper.find? key).or (t.find? key) := by
  cases h : upper.find? key with
  | some value =>
    exact find?_insertAll_of_mem t (p := (key, value)) (find?_eq_some_iff.1 h) upper.nodup_keys
  | none =>
    refine find?_insertAll_of_ne t fun p hp hkey => ?_
    have := find?_eq_some_iff.2 (show (p.1, p.2) ∈ upper.pairs from hp)
    rw [hkey, h] at this
    cases this

lemma ofList_pairs (t : Table α) : ofList t.pairs = t := by
  refine ext_find? fun key => ?_
  rw [ofList, find?_insertAll_pairs, find?_empty, Option.or_none]

/-! ### Tables of pairs -/

section Pairs

variable {pairs : List (String × α)}

lemma contains_insertAll (t : Table α) (pairs : List (String × α)) (key : String) :
    (t.insertAll pairs).contains key = true ↔
      key ∈ pairs.map (·.1) ∨ t.contains key = true := by
  induction pairs generalizing t with
  | nil => simp [insertAll]
  | cons p pairs ih =>
    rw [show t.insertAll (p :: pairs) = (t.insert p.1 p.2).insertAll pairs from rfl, ih,
      contains_insert, Bool.or_eq_true, decide_eq_true_iff, List.map_cons, List.mem_cons,
      ← or_assoc, or_comm (a := key ∈ pairs.map (·.1)), eq_comm]

/-- Pairs of different names are those of their table. -/
lemma find?_ofList_eq_some_iff (hnodup : (pairs.map (·.1)).Nodup) {key : String} {value : α} :
    (ofList pairs).find? key = some value ↔ (key, value) ∈ pairs := by
  constructor
  · intro h
    rw [find?_ofList, Option.map_eq_some_iff] at h
    obtain ⟨p, hp, rfl⟩ := h
    obtain rfl : p.1 = key := by simpa using List.find?_some hp
    exact List.mem_reverse.1 (List.mem_of_find?_eq_some hp)
  · intro h
    exact find?_insertAll_of_mem .empty h hnodup

lemma ofList_eq_of_perm {others : List (String × α)} (h : pairs.Perm others)
    (hnodup : (pairs.map (·.1)).Nodup) : ofList pairs = ofList others := by
  refine ext_find? fun key => Option.ext fun value => ?_
  rw [find?_ofList_eq_some_iff hnodup,
    find?_ofList_eq_some_iff ((h.map (·.1)).nodup_iff.1 hnodup), h.mem_iff]

lemma size_ofList (hnodup : (pairs.map (·.1)).Nodup) : (ofList pairs).size = pairs.length := by
  have hkeys : (ofList pairs).keys.Perm (pairs.map (·.1)) := by
    refine (List.perm_ext_iff_of_nodup (nodup_keys _) hnodup).2 fun key => ?_
    rw [mem_keys_iff, ofList, contains_insertAll]
    exact or_iff_left (by simp [contains])
  have hlength := hkeys.length_eq
  rwa [keys, List.length_map, List.length_map] at hlength

end Pairs

/-! ### Many removals -/

lemma pairs_eraseAll (t : Table α) (keys : List String) :
    (t.eraseAll keys).pairs = t.pairs.filter (·.1 ∉ keys) := by
  induction keys generalizing t with
  | nil => exact (List.filter_eq_self.2 (by simp)).symm
  | cons key keys ih =>
    rw [show t.eraseAll (key :: keys) = (t.erase key).eraseAll keys from rfl, ih, erase,
      List.filter_filter]
    refine List.filter_congr fun p _ => ?_
    simp only [List.mem_cons, not_or, Bool.decide_and, ne_eq]
    exact Bool.and_comm _ _

/-- Removing keys that are there makes a table smaller by their number. -/
lemma size_eraseAll (t : Table α) {keys : List String} (hnodup : keys.Nodup)
    (hkeys : ∀ key ∈ keys, t.contains key = true) :
    (t.eraseAll keys).size + keys.length = t.size := by
  have hperm : keys.Perm ((t.pairs.filter (·.1 ∈ keys)).map (·.1)) := by
    refine (List.perm_ext_iff_of_nodup hnodup ?_).2 fun key => ?_
    · exact t.nodup_keys.sublist ((List.filter_sublist).map _)
    · constructor
      · intro hkey
        obtain ⟨value, h⟩ := contains_iff.1 (hkeys key hkey)
        exact List.mem_map.2
          ⟨(key, value), List.mem_filter.2 ⟨find?_eq_some_iff.1 h, by simpa using hkey⟩, rfl⟩
      · intro hkey
        obtain ⟨p, hp, rfl⟩ := List.mem_map.1 hkey
        simpa using (List.mem_filter.1 hp).2
  have hsplit := List.length_eq_length_filter_add (l := t.pairs) (·.1 ∈ keys)
  rw [size, size, pairs_eraseAll, hperm.length_eq, List.length_map]
  simp only [decide_not] at hsplit ⊢
  omega

end Table

end RenderLayout
