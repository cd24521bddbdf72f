import Mathlib.Order.Monotone.Basic
import RenderLayout.Proofs.Tables
import RenderLayout.Layout.Unify

/-!
Unification does not depend on the names, only on their order.

When the names of all styles and classes are renamed and keep their order, the same styles are
replaced, by the same ones, and the components are renamed with them.
-/

namespace RenderLayout

/-! ### Tables with renamed keys -/

namespace Table

variable {α β : Type} {f : String → String} (hf : StrictMono f)

/-- The table with its keys renamed in order. -/
def mapKeys (f : String → String) (hf : StrictMono f) (t : Table α) : Table α where
  pairs := t.pairs.map fun p => (f p.1, p.2)
  increasing := List.pairwise_map.2 (t.increasing.imp fun h => hf h)

lemma findPair_map (hf : StrictMono f) (key : String) (pairs : List (String × α)) :
    findPair (f key) (pairs.map fun p => (f p.1, p.2)) = findPair key pairs := by
  induction pairs with
  | nil => rfl
  | cons p pairs ih => simp only [List.map_cons, findPair, hf.injective.eq_iff, ih]

lemma insertPair_map (hf : StrictMono f) (key : String) (value : α)
    (pairs : List (String × α)) :
    insertPair (f key) value (pairs.map fun p => (f p.1, p.2)) =
      (insertPair key value pairs).map fun p => (f p.1, p.2) := by
  induction pairs with
  | nil => rfl
  | cons p pairs ih =>
    simp only [List.map_cons, insertPair, hf.lt_iff_lt, hf.injective.eq_iff, ih]
    split
    · rfl
    · split <;> rfl

@[simp] lemma find?_mapKeys (t : Table α) (key : String) :
    (t.mapKeys f hf).find? (f key) = t.find? key :=
  findPair_map hf key t.pairs

@[simp] lemma contains_mapKeys (t : Table α) (key : String) :
    (t.mapKeys f hf).contains (f key) = t.contains key := by
  rw [contains, contains, find?_mapKeys]

lemma exists_of_contains_mapKeys {t : Table α} {name : String}
    (h : (t.mapKeys f hf).contains name = true) : ∃ key, name = f key := by
  rw [← mem_keys_iff, keys, mapKeys, List.map_map] at h
  obtain ⟨p, -, hp⟩ := List.mem_map.1 h
  exact ⟨p.1, hp.symm⟩

lemma keys_mapKeys (t : Table α) : (t.mapKeys f hf).keys = t.keys.map f := by
  simp [keys, mapKeys, Function.comp_def]

lemma size_mapKeys (t : Table α) : (t.mapKeys f hf).size = t.size := by
  simp [size, mapKeys]

lemma mapKeys_empty : (empty : Table α).mapKeys f hf = empty := rfl

lemma mapKeys_insert (t : Table α) (key : String) (value : α) :
    (t.insert key value).mapKeys f hf = (t.mapKeys f hf).insert (f key) value :=
  Table.ext (insertPair_map hf key value t.pairs).symm

lemma mapKeys_insertAll (t : Table α) (pairs : List (String × α)) :
    (t.insertAll pairs).mapKeys f hf =
      (t.mapKeys f hf).insertAll (pairs.map fun p => (f p.1, p.2)) := by
  induction pairs generalizing t with
  | nil => rfl
  | cons p pairs ih =>
    show ((t.insert p.1 p.2).insertAll pairs).mapKeys f hf = _
    rw [ih, mapKeys_insert]
    rfl

lemma mapKeys_eraseAll (t : Table α) (keys : List String) :
    (t.eraseAll keys).mapKeys f hf = (t.mapKeys f hf).eraseAll (keys.map f) := by
  refine Table.ext ?_
  rw [pairs_eraseAll]
  simp only [mapKeys, pairs_eraseAll, List.filter_map, Function.comp_def,
    List.mem_map_of_injective hf.injective]

end Table

/-! ### Unification -/

variable {f : String → String} (hf : StrictMono f)

/-- Replacements of renamed styles: both names of each are renamed. -/
def renameReplacements (f : String → String) (hf : StrictMono f) (replaced : Table String) :
    Table String :=
  (replaced.map f).mapKeys f hf

lemma find?_renameReplacements (replaced : Table String) (name : String) :
    (renameReplacements f hf replaced).find? (f name) = (replaced.find? name).map f := by
  rw [renameReplacements, Table.find?_mapKeys, Table.find?_map]

lemma contains_renameReplacements (replaced : Table String) (name : String) :
    (renameReplacements f hf replaced).contains (f name) = replaced.contains name := by
  rw [Table.contains, find?_renameReplacements, Option.isSome_map, Table.contains]

lemma prefer_mapKeys (classes : Names) (first second : String) :
    prefer (classes.mapKeys f hf) (f first) (f second) =
      (f (prefer classes first second).1, f (prefer classes first second).2) := by
  unfold prefer
  simp only [Table.contains_mapKeys]
  split <;> rfl

lemma noteReplacement_mapKeys (classes : Names) (replaced : Table String)
    (p q : String × Style) :
    noteReplacement (classes.mapKeys f hf) (renameReplacements f hf replaced)
        ((f p.1, p.2), (f q.1, q.2)) =
      renameReplacements f hf (noteReplacement classes replaced (p, q)) := by
  unfold noteReplacement
  simp only [prefer_mapKeys, contains_renameReplacements]
  split
  · rfl
  · split
    · rw [renameReplacements, renameReplacements, Table.map_insert, Table.mapKeys_insert]
    · rfl

lemma orderedPairs_map {α β : Type} (g : α → β) (l : List α) :
    orderedPairs (l.map g) = (orderedPairs l).map fun p => (g p.1, g p.2) := by
  induction l with
  | nil => rfl
  | cons a l ih => simp [orderedPairs, ih]

/-- A layout whose style names are renamed. -/
def Layout.renameStyles (f : String → String) (hf : StrictMono f) (layout : Layout) : Layout where
  fonts := layout.fonts
  styles := layout.styles.mapKeys f hf
  pages := layout.pages.map fun page => page.map (·.renameStyle f)

namespace Layout

lemma replacements_renameStyles (classes : Names) (layout : Layout) :
    (layout.renameStyles f hf).replacements (classes.mapKeys f hf) =
      renameReplacements f hf (layout.replacements classes) := by
  have hrun (pairs : List ((String × Style) × (String × Style))) (replaced : Table String) :
      (pairs.map fun p => ((f p.1.1, p.1.2), (f p.2.1, p.2.2))).foldl
          (noteReplacement (classes.mapKeys f hf)) (renameReplacements f hf replaced) =
        renameReplacements f hf (pairs.foldl (noteReplacement classes) replaced) := by
    induction pairs generalizing replaced with
    | nil => rfl
    | cons p pairs ih =>
      rw [List.map_cons, List.foldl_cons, List.foldl_cons, noteReplacement_mapKeys, ih]
  unfold replacements
  show (orderedPairs (layout.styles.pairs.map _)).foldl _ _ = _
  rw [orderedPairs_map]
  exact hrun _ .empty

lemma follow_renameReplacements (replaced : Table String) (steps : Nat) (name : String) :
    follow (renameReplacements f hf replaced) steps (f name) = f (follow replaced steps name) := by
  induction steps generalizing name with
  | zero => rfl
  | succ steps ih =>
    rw [follow, follow, find?_renameReplacements]
    cases replaced.find? name with
    | none => rfl
    | some next => exact ih next

lemma survivor_renameReplacements (replaced : Table String) (name : String) :
    survivor (renameReplacements f hf replaced) (f name) = f (survivor replaced name) := by
  have hsize : (renameReplacements f hf replaced).size = replaced.size := by
    rw [renameReplacements, Table.size_mapKeys, Table.size, Table.map, List.length_map, Table.size]
  unfold survivor
  rw [hsize, follow_renameReplacements]

/-- **Unification commutes with renaming in order.** -/
theorem unify_renameStyles (classes : Names) (layout : Layout) :
    (layout.renameStyles f hf).unify (classes.mapKeys f hf) =
      (layout.unify classes).renameStyles f hf := by
  have hrename (component : Component) :
      (component.renameStyle f).renameStyle
          (survivor (renameReplacements f hf (layout.replacements classes))) =
        (component.renameStyle (survivor (layout.replacements classes))).renameStyle f := by
    unfold Component.renameStyle
    cases component.style with
    | none => rfl
    | some name => simp [survivor_renameReplacements]
  unfold unify
  rw [replacements_renameStyles]
  unfold renameStyles
  dsimp only
  congr 1
  · rw [Table.mapKeys_eraseAll, renameReplacements, Table.keys_mapKeys, Table.keys_map]
  · simp only [Table.map, List.map_map, Function.comp_def, hrename]

end Layout

end RenderLayout
