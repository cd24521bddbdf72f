import RenderLayout.Layout.Basic

/-!
One name for equal styles.

Of two equal styles one replaces the other: that of a class is kept before that of a component, and
otherwise the name that comes first. Pairs are taken in the order of names, and a name that is
replaced takes no further part. Components then refer to the styles that are left.
-/

namespace RenderLayout

/-- The two of a pair in the order of the list, for all pairs, those of the first member first. -/
def orderedPairs : List α → List (α × α)
  | [] => []
  | a :: rest => rest.map (fun b => (a, b)) ++ orderedPairs rest

/-- The pairs are those of two members, one before the other. -/
theorem mem_orderedPairs_iff {l : List α} {a b : α} :
    (a, b) ∈ orderedPairs l ↔ [a, b].Sublist l := by
  induction l with
  | nil => simp [orderedPairs]
  | cons c rest ih =>
    rw [orderedPairs, List.mem_append, ih, List.mem_map]
    constructor
    · rintro (⟨d, hd, h⟩ | h)
      · obtain ⟨rfl, rfl⟩ : c = a ∧ d = b := by simpa using h
        exact (List.singleton_sublist.2 hd).cons_cons c
      · exact h.cons c
    · intro h
      cases h with
      | cons _ h => exact Or.inr h
      | cons_cons _ h => exact Or.inl ⟨b, List.singleton_sublist.1 h, rfl⟩

/-- Which of two names is kept, and which is replaced by it. -/
def prefer (classes : Names) (first second : String) : String × String :=
  if !classes.contains first && classes.contains second then (second, first) else (first, second)

/-- Notes that one of two styles is replaced, if they are equal and neither is replaced already. -/
def noteReplacement (classes : Names) (replaced : Table String) :
    (String × Style) × (String × Style) → Table String
  | ((first, a), (second, b)) =>
    let (kept, dropped) := prefer classes first second
    if replaced.contains kept || replaced.contains dropped then replaced
    else if a == b then replaced.insert dropped kept
    else replaced

namespace Layout

/-- The names that are replaced, each with the name that it is replaced by. -/
def replacements (classes : Names) (layout : Layout) : Table String :=
  (orderedPairs layout.styles.pairs).foldl (noteReplacement classes) .empty

end Layout

/-- The name at the end of a chain of at most so many replacements. -/
def follow (replaced : Table String) : Nat → String → String
  | 0, name => name
  | steps + 1, name =>
    match replaced.find? name with
    | some next => follow replaced steps next
    | none => name

/-- The name that a style goes by after replacement. -/
def survivor (replaced : Table String) (name : String) : String :=
  follow replaced (replaced.size + 1) name

def Component.renameStyle (rename : String → String) (c : Component) : Component :=
  { c with style := c.style.map rename }

namespace Layout

/-- The layout with one name for equal styles. -/
def unify (classes : Names) (layout : Layout) : Layout :=
  let replaced := layout.replacements classes
  { layout with
    styles := layout.styles.eraseAll replaced.keys
    pages := layout.pages.map fun page => page.map (·.renameStyle (survivor replaced)) }

/-- How many styles `unify` takes away. -/
def unifiedCount (classes : Names) (layout : Layout) : Nat := (layout.replacements classes).size

end Layout

end RenderLayout
