import RenderLayout.Proofs.LayoutNumbers

/-!
What bindings do to the text of a component.

A component is written as it would be without bindings, but for the four properties that can be
bound: the expression of such a property stands in the place of its value, and also where there is
no value. Bindings of other properties leave no trace.
-/

namespace RenderLayout

namespace Component

variable {c : Component}

/-- The component with nothing bound. -/
def unbound (c : Component) : Component := { c with bindings := .empty }

/-- The keys of the values that a component may lack, each with whether the value is there. -/
def optionalValues (c : Component) : List (String × Bool) :=
  [("pos2", c.pos2.isSome), ("corner_radius", c.cornerRadius.isSome), ("radius", c.radius.isSome),
    ("style", c.style.isSome), ("font", c.font.isSome), ("text", c.text.isSome)]

/-- The members of what is written for a component. -/
def written (c : Component) : Table Json := .ofList (c.ownMembers ++ c.boundMembers)

/-- The expression that is written for a property, if it can be bound and is. -/
def expression? (c : Component) (property : String) : Option String :=
  if property ∈ boundProperties then c.bindings.find? property else none

lemma json_eq_written : c.json = .obj c.written.pairs := Json.object_eq _

lemma find?_json_eq (key : String) : c.json.find? key = c.written.find? key := by
  rw [json_eq_written]
  rfl

/-! ### The members of bindings -/

/-- Of some properties, those that are bound are written. -/
lemma find?_ofList_bound (bindings : Table String) (properties : List String) (key : String) :
    (Table.ofList (properties.flatMap fun property =>
        Json.optional property .str (bindings.find? property))).find? key =
      if key ∈ properties then (bindings.find? key).map .str else none := by
  induction properties with
  | nil => rfl
  | cons property properties ih =>
    rw [List.flatMap_cons, Table.find?_ofList_append, ih]
    have hfirst : (Table.ofList (Json.optional property .str (bindings.find? property))).find? key =
        if property = key then (bindings.find? key).map Json.str else none := by
      by_cases hkey : property = key
      · subst hkey
        cases bindings.find? property <;> simp [Json.optional, Table.find?_ofList]
      · cases bindings.find? property <;> simp [Json.optional, Table.find?_ofList, hkey]
    rw [hfirst]
    by_cases hkey : property = key
    · subst hkey
      by_cases hmem : property ∈ properties <;> simp [hmem]
    · simp [hkey, Ne.symm hkey]

lemma find?_ofList_boundMembers (key : String) :
    (Table.ofList c.boundMembers).find? key = (c.expression? key).map .str := by
  rw [boundMembers, find?_ofList_bound, expression?]
  split <;> rfl

/-- An expression goes over the value of its property. -/
lemma find?_written (key : String) :
    c.written.find? key =
      ((c.expression? key).map .str).or ((Table.ofList c.ownMembers).find? key) := by
  rw [written, Table.find?_ofList_append, find?_ofList_boundMembers]

lemma expression?_unbound (key : String) : c.unbound.expression? key = none := by
  unfold expression?
  split <;> rfl

lemma find?_written_unbound (key : String) :
    c.unbound.written.find? key = (Table.ofList c.ownMembers).find? key := by
  rw [find?_written, expression?_unbound]
  rfl

/-! ### Which keys are written -/

lemma isSome_find?_ofList {α : Type} {pairs : List (String × α)} {key : String} :
    ((Table.ofList pairs).find? key).isSome = true ↔ key ∈ pairs.map (·.1) := by
  rw [Table.find?_ofList, Option.isSome_map, List.find?_isSome]
  simp

/-- A component without bindings is written with its values. -/
lemma mem_keys_ownMembers_iff {key : String} :
    key ∈ c.ownMembers.map (·.1) ↔
      key ∈ ["type", "layer", "visible", "pos1"] ∨ (key, true) ∈ c.optionalValues := by
  have hkey {α : Type} (name : String) (f : α → Json) (o : Option α) :
      key ∈ (Json.optional name f o).map (·.1) ↔ key = name ∧ true = o.isSome := by
    cases o <;> simp [Json.optional]
  simp only [ownMembers, List.map_append, List.mem_append, hkey, optionalValues, List.mem_cons,
    List.not_mem_nil, or_false, Prod.mk.injEq, List.map_cons, List.map_nil, or_assoc]

/-- **Bindings override what is written.** What is written for a component is what would be written
without its bindings, with the expression of a property that can be bound in place of its value or
besides the others. So a key is written just if its value is there or it is bound, and components
that differ in the bindings of other properties have one text. -/
theorem json_bindings (c : Component) :
    (∃ members plain : Table Json, c.json = .obj members.pairs ∧
      c.unbound.json = .obj plain.pairs ∧
      ∀ key, members.find? key =
        match c.bindings.find? key with
        | some expression =>
          if key ∈ ["pos1", "pos2", "style", "text"] then some (.str expression)
          else plain.find? key
        | none => plain.find? key) ∧
    (∀ key, (c.json.find? key).isSome = true ↔
      key ∈ ["type", "layer", "visible", "pos1"] ∨ (key, true) ∈ c.optionalValues ∨
        key ∈ ["pos1", "pos2", "style", "text"] ∧ c.bindings.contains key = true) ∧
    ∀ bindings : Table String,
      (∀ key ∈ ["pos1", "pos2", "style", "text"], bindings.find? key = c.bindings.find? key) →
        { c with bindings }.json.render = c.json.render := by
  refine ⟨⟨c.written, c.unbound.written, json_eq_written, json_eq_written, fun key => ?_⟩,
    fun key => ?_, fun bindings hsame => ?_⟩
  · rw [find?_written_unbound, find?_written]
    unfold expression? boundProperties
    cases c.bindings.find? key with
    | none => split <;> rfl
    | some expression =>
      dsimp only
      split <;> rfl
  · rw [find?_json_eq, find?_written, Option.isSome_or, Bool.or_eq_true, isSome_find?_ofList,
      mem_keys_ownMembers_iff, Option.isSome_map, or_comm, or_assoc]
    unfold expression? boundProperties Table.contains
    split
    case isTrue hbound => simp [hbound]
    case isFalse hnot => simp [hnot]
  · have hexpression (key : String) : ({ c with bindings } : Component).expression? key =
        c.expression? key := by
      unfold expression?
      split
      case isTrue hbound => exact hsame key hbound
      case isFalse => rfl
    have hwritten : ({ c with bindings } : Component).written = c.written := by
      refine Table.ext_find? fun key => ?_
      rw [find?_written, find?_written, hexpression]
      rfl
    rw [json_eq_written, json_eq_written, hwritten]

end Component

end RenderLayout
