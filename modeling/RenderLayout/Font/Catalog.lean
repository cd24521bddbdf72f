/-!
The families that can be drawn, in the order of their names, and the weights that each of them has.
-/

namespace RenderLayout.Font

inductive Weight where
  | regular
  | bold
  | light
  deriving DecidableEq, Repr

structure Family where
  name : String
  weights : List Weight
  deriving DecidableEq, Repr

def Family.has (family : Family) (weight : Weight) : Bool := family.weights.contains weight

def catalog : List Family :=
  [⟨"FiraMono", [.regular, .bold]⟩,
    ⟨"Montserrat", [.regular, .bold, .light]⟩,
    ⟨"Play", [.regular, .bold]⟩,
    ⟨"RefrigeratorDeluxe", [.regular, .light]⟩,
    ⟨"RobotoCondensed", [.regular]⟩,
    ⟨"RobotoMono", [.regular, .bold]⟩]

def family? (name : String) : Option Family := catalog.find? (·.name = name)

def defaultFamily : String := "RobotoMono"

def defaultSize : Nat := 10

/-- The name of a family in a weight. -/
def Weight.variantName (family : String) : Weight → String
  | .regular => family
  | .bold => family ++ "-Bold"
  | .light => family ++ "-Light"

theorem name_of_family? {name : String} {family : Family} (h : family? name = some family) :
    family ∈ catalog ∧ family.name = name :=
  ⟨List.mem_of_find?_eq_some h, by simpa using List.find?_some h⟩

end RenderLayout.Font
