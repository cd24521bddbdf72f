import RenderLayout.Font.Request
import RenderLayout.Json.Decoder
import RenderLayout.Number.Binary

/-!
Fonts for requests, and the book of the fonts that have been chosen and of those that are used.

`choose` depends on the request alone. A request without a size gets the default font. One that the
catalog cannot meet gets it too, and is told so. The book keeps every chosen font under its key; a
font is used only after it has been chosen.
-/

namespace RenderLayout

structure Font where
  name : String
  size : Int
  deriving DecidableEq, Repr, Inhabited

namespace Font

def key (font : Font) : String := s!"{font.name}-{font.size}"

def json (font : Font) : Json := .object [("font", .str font.name), ("size", .int font.size)]

def decoder : Json.Decoder Font :=
  .record "struct Font"
    [Json.Decoder.field "font" true .text fun font name => { font with name },
      Json.Decoder.field "size" true .int64 fun font size => { font with size }]
    default

/-- The font that is taken when nothing else is asked for. -/
def fallback : Font := ⟨defaultFamily, defaultSize⟩

/-- The weight to draw in, if the family has it: bold, if bold is asked for and there; else light,
if light is; and regular only if neither is asked for. -/
def Family.weight? (family : Family) (bold light : Bool) : Option Weight :=
  if !bold && !light && family.has .regular then some .regular
  else if bold && family.has .bold then some .bold
  else if light && family.has .light then some .light
  else none

structure Choice where
  font : Font
  /-- The font stands in for one that the catalog does not have. -/
  substituted : Bool
  deriving DecidableEq, Repr

def Choice.key (choice : Choice) : String := choice.font.key

/-- A family at a size, or the fallback in its place. -/
def chooseFamily (name : String) (bold light : Bool) (size : Float) : Choice :=
  match family? name >>= (·.weight? bold light) with
  | some weight => ⟨⟨weight.variantName name, Number.roundToInt64 size⟩, false⟩
  | none => ⟨fallback, true⟩

/-- The font for a request. -/
def Request.choose (request : Request) : Choice :=
  match request.size, request.family with
  | none, _ => ⟨fallback, false⟩
  | some _, none => ⟨fallback, true⟩
  | some size, some family => chooseFamily family request.bold request.light size

/-- The font for declarations. -/
def choose (declarations : String) : Choice := (Request.ofDeclarations declarations).choose

end Font

/-- The fonts that have been chosen, and those of them that are used. -/
structure FontBook where
  chosen : Table Font := .empty
  used : Table Font := .empty
  deriving Inhabited

namespace FontBook

def enter (book : FontBook) (font : Font) : FontBook :=
  { book with chosen := book.chosen.insert font.key font }

/-- The font for declarations as it stands in the book. It is entered only if its key is missing. -/
def resolve (book : FontBook) (declarations : String) : Font.Choice × FontBook :=
  let choice := Font.choose declarations
  match book.chosen.find? choice.key with
  | some font => (⟨font, choice.substituted⟩, book)
  | none => (choice, book.enter choice.font)

/-- Marks a chosen font as used; other keys mean nothing. -/
def use (book : FontBook) (key : String) : FontBook :=
  match book.chosen.find? key with
  | some font => { book with used := book.used.insert key font }
  | none => book

theorem find?_chosen_enter (book : FontBook) (font : Font) (key : String) :
    (book.enter font).chosen.find? key =
      if font.key = key then some font else book.chosen.find? key :=
  Table.find?_insert book.chosen font.key key font

@[simp] theorem used_resolve (book : FontBook) (declarations : String) :
    (book.resolve declarations).2.used = book.used := by
  unfold resolve
  dsimp only
  split <;> rfl

/-- What stands under the key of a font is left there. -/
theorem find?_chosen_resolve (book : FontBook) (declarations key : String) :
    (book.resolve declarations).2.chosen.find? key =
      if (Font.choose declarations).key = key then
        some ((book.chosen.find? key).getD (Font.choose declarations).font)
      else book.chosen.find? key := by
  unfold resolve
  dsimp only
  by_cases hkey : (Font.choose declarations).key = key
  · subst hkey
    rw [if_pos rfl]
    split
    case h_1 font hfont => rw [hfont, Option.getD_some]
    case h_2 hnone =>
      rw [hnone, Option.getD_none, find?_chosen_enter]
      exact if_pos rfl
  · rw [if_neg hkey]
    split
    case h_1 => rfl
    case h_2 =>
      rw [find?_chosen_enter]
      exact if_neg hkey

@[simp] theorem chosen_use (book : FontBook) (key : String) :
    (book.use key).chosen = book.chosen := by
  unfold use
  split <;> rfl

/-- Using a font enters it as it has been chosen. -/
theorem find?_used_use (book : FontBook) (key name : String) :
    (book.use key).used.find? name =
      if key = name ∧ book.chosen.contains key then book.chosen.find? key
      else book.used.find? name := by
  unfold use
  cases h : book.chosen.find? key with
  | none => simp [Table.contains, h]
  | some font => simp [Table.contains, Table.find?_insert, h]

end FontBook

end RenderLayout
