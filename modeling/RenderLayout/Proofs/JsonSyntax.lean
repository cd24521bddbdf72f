import RenderLayout.Json.Parser
import RenderLayout.Proofs.DecimalText

/-!
The grammar of JSON texts.

A syntax tree says what a text spells, with the digits of its numbers as they are written and the
members of its objects in the order of the text. It leaves open which blanks stand between the parts
and how the characters of strings are escaped. A tree has a part for each item of a list and for each
member of an object, so that one induction goes through all of them.
-/

namespace RenderLayout.Json

open Number

/-! ### Numbers -/

/-- An exponent as it is written: a letter, at most one sign, and digits. -/
@[ext] structure Exponent where
  letter : Char
  sign : Option Char
  digits : List Char
  letter_eq : letter = 'e' ∨ letter = 'E'
  sign_eq : ∀ c ∈ sign, c = '+' ∨ c = '-'
  some_digit : digits ≠ []
  are_digits : AreDigits digits

/-- A number as it is written: nothing but a zero alone starts with a zero. -/
@[ext] structure Literal where
  negative : Bool
  whole : List Char
  decimals : Option (List Char)
  exponent : Option Exponent
  some_digit : whole ≠ []
  are_digits : AreDigits whole
  no_zero : whole.head? = some '0' → whole = ['0']
  some_decimal : ∀ run ∈ decimals, run ≠ []
  are_decimals : ∀ run ∈ decimals, AreDigits run

def Exponent.text (e : Exponent) : List Char := e.letter :: (e.sign.toList ++ e.digits)

namespace Literal

/-- What is behind the whole part. -/
def fraction (lit : Literal) : List Char := lit.decimals.elim [] ('.' :: ·)

def power (lit : Literal) : List Char := lit.exponent.elim [] Exponent.text

/-- The number without its sign. -/
def body (lit : Literal) : List Char := lit.whole ++ (lit.fraction ++ lit.power)

def text (lit : Literal) : List Char := signed lit.negative lit.body

end Literal

/-- No number goes on here. -/
def EndsNumber (rest : List Char) : Prop :=
  ∀ c ∈ rest.head?, c.isDigit = false ∧ c ≠ '.' ∧ c ≠ 'e' ∧ c ≠ 'E'

/-! ### Strings -/

/-- Four hexadecimal digits of a number, with letters in either case. -/
def IsHex4 (n : Nat) (digits : List Char) : Prop :=
  n < 65536 ∧ digits.map Char.toLower =
    [n / 4096, n / 256 % 16, n / 16 % 16, n % 16].map Nat.digitChar

/-- From the first text to the second one a character is spelled: by itself, by a letter or by its
code in hexadecimal digits, in two halves if it has a code of more than four. -/
inductive CharSpelled : Char → List Char → List Char → Prop
  | itself {c : Char} {t : List Char} (hquote : c ≠ '"') (hslash : c ≠ '\\')
      (hprinted : 0x20 ≤ c.toNat) : CharSpelled c (c :: t) t
  | letter {c e : Char} {t : List Char} (h : (e, c) ∈ letterEscapes) :
      CharSpelled c ('\\' :: e :: t) t
  | code {c : Char} {digits t : List Char} (h : IsHex4 c.toNat digits) :
      CharSpelled c ('\\' :: 'u' :: (digits ++ t)) t
  | pair {c : Char} {high low : Nat} {digits digits' t : List Char}
      (hhigh : isHighSurrogate high = true) (hlow : isLowSurrogate low = true)
      (hc : c.toNat = 0x10000 + (high - 0xd800) * 0x400 + (low - 0xdc00))
      (h : IsHex4 high digits) (h' : IsHex4 low digits') :
      CharSpelled c ('\\' :: 'u' :: (digits ++ '\\' :: 'u' :: (digits' ++ t))) t

/-- From the first text to the second one the characters are spelled, and a quotation mark. -/
inductive StringSpelled : List Char → List Char → List Char → Prop
  | nil {t : List Char} : StringSpelled [] ('"' :: t) t
  | cons {c : Char} {cs s m t : List Char} (hc : CharSpelled c s m) (hcs : StringSpelled cs m t) :
      StringSpelled (c :: cs) s t

/-! ### Values -/

/-- What a syntax tree stands for: a value, or the items or members behind a place. -/
inductive Kind where
  | value
  | items
  | members

inductive Tree : Kind → Type where
  | null : Tree .value
  | bool (value : Bool) : Tree .value
  | number (literal : Literal) : Tree .value
  | str (s : String) : Tree .value
  | arr (items : Tree .items) : Tree .value
  | obj (members : Tree .members) : Tree .value
  | noItems : Tree .items
  | item (value : Tree .value) (items : Tree .items) : Tree .items
  | noMembers : Tree .members
  | member (key : String) (value : Tree .value) (members : Tree .members) : Tree .members

/-- Nothing but blanks stands between the first text and the second one. -/
def Blanks (s t : List Char) : Prop :=
  ∃ blanks, (∀ c ∈ blanks, Reader.isBlank c = true) ∧ s = blanks ++ t

/-- Blanks stand between the first text and the second one, and a comma unless the second one is the
first of its list. -/
def Separated (first : Bool) (s t : List Char) : Prop :=
  if first = true then Blanks s t else ∃ m, Blanks s (',' :: m) ∧ Blanks m t

/-- From the first text to the second one the tree is spelled. Items and members are spelled with the
bracket behind them; they may be the first of their list. -/
inductive Spelled : {k : Kind} → Bool → Tree k → List Char → List Char → Prop
  | null {first : Bool} {t : List Char} : Spelled first .null ("null".toList ++ t) t
  | bool {first : Bool} {t : List Char} (value : Bool) :
      Spelled first (.bool value) ((if value then "true" else "false").toList ++ t) t
  | number {first : Bool} {t : List Char} (lit : Literal) :
      Spelled first (.number lit) (lit.text ++ t) t
  | str {first : Bool} {s : String} {u t : List Char} (h : StringSpelled s.toList u t) :
      Spelled first (.str s) ('"' :: u) t
  | arr {first : Bool} {items : Tree .items} {s t : List Char} (h : Spelled true items s t) :
      Spelled first (.arr items) ('[' :: s) t
  | obj {first : Bool} {members : Tree .members} {s t : List Char} (h : Spelled true members s t) :
      Spelled first (.obj members) ('\x7b' :: s) t
  | noItems {first : Bool} {s t : List Char} (h : Blanks s (']' :: t)) :
      Spelled first .noItems s t
  | item {first : Bool} {value : Tree .value} {items : Tree .items} {s u m t : List Char}
      (hseparated : Separated first s u) (hvalue : Spelled true value u m)
      (hitems : Spelled false items m t) : Spelled first (.item value items) s t
  | noMembers {first : Bool} {s t : List Char} (h : Blanks s ('\x7d' :: t)) :
      Spelled first .noMembers s t
  | member {first : Bool} {key : String} {value : Tree .value} {members : Tree .members}
      {s u w x y m t : List Char} (hseparated : Separated first s ('"' :: u))
      (hkey : StringSpelled key.toList u w) (hcolon : Blanks w (':' :: x)) (hblanks : Blanks x y)
      (hvalue : Spelled true value y m) (hmembers : Spelled false members m t) :
      Spelled first (.member key value members) s t

/-- The text spells the tree, with blanks around it. -/
def Spells (tree : Tree .value) (text : String) : Prop :=
  ∃ s t, Blanks text.toList s ∧ Spelled true tree s t ∧ Blanks t []

/-! ### Keys -/

namespace Tree

variable {k : Kind}

/-- The keys of members, in the order of the text. -/
def keys : {k : Kind} → Tree k → List String
  | _, .member key _ members => key :: members.keys
  | _, _ => []

/-- The keys of every object in the tree are such. -/
def AllKeys (P : List String → Prop) : {k : Kind} → Tree k → Prop
  | _, .null | _, .bool _ | _, .number _ | _, .str _ | _, .noItems | _, .noMembers => True
  | _, .arr items => items.AllKeys P
  | _, .obj members => P members.keys ∧ members.AllKeys P
  | _, .item value items => value.AllKeys P ∧ items.AllKeys P
  | _, .member _ value members => value.AllKeys P ∧ members.AllKeys P

/-- No object repeats a key. -/
def KeysDistinct (tree : Tree k) : Prop := tree.AllKeys List.Nodup

/-- The keys of every object are in strictly increasing order. -/
def KeysIncreasing (tree : Tree k) : Prop := tree.AllKeys (List.Pairwise (· < ·))

/-- The trees differ in the order of the members of their objects alone: neighbours are exchanged,
anywhere in the tree and any number of times. -/
inductive Reordered : {k : Kind} → Tree k → Tree k → Prop
  | refl {k : Kind} (tree : Tree k) : Reordered tree tree
  | trans {k : Kind} {a b c : Tree k} (hab : Reordered a b) (hbc : Reordered b c) : Reordered a c
  | swap (key key' : String) (value value' : Tree .value) (members : Tree .members) :
      Reordered (.member key value (.member key' value' members))
        (.member key' value' (.member key value members))
  | arr {a b : Tree .items} (h : Reordered a b) : Reordered (.arr a) (.arr b)
  | obj {a b : Tree .members} (h : Reordered a b) : Reordered (.obj a) (.obj b)
  | item {a b : Tree .value} {as bs : Tree .items} (h : Reordered a b) (hs : Reordered as bs) :
      Reordered (.item a as) (.item b bs)
  | member {key : String} {a b : Tree .value} {as bs : Tree .members} (h : Reordered a b)
      (hs : Reordered as bs) : Reordered (.member key a as) (.member key b bs)

end Tree

end RenderLayout.Json
