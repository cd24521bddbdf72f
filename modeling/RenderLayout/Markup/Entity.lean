/-!
Character entities: `&`, a name and `;` stand for one character.

There are five names; beside them `#` and a decimal number, or `#x` and a hexadecimal one, stand
for the character with that code point. Everything else stands for itself. `unescape_escape` says
that an escaped text reads back.
-/

namespace RenderLayout.Markup

def byteLength (s : List Char) : Nat := s.foldr (fun c size => c.utf8Size + size) 0

inductive EntityFault where
  /-- No `;` before the next `&`: the bytes from the `&` to the end of the text. -/
  | unterminated (start stop : Nat)
  /-- The bytes of the name. -/
  | unknown (start stop : Nat) (name : String)
  | signedNumber
  | emptyNumber
  | invalidDigit
  | tooLarge
  | zero
  | notACodePoint (n : Nat)
  deriving DecidableEq, Repr

def EntityFault.message : EntityFault → String
  | .unterminated start stop =>
    s!"Error while escaping character at range {start}..{stop}: Cannot find ';' after '&'"
  | .unknown start stop name => s!"at {start}..{stop}: unrecognized entity `" ++ name ++ "`"
  | .signedNumber => "invalid character reference: unexpected number sign"
  | .emptyNumber => "invalid character reference: cannot parse integer from empty string"
  | .invalidDigit => "invalid character reference: invalid digit found in string"
  | .tooLarge => "invalid character reference: number too large to fit in target type"
  | .zero => "invalid character reference: 0x0 character is not permitted in XML"
  | .notACodePoint n => s!"invalid character reference: `{n}` is not a valid codepoint"

/-- The value of a digit to a base up to sixteen. -/
def digitValue? (base : Nat) (c : Char) : Option Nat :=
  let value :=
    if c.isDigit then c.toNat - '0'.toNat
    else if 'a' ≤ c ∧ c ≤ 'f' then c.toNat - 'a'.toNat + 10
    else if 'A' ≤ c ∧ c ≤ 'F' then c.toNat - 'A'.toNat + 10
    else base
  if value < base then some value else none

/-- The number of 32 bits that digits spell. The first fault from the left counts. -/
def readCode (base : Nat) : Nat → List Char → Except EntityFault Nat
  | n, [] => .ok n
  | n, c :: digits =>
    match digitValue? base c with
    | none => .error .invalidDigit
    | some digit =>
      if 1 <<< 32 ≤ base * n + digit then .error .tooLarge
      else readCode base (base * n + digit) digits

def readUnsigned (base : Nat) : List Char → Except EntityFault Nat
  | [] => .error .emptyNumber
  | '+' :: _ => .error .signedNumber
  | '-' :: _ => .error .signedNumber
  | digits => readCode base 0 digits

/-- The character of a number behind `#`. -/
def readReference (s : List Char) : Except EntityFault Char := do
  let n ←
    match s with
    | 'x' :: digits => readUnsigned 16 digits
    | digits => readUnsigned 10 digits
  if n = 0 then throw .zero
  else if h : n.isValidChar then return Char.ofNatAux n h
  else throw (.notACodePoint n)

/-- The names of characters. -/
def entityNames : List (String × Char) :=
  [("lt", '<'), ("gt", '>'), ("amp", '&'), ("apos", '\x27'), ("quot", '"')]

/-- The character of the name that starts at a byte of the text. -/
def resolveEntity (start : Nat) (name : List Char) : Except EntityFault Char :=
  match name with
  | '#' :: number => readReference number
  | _ =>
    match entityNames.lookup (String.ofList name) with
    | some c => .ok c
    | none => .error (.unknown start (start + byteLength name) (String.ofList name))

/-- The text from a byte on. Within an entity, the byte of its `&` and the name so far, backwards,
are kept. -/
def unescapeFrom (size : Nat) : Nat → Option (Nat × List Char) → List Char →
    Except EntityFault (List Char)
  | _, none, [] => .ok []
  | _, some (start, _), [] => .error (.unterminated start size)
  | place, none, c :: s =>
    if c = '&' then unescapeFrom size (place + 1) (some (place, [])) s
    else return c :: (← unescapeFrom size (place + c.utf8Size) none s)
  | place, some (start, name), c :: s =>
    if c = ';' then do
      let meant ← resolveEntity (start + 1) name.reverse
      return meant :: (← unescapeFrom size (place + 1) none s)
    else if c = '&' then .error (.unterminated start size)
    else unescapeFrom size (place + c.utf8Size) (some (start, c :: name)) s

def unescape (s : String) : Except EntityFault String :=
  String.ofList <$> unescapeFrom (byteLength s.toList) 0 none s.toList

/-- Writes the five named characters as entities. -/
def escapeChar (c : Char) : List Char :=
  if c = '<' then "&lt;".toList
  else if c = '>' then "&gt;".toList
  else if c = '&' then "&amp;".toList
  else if c = '\x27' then "&apos;".toList
  else if c = '"' then "&quot;".toList
  else [c]

def escape (s : String) : String := String.ofList (s.toList.flatMap escapeChar)

theorem unescapeFrom_escapeChar (size place : Nat) (c : Char) (s : List Char) :
    ∃ place', unescapeFrom size place none (escapeChar c ++ s) =
      return c :: (← unescapeFrom size place' none s) := by
  unfold escapeChar
  split
  · subst_vars; exact ⟨_, rfl⟩
  split
  · subst_vars; exact ⟨_, rfl⟩
  split
  · subst_vars; exact ⟨_, rfl⟩
  split
  · subst_vars; exact ⟨_, rfl⟩
  split
  · subst_vars; exact ⟨_, rfl⟩
  · rename_i hamp _ _
    exact ⟨place + c.utf8Size, by simp [unescapeFrom, hamp]⟩

theorem unescapeFrom_escape (size place : Nat) (s : List Char) :
    unescapeFrom size place none (s.flatMap escapeChar) = .ok s := by
  induction s generalizing place with
  | nil => rfl
  | cons c s ih =>
    obtain ⟨place', h⟩ := unescapeFrom_escapeChar size place c (s.flatMap escapeChar)
    rw [List.flatMap_cons, h, ih]
    rfl

theorem unescape_escape (s : String) : unescape (escape s) = .ok s := by
  simp [unescape, escape, unescapeFrom_escape, Functor.map, Except.map]

end RenderLayout.Markup
