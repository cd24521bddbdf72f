/-!
Texts of the system, such as paths and the words of a command line.

They are bytes, which mostly encode characters, but need not do so. Where they do not, a text is
shown with a mark in place of every longest beginning of a character, and of every other byte that
belongs to no character.
-/

namespace RenderLayout

/-- Bytes, which need not encode characters. -/
structure OsText where
  bytes : List UInt8
  deriving DecidableEq, Repr, Inhabited

namespace OsText

def ofString (s : String) : OsText := ⟨s.toUTF8.data.toList⟩

instance : Coe String OsText := ⟨ofString⟩

instance : Coe (List String) (List OsText) := ⟨List.map ofString⟩

def isEmpty (text : OsText) : Bool := text.bytes.isEmpty

/-- The characters that the bytes encode, if they do. -/
def text? (text : OsText) : Option String := String.fromUTF8? ⟨text.bytes.toArray⟩

/-! ### Showing texts -/

/-- The bounds of the bytes that go on behind the first byte of a character. -/
def expected? (first : UInt8) : Option (List (UInt8 × UInt8)) :=
  let other : UInt8 × UInt8 := (0x80, 0xbf)
  if first < 0x80 then some []
  else if 0xc2 ≤ first ∧ first ≤ 0xdf then some [other]
  else if first = 0xe0 then some [(0xa0, 0xbf), other]
  else if first = 0xed then some [(0x80, 0x9f), other]
  else if 0xe1 ≤ first ∧ first ≤ 0xef then some [other, other]
  else if first = 0xf0 then some [(0x90, 0xbf), other, other]
  else if first = 0xf4 then some [(0x80, 0x8f), other, other]
  else if 0xf1 ≤ first ∧ first ≤ 0xf3 then some [other, other, other]
  else none

/-- Stands for bytes that encode no character. -/
def mark : Char := '\ufffd'

def charOf (bytes : List UInt8) : Char :=
  ((String.fromUTF8? ⟨bytes.toArray⟩).bind (·.toList.head?)).getD mark

/-- A character of which some bytes have been seen and others are expected, if it has been begun. -/
structure Begun where
  bytes : List UInt8 := []
  expected : List (UInt8 × UInt8) := []

/-- What is shown on the first byte of a character. -/
def begin (b : UInt8) : List Char × Begun :=
  match expected? b with
  | none => ([mark], {})
  | some [] => ([charOf [b]], {})
  | some expected => ([], ⟨[b], expected⟩)

/-- What is shown on one more byte. -/
def Begun.next (begun : Begun) (b : UInt8) : List Char × Begun :=
  match begun.expected with
  | [] => begin b
  | (low, high) :: expected =>
    if low ≤ b ∧ b ≤ high then
      let bytes := begun.bytes ++ [b]
      if expected.isEmpty then ([charOf bytes], {}) else ([], ⟨bytes, expected⟩)
    else
      let (chars, begun) := begin b
      (mark :: chars, begun)

def shownChars (begun : Begun) : List UInt8 → List Char
  | [] => if begun.bytes.isEmpty then [] else [mark]
  | b :: bytes =>
    let (chars, begun) := begun.next b
    chars ++ shownChars begun bytes

/-- The text as it is shown: as it is, if it has characters. -/
def shown (text : OsText) : String :=
  text.text?.getD (String.ofList (shownChars {} text.bytes))

end OsText

end RenderLayout
