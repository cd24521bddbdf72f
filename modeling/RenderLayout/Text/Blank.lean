/-!
Blank characters, trimming and words.

A blank is a character of the Unicode class `White_Space`. Trimming takes the blanks off at the ends
of a text, and its words are what stands between blanks.
-/

namespace RenderLayout.Text

/-- The code points of the Unicode class `White_Space`. -/
def isBlankCode (n : Nat) : Bool :=
  (9 ≤ n && n ≤ 13) || n == 0x20 || n == 0x85 || n == 0xa0 || n == 0x1680 ||
    (0x2000 ≤ n && n ≤ 0x200a) || n == 0x2028 || n == 0x2029 || n == 0x202f || n == 0x205f ||
    n == 0x3000

def isBlank (c : Char) : Bool := isBlankCode c.toNat

/-- Drops the blanks at the end. -/
def trimEnd (s : List Char) : List Char := (s.reverse.dropWhile isBlank).reverse

/-- Drops the blanks at both ends. -/
def trim (s : List Char) : List Char := trimEnd (s.dropWhile isBlank)

/-- Cuts at every item that `cut` holds of; there is always one piece more than cuts. -/
def split (cut : α → Bool) : List α → List (List α)
  | [] => [[]]
  | c :: rest =>
    match split cut rest with
    | [] => []
    | piece :: pieces => if cut c then [] :: piece :: pieces else (c :: piece) :: pieces

/-- The longest pieces without a blank, in order. -/
def words (s : List Char) : List (List Char) := (split isBlank s).filter (!·.isEmpty)

end RenderLayout.Text
