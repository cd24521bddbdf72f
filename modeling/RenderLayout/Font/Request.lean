import RenderLayout.Font.Catalog
import RenderLayout.Number.Reader
import RenderLayout.Text.Blank
import RenderLayout.Text.Digit
import RenderLayout.Text.Search

/-!
The font that declarations ask for, such as `font-family:Play;font-size:12px;font-weight:bold`.

A key counts at the first place where a value fits behind it. A size ends in `px`. A family and a
weight go up to a semicolon or to the end of the text, on one line. Boldness and lightness can be
asked for by a weight or by the end of a specification in quotation marks.
-/

namespace RenderLayout.Font

open Text

structure Request where
  family : Option String
  size : Option Float
  bold : Bool
  light : Bool
  deriving BEq

/-- At least one character, none of them a line break, up to the first place where `stop` holds of
the text behind them. -/
def runUntil (stop : List Char → Bool) : List Char → Option (List Char)
  | [] => none
  | c :: rest =>
    if c = '\n' then none
    else if stop rest then some [c]
    else (runUntil stop rest).map (c :: ·)

/-- The end of a text, or a semicolon. -/
def endsValue : List Char → Bool
  | [] => true
  | c :: _ => c = ';'

/-- A closing quotation mark. -/
def endsQuote : List Char → Bool
  | [] => false
  | c :: _ => c = '\x27'

/-- The trimmed value behind a key. -/
def value? (key : String) (stop : List Char → Bool) (s : List Char) : Option (List Char) :=
  (firstMatch (fun s => after? key.toList s >>= runUntil stop) s).map trim

def isQuote (c : Char) : Bool := c = '\x27' || c = '"'

/-- Drops the quotation marks at both ends. -/
def unquote (s : List Char) : List Char :=
  ((s.dropWhile isQuote).reverse.dropWhile isQuote).reverse

/-- The numeral behind `font-size:` that has `px` behind it. -/
def pixels? (s : List Char) : Option (List Char) :=
  firstMatch
    (fun s => do
      let rest ← after? "font-size:".toList s
      let numeral := takeNumeral rest
      let _ ← after? ['p', 'x'] (rest.drop numeral.length)
      return numeral)
    s

/-- A size that is no number asks for the default size. -/
def sizeOf (numeral : List Char) : Float :=
  (Number.readFloat? numeral).getD (Number.ofRatio false defaultSize 1)

/-- The specification, or the weight, says `word`. -/
def asksFor (specification weight : Option (List Char)) (ending word : String) : Bool :=
  specification.any (ending.toList.isSuffixOf ·) || weight.any (· = word.toList)

def Request.ofDeclarations (s : String) : Request :=
  let s := s.toList
  let weight := value? "font-weight:" endsValue s
  let specification := value? "-inkscape-font-specification:'" endsQuote s
  { family := (value? "font-family:" endsValue s).map (String.ofList ∘ unquote)
    size := (pixels? s).map sizeOf
    bold := asksFor specification weight "Bold" "bold"
    light := asksFor specification weight "Light" "light" }

end RenderLayout.Font
