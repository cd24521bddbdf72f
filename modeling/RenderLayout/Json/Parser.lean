import RenderLayout.Json.Literal

/-!
JSON values from text.

`parseValue` reads a value; lists and objects nest at most 127 deep, and of two members with one
key the later counts. `skipValue` passes over a value that nobody asks for, at any depth, and looks
less closely at it.
-/

namespace RenderLayout.Json

open Reader

/-- Stands at the next item of a list, if there is one; the bracket at the end is passed. -/
def nextItem (first : Bool) : Reader Bool := do
  match ← peekToken with
  | none => stopAhead .endInList
  | some ']' =>
    eat
    return false
  | some c =>
    if c = ',' ∧ !first then
      eat
      match ← peekToken with
      | none => stopAhead .endInValue
      | some ']' => stopAhead .trailingComma
      | some _ => return true
    else if first then return true
    else stopAhead .expectedCommaOrListEnd

/-- Stands at the next key of an object, if there is one; the bracket at the end is passed. -/
def nextKey (first : Bool) : Reader Bool := do
  match ← peekToken with
  | none => stopAhead .endInObject
  | some '\x7d' =>
    eat
    return false
  | some c =>
    if c = ',' ∧ !first then
      eat
      match ← peekToken with
      | none => stopAhead .endInValue
      | some '\x7d' => stopAhead .trailingComma
      | some '"' => return true
      | some _ => stopAhead .keyNotString
    else if !first then stopAhead .expectedCommaOrObjectEnd
    else if c = '"' then return true
    else stopAhead .keyNotString

def readColon : Reader Unit := do
  match ← peekToken with
  | none => stopAhead .endInObject
  | some ':' => eat
  | some _ => stopAhead .expectedColon

/-- The key at the cursor and the colon behind it. -/
def readKey : Reader String := do
  eat
  let key ← readString
  readColon
  return key

/-- The items of a list whose opening bracket has been passed. The number bounds how many there
can be. -/
def readItems (item : Reader Json) : Nat → Bool → Reader (List Json)
  | 0, _ => stopHere .expectedValue
  | bound + 1, first => do
    if ← nextItem first then
      let value ← item
      return value :: (← readItems item bound false)
    else return []

/-- The members of an object whose opening bracket has been passed, in the order of their keys. -/
def readMembers (item : Reader Json) :
    Nat → Bool → List (String × Json) → Reader (List (String × Json))
  | 0, _, _ => stopHere .expectedValue
  | bound + 1, first, members => do
    if ← nextKey first then
      let key ← readKey
      let value ← item
      readMembers item bound false (insertPair key value members)
    else return members

/-- A value whose items and members are read by `item`; without it there may be none. -/
def readWith (item : Option (Reader Json)) : Reader Json := do
  match ← peekToken with
  | none => stopAhead .endInValue
  | some 'n' =>
    eat
    readWord "ull".toList
    return .null
  | some 't' =>
    eat
    readWord "rue".toList
    return .bool true
  | some 'f' =>
    eat
    readWord "alse".toList
    return .bool false
  | some '"' =>
    eat
    return .str (← readString)
  | some '-' =>
    eat
    readNumber true
  | some '[' =>
    match item with
    | none => stopAhead .tooDeep
    | some item =>
      eat
      return .arr (← readItems item ((← rest).length + 1) true)
  | some '\x7b' =>
    match item with
    | none => stopAhead .tooDeep
    | some item =>
      eat
      return .obj (← readMembers item ((← rest).length + 1) true [])
  | some c => if c.isDigit then readNumber false else stopAhead .expectedValue

/-- A value in which lists and objects nest at most so deep. -/
def readValue : Nat → Reader Json
  | 0 => readWith none
  | depth + 1 => readWith (some (readValue depth))

/-- Nothing but blanks up to the end. -/
def readEnd : Reader Unit := do
  match ← peekToken with
  | none => pure ()
  | some _ => stopAhead .trailingCharacters

/-- Runs a reader over a whole text. -/
def Reader.run (reader : Reader α) (text : String) : Except Fault α :=
  match (do let value ← reader; readEnd; return value : Reader α) (.ofText text) with
  | .ok (value, _) => .ok value
  | .error (.placed cause place) => .error ⟨cause, some place⟩
  | .error (.unplaced cause _) => .error ⟨cause, none⟩

/-- The value of a JSON text. -/
def parse (text : String) : Except Fault Json := (readValue 127).run text

/-! ### Values that nobody asks for -/

/-- The characters of a string up to its closing quotation mark are passed; of an escape only its
shape counts. -/
def skipString : Nat → Place → List Char → Except Stop Nat
  | _, place, [] => .error (.placed .endInString place)
  | covered + 1, place, c :: s => return (← skipString covered (place.next c) s) + 1
  | 0, place, c :: s =>
    if c = '"' then .ok 1
    else if c = '\\' then
      match s with
      | [] => .error (.placed .endInString (place.next c))
      | 'u' :: hex => do
        let _ ← readHex4 ((place.next c).next 'u') hex
        return (← skipString 5 (place.next c) s) + 1
      | e :: _ => do
        if (letterEscapes.lookup e).isNone then
          throw (.placed .invalidEscape ((place.next c).nextByte e))
        return (← skipString 1 (place.next c) s) + 1
    else if c.toNat < 0x20 then .error (.placed .controlCharacter place)
    else return (← skipString 0 (place.next c) s) + 1
termination_by structural _ _ s => s

def passString : Reader Unit := fun cursor => do
  let count ← skipString 0 cursor.place cursor.rest
  return ((), cursor.skip count)

def demandDigitIn : Reader Unit := do
  match ← peek with
  | some c => if c.isDigit then pure () else stopAhead .invalidNumber
  | none => stopHere .invalidNumber

def passExponent : Reader Unit := do
  eat
  match ← peek with
  | some '+' | some '-' => eat
  | _ => pure ()
  demandDigitIn
  let _ ← takeWhile Char.isDigit

/-- A number whose sign has been passed. -/
def passNumber : Reader Unit := do
  demandDigitIn
  if (← peek) = some '0' then
    eat
    match ← peek with
    | some c => if c.isDigit then stopAhead .invalidNumber
    | none => pure ()
  else
    let _ ← takeWhile Char.isDigit
  if (← peek) = some '.' then
    eat
    demandDigitIn
    let _ ← takeWhile Char.isDigit
  match ← peek with
  | some 'e' | some 'E' => passExponent
  | _ => pure ()

inductive Bracket where
  | list
  | object
  deriving DecidableEq

/-- What is passed next: a value, a key and its value, or what stands behind a value (`comma`) or
an opening bracket within the innermost of the open brackets. -/
inductive SkipTask where
  | value
  | member
  | behind (comma : Bool)

/-- Passes a value within the open brackets, and then what closes them. The number bounds the
steps. -/
def skipLoop : Nat → SkipTask → List Bracket → Reader Unit
  | 0, _, _ => stopHere .expectedValue
  | steps + 1, .value, opened => do
    match ← peekToken with
    | none => stopAhead .endInValue
    | some 'n' =>
      eat
      readWord "ull".toList
      skipLoop steps (.behind true) opened
    | some 't' =>
      eat
      readWord "rue".toList
      skipLoop steps (.behind true) opened
    | some 'f' =>
      eat
      readWord "alse".toList
      skipLoop steps (.behind true) opened
    | some '"' =>
      eat
      passString
      skipLoop steps (.behind true) opened
    | some '-' =>
      eat
      passNumber
      skipLoop steps (.behind true) opened
    | some '[' =>
      eat
      skipLoop steps (.behind false) (.list :: opened)
    | some '\x7b' =>
      eat
      skipLoop steps (.behind false) (.object :: opened)
    | some c =>
      if c.isDigit then
        passNumber
        skipLoop steps (.behind true) opened
      else stopAhead .expectedValue
  | steps + 1, .member, opened => do
    match ← peekToken with
    | none => stopAhead .endInObject
    | some '"' =>
      eat
      passString
      readColon
      skipLoop steps .value opened
    | some _ => stopAhead .keyNotString
  | _ + 1, .behind _, [] => pure ()
  | steps + 1, .behind comma, bracket :: opened => do
    let task := if bracket = .object then SkipTask.member else .value
    match ← peekToken with
    | none => stopAhead (if bracket = .object then .endInObject else .endInList)
    | some c =>
      if c = ',' ∧ comma then
        eat
        skipLoop steps task (bracket :: opened)
      else if (c = ']' ∧ bracket = .list) ∨ (c = '\x7d' ∧ bracket = .object) then
        eat
        skipLoop steps (.behind true) opened
      else if comma then
        stopAhead (if bracket = .object then .expectedCommaOrObjectEnd else .expectedCommaOrListEnd)
      else skipLoop steps task (bracket :: opened)

/-- Passes over a value. Every second step passes a character. -/
def skipValue : Reader Unit := do skipLoop (2 * (← rest).length + 2) .value []

end RenderLayout.Json
