import RenderLayout.Json.Parser

/-!
Reading values of a known type.

A decoder takes its value from a text as the text is read, so that the first thing that is wrong
in the text is told, or from a JSON value that is there already. A record stands as an object, in
which unknown keys are passed over, or as the list of its fields in order.
-/

namespace RenderLayout.Json

open Reader

structure Decoder (α : Type) where
  ofText : Reader α
  ofJson : Json → Except Cause α

/-- The value at the cursor where another type is wanted. -/
def wrongTypeAhead (expected : String) : Reader α := do
  let found : Json ←
    match ← peek with
    | some 'n' =>
      eat
      readWord "ull".toList
      pure .null
    | some 't' =>
      eat
      readWord "rue".toList
      pure (.bool true)
    | some 'f' =>
      eat
      readWord "alse".toList
      pure (.bool false)
    | some '-' =>
      eat
      readNumber true
    | some '"' =>
      eat
      pure (.str (← readString))
    | some '[' => pure (.arr [])
    | some '\x7b' => pure (.obj [])
    | some c => if c.isDigit then readNumber false else stopAhead .expectedValue
    | none => stopAhead .expectedValue
  stopHere (.wrongType found expected)

/-- What is wrong with a value is placed behind it. -/
def placedHere (result : Except Cause α) : Reader α :=
  match result with
  | .ok value => pure value
  | .error cause => stopHere cause

def wrongType (expected : String) (found : Json) : Except Cause α :=
  .error (.wrongType found expected)

namespace Decoder

def textOfJson : Json → Except Cause String
  | .str s => .ok s
  | found => Json.wrongType "a string" found

def text : Decoder String where
  ofText := do
    match ← peekToken with
    | none => stopAhead .endInValue
    | some '"' =>
      eat
      readString
    | some _ => wrongTypeAhead "a string"
  ofJson := textOfJson

/-- A text that has to pass a reader of its own. What that reader says has no place. -/
def parsed (read : String → Except String α) : Decoder α where
  ofText := do
    match read (← text.ofText) with
    | .ok value => return value
    | .error reason => stopUnplaced (.rejected reason)
  ofJson v := do
    match read (← textOfJson v) with
    | .ok value => return value
    | .error reason => throw (.rejected reason)

def floatOfJson : Json → Except Cause Float
  | .int n => .ok (Number.ofRatio (n < 0) n.natAbs 1)
  | .float x => .ok x
  | found => Json.wrongType "f64" found

/-- A number at the cursor. -/
def readNumberFor (expected : String) : Reader Json := do
  match ← peekToken with
  | none => stopAhead .endInValue
  | some '-' =>
    eat
    readNumber true
  | some c => if c.isDigit then readNumber false else wrongTypeAhead expected

def float : Decoder Float where
  ofText := do placedHere (floatOfJson (← readNumberFor "f64"))
  ofJson := floatOfJson

def int64OfJson : Json → Except Cause Int
  | .int n => if n < (1 <<< 63 : Nat) then .ok n else .error (.wrongValue (.int n) "i64")
  | found => Json.wrongType "i64" found

/-- A whole number of 64 bits with a sign. -/
def int64 : Decoder Int where
  ofText := do placedHere (int64OfJson (← readNumberFor "i64"))
  ofJson := int64OfJson

/-- Null stands for nothing. -/
def optional (decoder : Decoder α) : Decoder (Option α) where
  ofText := do
    if (← peekToken) = some 'n' then
      eat
      readWord "ull".toList
      return none
    else return some (← decoder.ofText)
  ofJson
    | .null => .ok none
    | v => some <$> decoder.ofJson v

/-- One of some names, as a text or as an object with the name for its only key and null for its
value. -/
def name (read : String → Option α) (known : List String) : Decoder α where
  ofText := do
    let readName : Reader α := do
      let found ← readString
      match read found with
      | some value => return value
      | none => stopHere (.unknownName found known)
    match ← peekToken with
    | none => stopAhead .endInValue
    | some '"' =>
      eat
      readName
    | some '\x7b' =>
      eat
      let value ←
        match ← peekToken with
        | none => stopAhead .endInObject
        | some '"' =>
          eat
          readName
        | some _ => stopAhead .keyNotString
      readColon
      match ← peekToken with
      | none => stopAhead .endInValue
      | some 'n' =>
        eat
        readWord "ull".toList
      | some _ => wrongTypeAhead "unit"
      match ← peekToken with
      | some '\x7d' =>
        eat
        return value
      | some _ => stopHere .expectedValue
      | none => stopHere .endInObject
    | some _ => stopAhead .expectedValue
  ofJson v := do
    let found ← textOfJson v
    match read found with
    | some value => return value
    | none => throw (.unknownName found known)

/-! ### Records -/

/-- A field of a record that is built up in a state. -/
structure Field (σ : Type) where
  key : String
  required : Bool
  ofText : σ → Reader σ
  ofJson : σ → Json → Except Cause σ

def field (key : String) (required : Bool) (decoder : Decoder α) (set : σ → α → σ) : Field σ where
  key := key
  required := required
  ofText state := return set state (← decoder.ofText)
  ofJson state v := return set state (← decoder.ofJson v)

def missing? (fields : List (Field σ)) (seen : List String) : Option Cause :=
  (fields.find? fun f => f.required && !seen.contains f.key).map fun f => .missingField f.key

/-- The members of an object, up to its closing bracket. -/
def readFields (fields : List (Field σ)) :
    Nat → Bool → List String → σ → Reader σ
  | 0, _, _, _ => stopHere .expectedValue
  | bound + 1, first, seen, state => do
    match ← peekToken with
    | some '\x7d' =>
      match missing? fields seen with
      | some cause => stopUnplaced cause
      | none => return state
    | _ =>
      let _ ← nextKey first
      eat
      let key ← readString
      match fields.find? (·.key == key) with
      | none =>
        readColon
        skipValue
        readFields fields bound false seen state
      | some f =>
        if seen.contains key then stopUnplaced (.duplicateField key)
        else
          readColon
          let state ← f.ofText state
          readFields fields bound false (key :: seen) state

/-- The fields in order, up to the closing bracket of a list or the last field. -/
def readElements (expected : String) (σ : Type) :
    List (Field σ) → Nat → Bool → σ → Reader σ
  | [], _, _, state => return state
  | f :: fields, index, first, state => do
    match ← peekToken with
    | some ']' =>
      if f.required then stopUnplaced (.wrongLength index expected)
      else readElements expected σ fields (index + 1) first state
    | _ =>
      let _ ← nextItem first
      let state ← f.ofText state
      readElements expected σ fields (index + 1) false state

def closeObject : Closing := fun cursor =>
  let cursor := cursor.skip (cursor.rest.takeWhile isBlank).length
  match cursor.rest with
  | [] => (cursor, some (.placed .endInObject cursor.placeAhead))
  | '\x7d' :: _ => (cursor.skip 1, none)
  | ',' :: _ => (cursor, some (.placed .trailingComma cursor.placeAhead))
  | _ => (cursor, some (.placed .trailingCharacters cursor.placeAhead))

def closeList : Closing := fun cursor =>
  let cursor := cursor.skip (cursor.rest.takeWhile isBlank).length
  match cursor.rest with
  | [] => (cursor, some (.placed .endInList cursor.placeAhead))
  | ']' :: _ => (cursor.skip 1, none)
  | ',' :: rest =>
    let cursor := cursor.skip (1 + (rest.takeWhile isBlank).length)
    match cursor.rest with
    | ']' :: _ => (cursor, some (.placed .trailingComma cursor.placeAhead))
    | _ => (cursor, some (.placed .trailingCharacters cursor.placeAhead))
  | _ => (cursor, some (.placed .trailingCharacters cursor.placeAhead))

def membersOfJson (fields : List (Field σ)) :
    List (String × Json) → List String → σ → Except Cause σ
  | [], seen, state =>
    match missing? fields seen with
    | some cause => .error cause
    | none => .ok state
  | (key, v) :: members, seen, state =>
    match fields.find? (·.key == key) with
    | none => membersOfJson fields members seen state
    | some f => do membersOfJson fields members (key :: seen) (← f.ofJson state v)

def elementsOfJson (expected : String) :
    List (Field σ) → Nat → List Json → σ → Except Cause σ
  | [], index, items, state =>
    if items.isEmpty then .ok state
    else .error (.wrongLength (index + items.length) "fewer elements in array")
  | f :: fields, index, [], state =>
    if f.required then .error (.wrongLength index expected)
    else elementsOfJson expected fields (index + 1) [] state
  | f :: fields, index, v :: items, state => do
    elementsOfJson expected fields (index + 1) items (← f.ofJson state v)

/-- A record with the name that messages give it. -/
def record (name : String) (fields : List (Field σ)) (start : σ) : Decoder σ where
  ofText := do
    match ← peekToken with
    | none => stopAhead .endInValue
    | some '\x7b' =>
      eat
      closedBy closeObject (readFields fields ((← rest).length + 1) true [] start)
    | some '[' =>
      eat
      closedBy closeList (readElements (expected) σ fields 0 true start)
    | some _ => wrongTypeAhead name
  ofJson
    | .obj members => membersOfJson fields members [] start
    | .arr items => elementsOfJson expected fields 0 items start
    | found => Json.wrongType name found
where
  /-- How a list that is too short is told from the right one. -/
  expected : String :=
    name ++ s!" with {fields.length} " ++ if fields.length = 1 then "element" else "elements"

def map (f : α → β) (decoder : Decoder α) : Decoder β where
  ofText := f <$> decoder.ofText
  ofJson v := f <$> decoder.ofJson v

/-- The value of a JSON text. -/
def decode (decoder : Decoder α) (text : String) : Except Fault α := decoder.ofText.run text

end Decoder

end RenderLayout.Json
