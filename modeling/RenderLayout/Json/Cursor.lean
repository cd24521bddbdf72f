import RenderLayout.Json.Fault

/-!
Reading a JSON text character by character.

A reader stops at the first thing that is wrong. Most things are wrong at a character, which gives
their place. A value may also be wrong as a whole; such a stop keeps the cursor, and the value
around it gives it the place behind itself.
-/

namespace RenderLayout.Json

structure Cursor where
  rest : List Char
  place : Place

namespace Cursor

def ofText (s : String) : Cursor := ⟨s.toList, .start⟩

/-- The place behind the next byte, or the end. -/
def placeAhead (cursor : Cursor) : Place :=
  match cursor.rest with
  | [] => cursor.place
  | c :: _ => cursor.place.nextByte c

/-- Behind the next `count` characters. -/
def skip (count : Nat) (cursor : Cursor) : Cursor :=
  ⟨cursor.rest.drop count, cursor.place.skip (cursor.rest.take count)⟩

end Cursor

inductive Stop where
  | placed (cause : Cause) (place : Place)
  | unplaced (cause : Cause) (cursor : Cursor)

abbrev Reader (α : Type) := StateT Cursor (Except Stop) α

namespace Reader

/-- Stops at the current place. -/
def stopHere (cause : Cause) : Reader α := fun cursor => .error (.placed cause cursor.place)

/-- Stops at the next byte. -/
def stopAhead (cause : Cause) : Reader α := fun cursor => .error (.placed cause cursor.placeAhead)

def stopUnplaced (cause : Cause) : Reader α := fun cursor => .error (.unplaced cause cursor)

def peek : Reader (Option Char) := fun cursor => .ok (cursor.rest.head?, cursor)

/-- The rest of the text. -/
def rest : Reader (List Char) := fun cursor => .ok (cursor.rest, cursor)

/-- Passes `count` characters. -/
def skip (count : Nat) : Reader Unit := fun cursor => .ok ((), cursor.skip count)

/-- Passes the next character. -/
def eat : Reader Unit := skip 1

/-- Passes the characters for which `p` holds, up to the first other one. -/
def takeWhile (p : Char → Bool) : Reader (List Char) := do
  let taken := (← rest).takeWhile p
  skip taken.length
  return taken

/-- A blank of the JSON grammar. -/
def isBlank (c : Char) : Bool := c = ' ' || c = '\n' || c = '\t' || c = '\r'

/-- The next character that is no blank, with the cursor on it. -/
def peekToken : Reader (Option Char) := do
  let _ ← takeWhile isBlank
  peek

/-- What stands behind a value's last part: the cursor that is reached, and what is wrong there. -/
abbrev Closing := Cursor → Cursor × Option Stop

/-- Reads the parts of a value and closes it. What is wrong with the value as a whole is placed
where its closing comes to. -/
def closedBy (closing : Closing) (parts : Reader α) : Reader α := fun cursor =>
  match parts cursor with
  | .ok (value, inner) =>
    match closing inner with
    | (outer, none) => .ok (value, outer)
    | (_, some stop) => .error stop
  | .error (.unplaced cause inner) => .error (.placed cause (closing inner).1.place)
  | .error stop => .error stop

end Reader

end RenderLayout.Json
