import RenderLayout.Json.Basic
import RenderLayout.Number.Format

/-!
JSON text.

`render` writes without any blank, `pretty` one item a line. Both write the members of an object
in the order in which they stand, which is that of their keys, so that a value has one text.
-/

namespace RenderLayout.Json

def hexDigit (n : Nat) : Char := (Nat.digitChar (n % 16))

/-- A quotation mark, a backslash and the control characters below a blank are escaped, with a
letter where there is one. -/
def escapeChar (c : Char) : List Char :=
  if c = '"' then ['\\', '"']
  else if c = '\\' then ['\\', '\\']
  else if c = '\n' then ['\\', 'n']
  else if c = '\r' then ['\\', 'r']
  else if c = '\t' then ['\\', 't']
  else if c.toNat = 8 then ['\\', 'b']
  else if c.toNat = 12 then ['\\', 'f']
  else if c.toNat < 0x20 then ['\\', 'u', '0', '0', hexDigit (c.toNat / 16), hexDigit c.toNat]
  else [c]

def quote (s : String) : List Char := '"' :: s.toList.flatMap escapeChar ++ ['"']

def renderInt (n : Int) : List Char := Number.signed (n < 0) (Number.digitsOf n.natAbs)

/-- A float that is no number is written as null. -/
def renderFloat (x : Float) : List Char :=
  match Number.Binary.ofFloat x with
  | .finite .. => Number.Format.scientific.write x
  | _ => "null".toList

mutual

def renderChars : Json → List Char
  | .null => "null".toList
  | .bool true => "true".toList
  | .bool false => "false".toList
  | .int n => renderInt n
  | .float x => renderFloat x
  | .str s => quote s
  | .arr [] => ['[', ']']
  | .arr (item :: items) => '[' :: renderChars item ++ renderItems items
  | .obj [] => ['\x7b', '\x7d']
  | .obj (member :: members) => '\x7b' :: renderMember member ++ renderMembers members
termination_by structural v => v

/-- The items behind the first one. -/
def renderItems : List Json → List Char
  | [] => [']']
  | item :: items => ',' :: renderChars item ++ renderItems items
termination_by structural items => items

def renderMembers : List (String × Json) → List Char
  | [] => ['\x7d']
  | member :: members => ',' :: renderMember member ++ renderMembers members
termination_by structural members => members

def renderMember : String × Json → List Char
  | (key, value) => quote key ++ ':' :: renderChars value
termination_by structural m => m

end

/-- The canonical text of a value. -/
def render (v : Json) : String := String.ofList (renderChars v)

def indented (depth : Nat) : List Char := '\n' :: List.replicate (2 * depth) ' '

mutual

def prettyChars (depth : Nat) : Json → List Char
  | .arr (item :: items) =>
    '[' :: indented (depth + 1) ++ prettyChars (depth + 1) item ++ prettyItems depth items
  | .obj (member :: members) =>
    '\x7b' :: indented (depth + 1) ++ prettyMember (depth + 1) member ++
      prettyMembers depth members
  | v => renderChars v
termination_by structural v => v

def prettyItems (depth : Nat) : List Json → List Char
  | [] => indented depth ++ [']']
  | item :: items =>
    ',' :: indented (depth + 1) ++ prettyChars (depth + 1) item ++ prettyItems depth items
termination_by structural items => items

def prettyMembers (depth : Nat) : List (String × Json) → List Char
  | [] => indented depth ++ ['\x7d']
  | member :: members =>
    ',' :: indented (depth + 1) ++ prettyMember (depth + 1) member ++ prettyMembers depth members
termination_by structural members => members

def prettyMember (depth : Nat) : String × Json → List Char
  | (key, value) => quote key ++ ':' :: ' ' :: prettyChars depth value
termination_by structural m => m

end

/-- The text of a value with two blanks for each level. -/
def pretty (v : Json) : String := String.ofList (prettyChars 0 v)

end RenderLayout.Json
