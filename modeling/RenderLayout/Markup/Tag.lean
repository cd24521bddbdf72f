import RenderLayout.Markup.Entity
import RenderLayout.Table

/-!
Tags and their attributes.

An attribute is a key, an equals sign and a value in quotation marks, with blanks around each of
them as one likes; none are needed between attributes. Keys may not repeat. Places in messages count
the bytes from the start of the name of the tag.
-/

namespace RenderLayout.Markup

/-- A blank of the markup grammar. -/
def isBlank (c : Char) : Bool := c = ' ' || c = '\t' || c = '\n' || c = '\r'

/-- The part of a qualified name behind its first colon. -/
def localPart (name : List Char) : List Char :=
  match name.dropWhile (· ≠ ':') with
  | [] => name
  | _ :: rest => rest

/-- What stands between the brackets of a start tag or an empty tag, cut behind the name. -/
structure Tag where
  name : String
  rest : String
  deriving DecidableEq, Repr, Inhabited

/-- The name goes up to the first blank; it may be empty. -/
def Tag.ofContent (content : List Char) : Tag :=
  ⟨String.ofList (content.takeWhile (!isBlank ·)), String.ofList (content.dropWhile (!isBlank ·))⟩

def Tag.localName (tag : Tag) : String := String.ofList (localPart tag.name.toList)

inductive AttributeFault where
  | noEquals (place : Nat)
  | noValue (place : Nat)
  | notQuoted (place : Nat)
  | notClosed (place : Nat) (mark : Char)
  | duplicate (place first : Nat)
  deriving DecidableEq, Repr

def AttributeFault.message : AttributeFault → String
  | .noEquals place =>
    s!"position {place}: attribute key must be directly followed by `=` or space"
  | .noValue place => s!"position {place}: `=` must be followed by an attribute value"
  | .notQuoted place =>
    s!"position {place}: attribute value must be enclosed in `\"` or `'`"
  | .notClosed place mark =>
    s!"position {place}: missing closing quote `{mark}` in attribute value"
  | .duplicate place first =>
    s!"position {place}: duplicated attribute, previous declaration at position {first}"

/-- A key with its value as it is written. -/
structure Attribute where
  key : String
  raw : String
  deriving DecidableEq, Repr

/-- Where a scan of attributes stands. Characters are collected backwards. -/
inductive AttributeState where
  | between
  | inKey (start : Nat) (key : List Char)
  | behindKey (start : Nat) (key : List Char)
  | beforeValue (key : List Char)
  | inValue (key : List Char) (mark : Char) (value : List Char)

/-- The attributes of a text from a byte on, and the fault that ends them if there is one. `seen`
holds the earlier keys with their places. -/
def scanAttributes (seen : List (List Char × Nat)) (place : Nat) :
    AttributeState → List Char → List Attribute × Option AttributeFault
  | .between, [] => ([], none)
  | .inKey _ _, [] => ([], some (.noEquals place))
  | .behindKey _ _, [] => ([], some (.noEquals place))
  | .beforeValue _, [] => ([], some (.noValue place))
  | .inValue _ mark _, [] => ([], some (.notClosed place mark))
  | .between, c :: s =>
    if isBlank c then scanAttributes seen (place + 1) .between s
    else scanAttributes seen (place + c.utf8Size) (.inKey place [c]) s
  | .inKey start key, c :: s =>
    if c = '=' then
      match seen.lookup key with
      | some first => ([], some (.duplicate start first))
      | none => scanAttributes ((key, start) :: seen) (place + 1) (.beforeValue key) s
    else if isBlank c then scanAttributes seen (place + 1) (.behindKey start key) s
    else scanAttributes seen (place + c.utf8Size) (.inKey start (c :: key)) s
  | .behindKey start key, c :: s =>
    if c = '=' then
      match seen.lookup key with
      | some first => ([], some (.duplicate start first))
      | none => scanAttributes ((key, start) :: seen) (place + 1) (.beforeValue key) s
    else if isBlank c then scanAttributes seen (place + 1) (.behindKey start key) s
    else ([], some (.noEquals place))
  | .beforeValue key, c :: s =>
    if c = '"' ∨ c = '\x27' then scanAttributes seen (place + 1) (.inValue key c []) s
    else if isBlank c then scanAttributes seen (place + 1) (.beforeValue key) s
    else ([], some (.notQuoted place))
  | .inValue key mark value, c :: s =>
    if c = mark then
      let (attributes, fault) := scanAttributes seen (place + 1) .between s
      (⟨String.ofList key.reverse, String.ofList value.reverse⟩ :: attributes, fault)
    else scanAttributes seen (place + c.utf8Size) (.inValue key mark (c :: value)) s
termination_by structural _ s => s

inductive TagFault where
  | malformed (fault : AttributeFault)
  | entity (fault : EntityFault)
  deriving DecidableEq, Repr

def TagFault.message : TagFault → String
  | .malformed fault => fault.message
  | .entity fault => fault.message

def Attribute.value (a : Attribute) : Except TagFault String :=
  (unescape a.raw).mapError .entity

def Tag.scan (tag : Tag) : List Attribute × Option AttributeFault :=
  scanAttributes [] (byteLength tag.name.toList) .between tag.rest.toList

/-- The values of the attributes under the local parts of their keys; a later one replaces an
earlier one. The first fault from the left counts. -/
def Tag.attributes (tag : Tag) : Except TagFault (Table String) := do
  let (attributes, fault) := tag.scan
  let values ← attributes.mapM fun a => return (String.ofList (localPart a.key.toList), ← a.value)
  match fault with
  | some fault => throw (.malformed fault)
  | none => return .ofList values

end RenderLayout.Markup
