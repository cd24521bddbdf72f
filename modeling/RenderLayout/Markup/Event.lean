import RenderLayout.Markup.Tag

/-!
The events of a markup text, in one pass over its characters.

A scan gives the events up to the end of the text or up to the first fault. End tags close the
innermost open element by its full name, so that the events nest. A fault has the place, in bytes,
that the scan has come to.
-/

namespace RenderLayout.Markup

inductive Event where
  /-- Character data, with its entities as they are written. -/
  | text (raw : String)
  /-- Character data in which nothing has a meaning. -/
  | literal (raw : String)
  | empty (tag : Tag)
  | start (tag : Tag)
  | close
  /-- A comment, a processing instruction or a declaration. -/
  | aside
  deriving DecidableEq, Repr

inductive Fault where
  | openTag
  | openInstruction
  | openComment
  | openDoctype
  | openLiteral
  | unknownDeclaration
  | namelessDoctype
  | wrongEnd (expected found : String)
  | strayEnd (found : String)
  | missingEnd (name : String)
  deriving DecidableEq, Repr

def Fault.message : Fault → String
  | .openTag => "syntax error: tag not closed: `>` not found before end of input"
  | .openInstruction =>
    "syntax error: processing instruction or xml declaration not closed: " ++
      "`?>` not found before end of input"
  | .openComment => "syntax error: comment not closed: `-->` not found before end of input"
  | .openDoctype => "syntax error: DOCTYPE not closed: `>` not found before end of input"
  | .openLiteral => "syntax error: CDATA not closed: `]]>` not found before end of input"
  | .unknownDeclaration => "syntax error: unknown or missed symbol in markup"
  | .namelessDoctype =>
    "ill-formed document: `<!DOCTYPE>` declaration does not contain a name of a document type"
  | .wrongEnd expected found =>
    s!"ill-formed document: expected `</{expected}>`, but `</{found}>` was found"
  | .strayEnd found => s!"ill-formed document: close tag `</{found}>` does not match any open tag"
  | .missingEnd name =>
    s!"ill-formed document: start tag not closed: `</{name}>` not found before end of input"

/-- How a scan ends. -/
inductive Ending where
  | done
  | broken (place : Nat) (fault : Fault)
  deriving DecidableEq, Repr

/-- Where a scan stands. Characters are collected backwards. -/
inductive ScanState where
  | inText (chars : List Char)
  /-- Behind `<`. -/
  | opened
  /-- Within a tag, and within a quotation mark if there is one. -/
  | inTag (mark : Option Char) (chars : List Char)
  | inInstruction (chars : List Char)
  /-- Behind `<!`. -/
  | declared
  | inComment (chars : List Char)
  | inLiteral (chars : List Char)
  /-- Within so many angle brackets. -/
  | inDoctype (depth : Nat) (chars : List Char)

/-- The name in an end tag: blanks behind it do not count, unless there is nothing else. -/
def endName (content : List Char) : List Char :=
  match (content.reverse.dropWhile isBlank).reverse with
  | [] => content
  | name => name

/-- The event of a tag within open elements, and the elements that are open behind it. -/
def readTag (names : List (List Char)) (content : List Char) :
    Except Fault (Event × List (List Char)) :=
  match content with
  | '/' :: rest =>
    let found := endName rest
    match names with
    | [] => .error (.strayEnd (String.ofList found))
    | expected :: outer =>
      if found = expected then .ok (.close, outer)
      else .error (.wrongEnd (String.ofList expected) (String.ofList found))
  | _ =>
    if content.getLast? = some '/' then .ok (.empty (.ofContent content.dropLast), names)
    else
      let tag := Tag.ofContent content
      .ok (.start tag, tag.name.toList :: names)

/-- A comment from its `!` on. -/
def readComment (content : List Char) : Except Fault Event :=
  if "!--".toList.isPrefixOf content then .ok .aside else .error .openComment

def readLiteral (content : List Char) : Except Fault Event :=
  if "![CDATA[".toList.isPrefixOf content then
    .ok (.literal (String.ofList ((content.drop 8).take (content.length - 10))))
  else .error .openLiteral

def readDoctype (content : List Char) : Except Fault Event :=
  if (content.take 8).map Char.toLower = "!doctype".toList then
    if (content.drop 8).all isBlank then .error .namelessDoctype else .ok .aside
  else .error .openDoctype

def readInstruction (content : List Char) : Except Fault Event :=
  if content.length = 1 then .error .openInstruction else .ok .aside

def textEvents (chars : List Char) : List Event :=
  if chars.isEmpty then [] else [.text (String.ofList chars.reverse)]

def prepend (events : List Event) (scanned : List Event × Ending) : List Event × Ending :=
  (events ++ scanned.1, scanned.2)

/-- The fault of a text that ends in a state. -/
def ScanState.ending (place : Nat) : ScanState → Ending
  | .inText _ => .done
  | .opened => .broken place .openTag
  | .inTag _ _ => .broken place .openTag
  | .inInstruction _ => .broken place .openInstruction
  | .declared => .broken (place - 1) .unknownDeclaration
  | .inComment _ => .broken place .openComment
  | .inLiteral _ => .broken place .openLiteral
  | .inDoctype _ _ => .broken place .openDoctype

/-- Goes on behind a construct that has been read, or ends with its fault. -/
def proceed (place : Nat) (read : Except Fault Event) (rest : List Event × Ending) :
    List Event × Ending :=
  match read with
  | .ok event => prepend [event] rest
  | .error fault => ([], .broken place fault)

/-- The events of a text from a byte on, within open elements. -/
def scan (names : List (List Char)) (place : Nat) : ScanState → List Char → List Event × Ending
  | .inText chars, [] => (textEvents chars, .done)
  | state, [] => ([], state.ending place)
  | .inText chars, c :: s =>
    if c = '<' then prepend (textEvents chars) (scan names (place + 1) .opened s)
    else scan names (place + c.utf8Size) (.inText (c :: chars)) s
  | .opened, c :: s =>
    if c = '!' then scan names (place + 1) .declared s
    else if c = '?' then scan names (place + 1) (.inInstruction [c]) s
    else if c = '>' then
      match readTag names [] with
      | .ok (event, names) => prepend [event] (scan names (place + 1) (.inText []) s)
      | .error fault => ([], .broken (place + 1) fault)
    else
      scan names (place + c.utf8Size)
        (.inTag (if c = '"' ∨ c = '\x27' then some c else none) [c]) s
  | .inTag (some mark) chars, c :: s =>
    scan names (place + c.utf8Size) (.inTag (if c = mark then none else some mark) (c :: chars)) s
  | .inTag none chars, c :: s =>
    if c = '>' then
      match readTag names chars.reverse with
      | .ok (event, names) => prepend [event] (scan names (place + 1) (.inText []) s)
      | .error fault => ([], .broken (place + 1) fault)
    else
      scan names (place + c.utf8Size)
        (.inTag (if c = '"' ∨ c = '\x27' then some c else none) (c :: chars)) s
  | .inInstruction chars, c :: s =>
    if c = '>' ∧ chars.head? = some '?' then
      proceed (place + 1) (readInstruction chars.reverse) (scan names (place + 1) (.inText []) s)
    else scan names (place + c.utf8Size) (.inInstruction (c :: chars)) s
  | .declared, c :: s =>
    if c = '-' then scan names (place + 1) (.inComment [c, '!']) s
    else if c = '[' then scan names (place + 1) (.inLiteral [c, '!']) s
    else if c = 'D' ∨ c = 'd' then scan names (place + 1) (.inDoctype 0 [c, '!']) s
    else ([], .broken (place - 1) .unknownDeclaration)
  | .inComment chars, c :: s =>
    if c = '>' ∧ 5 ≤ chars.length ∧ chars.take 2 = ['-', '-'] then
      proceed (place + 1) (readComment chars.reverse) (scan names (place + 1) (.inText []) s)
    else scan names (place + c.utf8Size) (.inComment (c :: chars)) s
  | .inLiteral chars, c :: s =>
    if c = '>' ∧ chars.take 2 = [']', ']'] then
      proceed (place + 1) (readLiteral chars.reverse) (scan names (place + 1) (.inText []) s)
    else scan names (place + c.utf8Size) (.inLiteral (c :: chars)) s
  | .inDoctype depth chars, c :: s =>
    if c = '<' then scan names (place + 1) (.inDoctype (depth + 1) (c :: chars)) s
    else if c = '>' then
      if depth = 0 then
        proceed (place + 1) (readDoctype chars.reverse) (scan names (place + 1) (.inText []) s)
      else scan names (place + 1) (.inDoctype (depth - 1) (c :: chars)) s
    else scan names (place + c.utf8Size) (.inDoctype depth (c :: chars)) s
termination_by structural _ s => s

/-- A byte order mark in front of a text is no part of it. -/
def dropMark : List Char → List Char
  | '\ufeff' :: s => s
  | s => s

def events (markup : String) : List Event × Ending :=
  scan [] 0 (.inText []) (dropMark markup.toList)

end RenderLayout.Markup
