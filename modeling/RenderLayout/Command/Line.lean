import RenderLayout.Text.OsText

/-!
The command line: options and a command, read from left to right.

`--config` may stand before the command and behind it. An option takes its value from the same word
or from the next one, which does not start with a dash unless it is nothing else. Every value is a
path and not empty. The first word that asks for help or for the version, or that is wrong, decides.
Names and letters of options are ASCII, so that words are read byte by byte.
-/

namespace RenderLayout.CommandLine

/-- What the options of a command say. -/
structure Options where
  config : Option OsText := none
  inputs : List OsText := []
  output : Option OsText := none
  deriving DecidableEq, Repr, Inhabited

inductive Command where
  | convert (inputs : List OsText) (output : OsText)
  | fonts
  deriving DecidableEq, Repr

/-- Where a word stands: before the command, or behind one. -/
inductive Level where
  | program
  | convert
  | fonts
  | help
  deriving DecidableEq, Repr

/-- What a command line asks for. -/
inductive Request where
  | run (config : Option OsText) (command : Command)
  | help (level : Level)
  | version
  /-- The line means nothing. -/
  | misuse
  deriving DecidableEq, Repr

inductive Slot where
  | config
  | input
  | output
  deriving DecidableEq, Repr

inductive Switch where
  | takes (slot : Slot)
  | help
  | version
  deriving DecidableEq, Repr

/-- The options of a level by their long names, whose first letters are their short ones. -/
def Level.switches : Level → List (String × Char × Switch)
  | .program =>
    [("config", 'c', .takes .config), ("help", 'h', .help), ("version", 'V', .version)]
  | .convert =>
    [("input", 'i', .takes .input), ("output", 'o', .takes .output),
      ("config", 'c', .takes .config), ("help", 'h', .help)]
  | .fonts => [("config", 'c', .takes .config), ("help", 'h', .help)]
  | .help => []

def Level.long? (level : Level) (name : OsText) : Option Switch :=
  (level.switches.find? fun switch => OsText.ofString switch.1 = name).map (·.2.2)

def Level.short? (level : Level) (letter : UInt8) : Option Switch :=
  (level.switches.find? fun switch => switch.2.1.toUInt8 = letter).map (·.2.2)

def commands : List (String × Level) := [("convert", .convert), ("fonts", .fonts), ("help", .help)]

def command? (word : OsText) : Option Level :=
  (commands.find? fun command => OsText.ofString command.1 = word).map (·.2)

/-- The options with a value more; `--input` may repeat, the others may not. -/
def Options.put (options : Options) (slot : Slot) (value : OsText) : Option Options :=
  if value.isEmpty then none
  else
    match slot with
    | .config => if options.config.isSome then none else some { options with config := some value }
    | .input => some { options with inputs := options.inputs ++ [value] }
    | .output => if options.output.isSome then none else some { options with output := some value }

/-! ### Words -/

inductive Word where
  /-- Two dashes, behind which there are no options. -/
  | separator
  | long (name : OsText) (value : Option OsText)
  | short (letter : UInt8) (rest : List UInt8)
  | plain
  deriving DecidableEq, Repr

def dash : UInt8 := 0x2d

def equals : UInt8 := 0x3d

/-- The name and the value of a long option. -/
def Word.ofLong (bytes : List UInt8) : Word :=
  match bytes.dropWhile (· ≠ equals) with
  | [] => .long ⟨bytes⟩ none
  | _ :: value => .long ⟨bytes.takeWhile (· ≠ equals)⟩ (some ⟨value⟩)

def Word.ofText (text : OsText) : Word :=
  match text.bytes with
  | first :: second :: rest =>
    if first ≠ dash then .plain
    else if second ≠ dash then .short second rest
    else if rest.isEmpty then .separator
    else .ofLong rest
  | _ => .plain

/-- The value behind the letter of a short option, if there is one. -/
def attachedValue? : List UInt8 → Option OsText
  | [] => none
  | first :: rest => some ⟨if first = equals then rest else first :: rest⟩

/-! ### Lines -/

/-- What the words of a level come to. -/
inductive Outcome where
  /-- The options, and the first word that is none with the words behind it. -/
  | options (options : Options) (rest : List OsText)
  | stop (request : Request)

/-- Reads options up to the first word that is none. -/
def readOptions (level : Level) (options : Options) : List OsText → Outcome
  | [] => .options options []
  | word :: words =>
    match Word.ofText word with
    | .plain => .options options (word :: words)
    | .separator => if words.isEmpty then .options options [] else .stop .misuse
    | .long name value =>
      match level.long? name, value, words with
      | some (.takes slot), some value, words =>
        match options.put slot value with
        | some options => readOptions level options words
        | none => .stop .misuse
      | some (.takes slot), none, value :: words =>
        match Word.ofText value, options.put slot value with
        | .plain, some options => readOptions level options words
        | _, _ => .stop .misuse
      | some .help, none, _ => .stop (.help level)
      | some .version, none, _ => .stop .version
      | _, _, _ => .stop .misuse
    | .short letter rest =>
      match level.short? letter, attachedValue? rest, words with
      | some (.takes slot), some value, words =>
        match options.put slot value with
        | some options => readOptions level options words
        | none => .stop .misuse
      | some (.takes slot), none, value :: words =>
        match Word.ofText value, options.put slot value with
        | .plain, some options => readOptions level options words
        | _, _ => .stop .misuse
      | some .help, _, _ => .stop (.help level)
      | some .version, _, _ => .stop .version
      | _, _, _ => .stop .misuse

/-- The command with its options; nothing stands behind them. -/
def readCommand (level : Level) (outer : Options) (words : List OsText)
    (command : Options → Option Command) : Request :=
  match readOptions level {} words with
  | .stop request => request
  | .options options [] =>
    match command options with
    | some command => .run (options.config <|> outer.config) command
    | none => .misuse
  | .options _ _ => .misuse

/-- A conversion has at least one input, and an output. -/
def convertOf (options : Options) : Option Command :=
  match options.inputs, options.output with
  | [], _ => none
  | _, none => none
  | inputs, some output => some (.convert inputs output)

def fontsOf (_ : Options) : Option Command := some .fonts

/-- Help with the program, or with one of its commands. -/
def readHelp : List OsText → Request
  | [] => .help .program
  | [word] =>
    match command? word with
    | some level => .help level
    | none => .misuse
  | _ => .misuse

/-- What the words of a command line ask for. -/
def read (words : List OsText) : Request :=
  match readOptions .program {} words with
  | .stop request => request
  | .options _ [] => .misuse
  | .options outer (word :: rest) =>
    match command? word with
    | some .convert => readCommand .convert outer rest convertOf
    | some .fonts => readCommand .fonts outer rest fontsOf
    | some .help => readHelp rest
    | _ => .misuse

end RenderLayout.CommandLine
