import RenderLayout.Command.Help
import RenderLayout.Files.Convert

/-!
Runs of the program.

A run reads files, may write one file, and ends with an exit code and a text on its output: 0 and
what was asked for, 1 and a failure, or 2 and nothing if the command line means nothing. It panics
if a line cannot be printed, or if there is no text for what a conversion has done; that is found
out only when the file is written. `plan` says what a run does for any way to read files, and `run`
carries it out on a tree of files.
-/

namespace RenderLayout.CommandLine

def version : String := "1.0.0"

/-! ### How runs end -/

/-- How a run has ended: its exit code, and what was printed. -/
structure Reply where
  exit : Nat
  output : String
  deriving DecidableEq, Repr, Inhabited

/-- The exit code of a run that panics. -/
def panicked : Nat := 101

/-- What a run has to say at its end. -/
inductive Ending where
  /-- A line, without which the run does not end well. -/
  | line (exit : Nat) (text : String)
  /-- A text that may get lost. -/
  | notice (exit : Nat) (text : String)
  /-- There is no text for it. -/
  | panic
  deriving DecidableEq, Repr

/-- As much of a text as can be printed. -/
def printed (paper : Option Nat) (text : String) : String :=
  match paper with
  | none => text
  | some room => String.ofList (text.toList.take room)

/-- How a run ends for which so many characters can be printed. -/
def Ending.reply (paper : Option Nat) : Ending → Reply
  | .line exit text =>
    if printed paper text = text then ⟨exit, text⟩ else ⟨panicked, printed paper text⟩
  | .notice exit text => ⟨exit, printed paper text⟩
  | .panic => ⟨panicked, ""⟩

def Ending.ofFailure (failure : Failure) : Ending :=
  .line 1 ((Json.object [("success", .bool false), ("error", .str failure.message)]).render ++ "\n")

def Ending.ofJson (v : Json) : Ending := .line 0 (v.pretty ++ "\n")

/-- The weights of a family, each of them there or not. -/
def weightsJson (family : Font.Family) : Json :=
  .object
    [("regular", .bool (family.has .regular)), ("bold", .bool (family.has .bold)),
      ("light", .bool (family.has .light))]

def catalogJson : Json :=
  .arr <| Font.catalog.map fun family =>
    .object [("family", .str family.name), ("variants", weightsJson family)]

def reportJson (summary : Json) : Json :=
  .object [("success", .bool true), ("version", .str version), ("summary", summary)]

/-- The end of a conversion. -/
def Ending.ofConversion : Except Failure Summary → Ending
  | .error failure => .ofFailure failure
  | .ok summary =>
    match summary.json? with
    | some v => .ofJson (reportJson v)
    | none => .panic

/-! ### Plans -/

/-- What a run does once it has read its files. -/
inductive Plan where
  | finish (ending : Ending)
  | convert (conversion : Conversion)

/-- What a command does under settings. -/
def planCommand (read : FileReader) (settings : Settings) : Command → Except Failure Plan
  | .fonts => .ok (.finish (.ofJson catalogJson))
  | .convert inputs output =>
    (Conversion.ofFiles read settings.canvas inputs output).map .convert

def loadSettings (read : FileReader) : Option OsText → Except Failure Settings
  | some path => Settings.load read path
  | none => .ok {}

def planRun (read : FileReader) (config : Option OsText) (command : Command) :
    Except Failure Plan := do
  planCommand read (← loadSettings read config) command

/-- What the words of a command line do. -/
def plan (read : FileReader) (words : List OsText) : Plan :=
  match CommandLine.read words with
  | .misuse => .finish (.notice 2 "")
  | .version => .finish (.notice 0 s!"svg2layout {version}\n")
  | .help level => .finish (.notice 0 level.manual)
  | .run config command =>
    match planRun read config command with
    | .ok plan => plan
    | .error failure => .finish (.ofFailure failure)

/-- The paths that the words of a command line have read. -/
def readPaths (words : List OsText) : List OsText :=
  match CommandLine.read words with
  | .run config (.convert inputs _) => config.toList ++ inputs
  | .run config .fonts => config.toList
  | _ => []

/-! ### Runs -/

/-- Runs the program on a tree of files. -/
def run (tree : FileTree) (words : List OsText) (system : System := {}) : Reply × FileTree :=
  match plan (system.read tree) words with
  | .finish ending => (ending.reply system.paper, tree)
  | .convert conversion =>
    let (told, tree) := tree.store system conversion
    ((Ending.ofConversion told).reply system.paper, tree)

end RenderLayout.CommandLine
