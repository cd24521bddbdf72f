import RenderLayout.Command.Run

/-!
The program: it reads the files that the command line names, and carries out what `plan` says.
-/

namespace RenderLayout

/-- The number of an error of the system, which may come with either sign. -/
def errorNumber (code : UInt32) : UInt32 := if code < 0x80000000 then code else 0 - code

def faultOf : IO.Error → FileFault
  | .noFileOrDirectory .. => .missing
  | .inappropriateType _ code reason =>
    if errorNumber code = 20 then .notFolder
    else if errorNumber code = 21 then .folder
    else .other reason
  | .permissionDenied _ code reason =>
    .other (reason ++ " (os error " ++ toString (errorNumber code) ++ ")")
  | error => .other (toString error)

/-- Reads a file as a text. -/
def readFile (path : OsText) : IO (Except FileFault String) := do
  try
    return FileTree.decodeText (← IO.FS.readBinFile path.shown)
  catch error => return .error (faultOf error)

def writeFile (path : OsText) (content : ByteArray) : IO (Except FileFault Unit) := do
  try
    IO.FS.writeBinFile path.shown content
    return .ok ()
  catch error => return .error (faultOf error)

/-- The files at paths, for a reader of these paths. -/
def readFiles (paths : List OsText) : IO FileReader := do
  let texts ← paths.mapM fun path => return (path, ← readFile path)
  return fun path => (texts.lookup path).getD (.error .missing)

/-- Prints a text, and tells whether that was possible. -/
def printText (text : String) : IO Bool := do
  try
    IO.print text
    return true
  catch _ => return false

def finish (ending : CommandLine.Ending) : IO UInt32 := do
  match ending with
  | .line exit text => return (if ← printText text then exit else CommandLine.panicked).toUInt32
  | .notice exit text =>
    let _ ← printText text
    return exit.toUInt32
  | .panic => return CommandLine.panicked.toUInt32

end RenderLayout

open RenderLayout

/-- The words of the line have characters, and so have all paths that are made of them. -/
def main (arguments : List String) : IO UInt32 := do
  let words := arguments.map OsText.ofString
  let read ← readFiles (CommandLine.readPaths words)
  match CommandLine.plan read words with
  | .finish ending => finish ending
  | .convert conversion =>
    let written ← writeFile conversion.output conversion.content
    finish (.ofConversion ((written.mapError .file).map fun _ => conversion.summary))
