import RenderLayout.Compile
import RenderLayout.Drawing.Decode
import RenderLayout.Settings

/-!
From files of drawings to the file of a layout.

The inputs are read one after the other, each as the page that its file is named after, and the
first failure counts. Only when there is a layout is anything written.
-/

namespace RenderLayout

/-! ### Reading drawings -/

/-- The name of the file that a path leads to, if it ends in a name. -/
def fileName? (path : OsText) : Option OsText :=
  match (FileTree.namesOf path).getLast? with
  | some name => if name = ".." then none else some name
  | none => none

def point : UInt8 := 0x2e

/-- The name of a file up to its last point, but a name has at least one byte. -/
def stem (name : OsText) : OsText :=
  match name.bytes.reverse.dropWhile (· ≠ point) with
  | _ :: b :: before => ⟨(b :: before).reverse⟩
  | _ => name

/-- The page that a file becomes. -/
def pageOf (path : OsText) : Except Failure String :=
  match fileName? path with
  | some name => .ok (stem name).shown
  | none => .error (.namelessPath path.shown)

/-- Reads one more drawing. -/
def loadDrawing (read : FileReader) (drawings : Table Drawing) (path : OsText) :
    Except Failure (Table Drawing) := do
  let page ← pageOf path
  let text ← (read path).mapError .file
  let drawing ← (Drawing.ofMarkup text).mapError (.page page)
  if drawings.contains page then throw (.duplicatePage page)
  return drawings.insert page drawing

/-- The drawings of all inputs under the names of their pages. -/
def loadDrawings (read : FileReader) (inputs : List OsText) : Except Failure (Table Drawing) :=
  inputs.foldlM (loadDrawing read) .empty

/-! ### Writing layouts -/

/-- A layout, and the path of the file that it is written to. -/
structure Conversion where
  output : OsText
  layout : Layout

/-- What is told of a layout that has been written. -/
structure Summary where
  output : OsText
  pages : List String
  styles : Nat
  fonts : Nat
  digest : String

namespace Conversion

/-- The bytes that are written. -/
def content (conversion : Conversion) : ByteArray := conversion.layout.text.toUTF8

def summary (conversion : Conversion) : Summary :=
  let layout := conversion.layout
  ⟨conversion.output, layout.pages.keys, layout.styles.size, layout.fonts.size, layout.digest⟩

/-- The conversion of the drawings in files. -/
def ofFiles (read : FileReader) (canvas : Canvas) (inputs : List OsText) (output : OsText) :
    Except Failure Conversion := do
  let drawings ← loadDrawings read inputs
  let layout ← compile canvas drawings
  return ⟨output, layout⟩

end Conversion

namespace Summary

def json (summary : Summary) : Json :=
  .object
    [("output", .str summary.output.shown), ("pages", .arr (summary.pages.map .str)),
      ("styles", .int summary.styles), ("fonts", .int summary.fonts),
      ("digest", .str summary.digest)]

/-- A summary can be told only if the path of the output has characters. -/
def json? (summary : Summary) : Option Json := summary.output.text?.map fun _ => summary.json

end Summary

namespace FileTree

/-- Writes the layout of a conversion. -/
def store (tree : FileTree) (system : System) (conversion : Conversion) :
    Except Failure Summary × FileTree :=
  let (written, tree) := tree.write system conversion.output conversion.content
  ((written.mapError .file).map fun _ => conversion.summary, tree)

/-- Writes the layout of the drawings in files. -/
def convertOn (tree : FileTree) (system : System) (canvas : Canvas) (inputs : List OsText)
    (output : OsText) : Except Failure Summary × FileTree :=
  match Conversion.ofFiles (system.read tree) canvas inputs output with
  | .error failure => (.error failure, tree)
  | .ok conversion => tree.store system conversion

/-- A conversion on a system that refuses nothing and has room for everything. -/
def convert (tree : FileTree) (canvas : Canvas) (inputs : List OsText) (output : OsText) :
    Except Failure (Summary × FileTree) :=
  let (told, tree) := tree.convertOn {} canvas inputs output
  told.map fun summary => (summary, tree)

end FileTree

end RenderLayout
