import RenderLayout.Text.Blank
import RenderLayout.Text.OsText

/-!
Trees of files in memory, and the system that they are in.

A place is told by the names on the way to it from the root, which is a folder. A path leads to a
place by names, `.` and `..`, which are separated by slashes: from the root if a slash stands in
front, and else from the working folder. There are no links. A file can be read as a text, and
written in a folder that is there already; nothing else changes then. To write a file empties it
first, and there may be no room then for all that is written.
-/

namespace RenderLayout

/-- Why a file cannot be read or written. -/
inductive FileFault where
  | missing
  /-- A file stands where the path has a folder. -/
  | notFolder
  /-- A folder stands where the path has a file. -/
  | folder
  /-- The bytes of the file are no text. -/
  | notText
  /-- Something else, in words. -/
  | other (reason : String)
  deriving DecidableEq, Repr

def FileFault.message : FileFault → String
  | .missing => "No such file or directory (os error 2)"
  | .notFolder => "Not a directory (os error 20)"
  | .folder => "Is a directory (os error 21)"
  | .notText => "stream did not contain valid UTF-8"
  | .other reason => reason

/-- The text of a file, by its path. -/
abbrev FileReader := OsText → Except FileFault String

/-- The names on the way from the root. -/
abbrev Place := List OsText

-- which instance is found would depend on what is imported
local instance (priority := high) decideBytesEq : DecidableEq ByteArray := ByteArray.instDecidableEq

inductive FileEntry where
  | file (content : ByteArray)
  | folder
  /-- The null device: it takes what is written, and nothing can be read of it. -/
  | sink
  deriving DecidableEq

/-- What stands at places, and the working folder. The root has no entry, and of several entries
for a place the first one counts. A tree that is made of nothing has an empty working folder, and
the null device. -/
structure FileTree where
  entries : List (Place × FileEntry) :=
    [(["dev"], .folder), (["dev", "null"], .sink), (["tmp"], .folder), (["tmp", "work"], .folder)]
  folder : Place := ["tmp", "work"]
  deriving DecidableEq

inductive Access where
  | reading
  | writing
  deriving DecidableEq, Repr

/-- What the system grants, as far as the tree does not tell. -/
structure System where
  /-- Why it refuses a path, for want of a permission, say. -/
  refuses : Access → OsText → Option FileFault := fun _ _ => none
  /-- How many bytes a file can get, and what is said of more, if there is a bound. -/
  room : Option (Nat × FileFault) := none
  /-- How many characters can be printed, if there is a bound. -/
  paper : Option Nat := none

namespace FileTree

open Text

/-! ### Paths -/

def slash : UInt8 := 0x2f

/-- The parts of a path between slashes. -/
def parts (path : OsText) : List OsText := (split (· = slash) path.bytes).map OsText.mk

/-- The place that one part of a path leads to from a folder. Above the root there is the root. -/
def step (place : Place) (part : OsText) : Place :=
  if part.isEmpty ∨ part = "." then place
  else if part = ".." then place.dropLast
  else place ++ [part]

/-- Where a path starts. -/
def start (tree : FileTree) (path : OsText) : Place :=
  if path.bytes.head? = some slash then [] else tree.folder

/-- What is at a place. -/
def find? (tree : FileTree) : Place → Option FileEntry
  | [] => some .folder
  | place => tree.entries.lookup place

/-- Enters the folder at a place. -/
def enter (tree : FileTree) (place : Place) : Except FileFault Unit :=
  match tree.find? place with
  | some .folder => .ok ()
  | some _ => .error .notFolder
  | none => .error .missing

/-- The place that parts of a path lead to; all but the last of them lead to folders. -/
def walk (tree : FileTree) (place : Place) : List OsText → Except FileFault Place
  | [] => .ok place
  | part :: rest => do
    tree.enter place
    tree.walk (step place part) rest

/-- The place of a path. -/
def locate (tree : FileTree) (path : OsText) : Except FileFault Place :=
  if path.isEmpty then .error .missing else tree.walk (tree.start path) (parts path)

/-! ### Reading -/

def readBytes (tree : FileTree) (path : OsText) : Except FileFault ByteArray := do
  match tree.find? (← tree.locate path) with
  | some (.file content) => return content
  | some .sink => return .empty
  | some .folder => throw .folder
  | none => throw .missing

/-- The text that bytes encode. -/
def decodeText (content : ByteArray) : Except FileFault String :=
  match String.fromUTF8? content with
  | some text => .ok text
  | none => .error .notText

def readText (tree : FileTree) (path : OsText) : Except FileFault String := do
  decodeText (← tree.readBytes path)

end FileTree

/-- Reads files of a tree, as far as the system lets one. -/
def System.read (system : System) (tree : FileTree) : FileReader := fun path =>
  match system.refuses .reading path with
  | some fault => .error fault
  | none => tree.readText path

namespace FileTree

/-! ### Writing -/

/-- The parts of a path without the empty ones at its end, and whether there were any. -/
def dropSlashes (parts : List OsText) : List OsText × Bool :=
  let kept := (parts.reverse.dropWhile (·.isEmpty)).reverse
  (kept, kept.length < parts.length)

/-- The place at which a file of this path can be written. A slash at the end asks for a folder, and
so do `.` and `..`. -/
def target (tree : FileTree) (path : OsText) : Except FileFault Place := do
  if path.isEmpty then throw .missing
  let (kept, slash) := dropSlashes (parts path)
  let folder ← tree.walk (tree.start path) kept.dropLast
  tree.enter folder
  match kept.getLast? with
  | none => throw .folder
  | some name =>
    if slash || name = "." || name = ".." then throw .folder
    let place := step folder name
    if tree.find? place = some .folder then throw .folder
    return place

/-- The tree with an entry in place of what was there. -/
def put (tree : FileTree) (place : Place) (entry : FileEntry) : FileTree :=
  { tree with entries := (place, entry) :: tree.entries }

/-- Writes bytes into the file at a place, as many as there is room for. -/
def fill (tree : FileTree) (room : Option (Nat × FileFault)) (place : Place)
    (content : ByteArray) : Except FileFault Unit × FileTree :=
  if tree.find? place = some .sink then (.ok (), tree)
  else
    match room with
    | none => (.ok (), tree.put place (.file content))
    | some (size, fault) =>
      if content.size ≤ size then (.ok (), tree.put place (.file content))
      else (.error fault, tree.put place (.file (content.extract 0 size)))

/-- The place at which the system lets one write a file of this path. -/
def openPlace (tree : FileTree) (system : System) (path : OsText) : Except FileFault Place :=
  match system.refuses .writing path with
  | some fault => .error fault
  | none => tree.target path

/-- Writes bytes into a file, a new one or in place of what was there. -/
def write (tree : FileTree) (system : System) (path : OsText) (content : ByteArray) :
    Except FileFault Unit × FileTree :=
  match tree.openPlace system path with
  | .error fault => (.error fault, tree)
  | .ok place => tree.fill system.room place content

theorem find?_put (tree : FileTree) {place : Place} (h : place ≠ []) (entry : FileEntry)
    (other : Place) :
    (tree.put place entry).find? other =
      if other = place then some entry else tree.find? other := by
  cases other with
  | nil => simp [find?, h.symm]
  | cons name names =>
    by_cases heq : name :: names = place
    · subst heq
      simp [find?, put]
    · have hne : (name :: names == place) = false := beq_eq_false_iff_ne.2 heq
      simp [find?, put, List.lookup_cons, hne, heq]

/-! ### Building trees -/

/-- The tree with a folder at a place below the working folder, and on all the way to it. -/
def addFolder (tree : FileTree) (names : List OsText) : FileTree :=
  (List.range names.length).foldl
    (fun tree n => tree.put (tree.folder ++ names.take (n + 1)) .folder) tree

/-- The parts of a path that lead away from where they stand: the names, and the ways back. -/
def namesOf (path : OsText) : List OsText :=
  (parts path).filter fun part => !part.isEmpty && part ≠ "."

/-- The names on the way from the working folder to a path on which everything is a folder. -/
def placeOf (path : OsText) : List OsText := (namesOf path).foldl step []

def addFile (tree : FileTree) (path : OsText) (content : ByteArray) : FileTree :=
  (tree.addFolder (placeOf path).dropLast).put (tree.folder ++ placeOf path) (.file content)

end FileTree

end RenderLayout
