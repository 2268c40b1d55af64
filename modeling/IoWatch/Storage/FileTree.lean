import IoWatch.Storage.Fault
import IoWatch.Storage.Path

/-!
# File trees

The files that the program can see, held as data: every file with the names that lead to it from
the root, and the directories that hold nothing. A directory that leads to a file exists with it.

## Main definitions

* `FileTree`, `FileTree.entry?`: the files, and what stands at a location
* `FileTree.walk`, `FileTree.resolve`: the location that a path leads to, name by name
* `FileTree.read`, `FileTree.readText`: the content of a file
* `FileTree.isDirectory`: whether a path leads to a directory
* `FileTree.createIn`, `FileTree.create`: the tree after a file is opened for writing
-/

namespace IoWatch

/-- The names that lead from the root to a file or directory. -/
abbrev Location := List Name

/-- What stands at a location. -/
inductive Entry where
  | file (content : List UInt8)
  | directory
  deriving DecidableEq, Repr

/-- The files that can be seen, and where relative paths start. -/
structure FileTree where
  /-- Files, and directories that need not hold one. -/
  entries : List (Location × Entry)
  /-- Where relative paths start. -/
  workingDirectory : Location

namespace FileTree

/-- What stands at a location. The working directory and every directory that leads to it or to an
entry exist. -/
def entry? (t : FileTree) (loc : Location) : Option Entry :=
  match t.entries.find? (·.1 == loc) with
  | some (_, e) => some e
  | none =>
    if loc.isPrefixOf t.workingDirectory || t.entries.any (loc.isPrefixOf ·.1) then some .directory
    else none

/-- One step from a location that exists: an empty name and one point stay, two points go up. -/
def step (t : FileTree) (loc : Location) (name : Name) : Except Fault Location :=
  if t.entry? loc ≠ some .directory then .error .notDirectory
  else if name = [] ∨ name = Path.here then .ok loc
  else if name = Path.above then .ok loc.dropLast
  else if Path.maxNameLength < name.length then .error .nameTooLong
  else if (t.entry? (loc ++ [name])).isSome then .ok (loc ++ [name])
  else .error .notFound

/-- The location that names lead to. -/
def walk (t : FileTree) (start : Location) (names : List Name) : Except Fault Location :=
  names.foldlM t.step start

/-- Where a path starts. -/
def startOf (t : FileTree) (p : Path) : Location :=
  if p.isAbsolute then [] else t.workingDirectory

/-- The location that a path leads to. -/
def resolve (t : FileTree) (p : Path) : Except Fault Location :=
  match p.fault? with
  | some fault => .error fault
  | none => t.walk (t.startOf p) p.names

/-- The content of the file that a path leads to. -/
def read (t : FileTree) (p : Path) : Except Fault (List UInt8) := do
  let loc ← t.resolve p
  match t.entry? loc with
  | some (.file content) => .ok content
  | some .directory => .error .isDirectory
  | none => .error .notFound

/-- The text of the file that a path leads to. -/
def readText (t : FileTree) (p : Path) : Except Fault (List Char) := do
  let content ← t.read p
  match Utf8.decode content with
  | some cs => .ok cs
  | none => .error .illFormedText

/-- Whether a path leads to a directory. -/
def isDirectory (t : FileTree) (p : Path) : Bool :=
  match t.resolve p with
  | .ok loc => t.entry? loc == some .directory
  | .error _ => false

/-- The tree after a file is opened for writing in a directory: one that is there is emptied, and
else a new one is put there. -/
def createIn (t : FileTree) (directory : Location) (name : Name) : Except Fault FileTree :=
  if Path.maxNameLength < name.length then .error .nameTooLong
  else if t.entry? (directory ++ [name]) = some .directory then .error .isDirectory
  else .ok { t with entries := (directory ++ [name], .file []) :: t.entries }

/-- The tree after the file of a path is opened for writing from its start. Only what stands in
front of the last name has to exist; that name must not be written as one of a directory. -/
def create (t : FileTree) (p : Path) : Except Fault FileTree :=
  match p.fault?, p.lastName? with
  | some fault, _ => .error fault
  | none, none => .error .isDirectory
  | none, some last => do
    let directory ← t.walk (t.startOf p) last.before
    if t.entry? directory ≠ some .directory then .error .notDirectory
    else if last.isDirectory then .error .isDirectory
    else t.createIn directory last.name

end FileTree

end IoWatch
