import IoWatch.Storage.Fault
import IoWatch.Text.Utf8

/-!
# Paths

A path is a byte string; most paths are UTF-8, none has to be.

## Main definitions

* `Path`, `Path.ofString`: paths, and the path that a text names
* `Path.text?`, `Path.display`: the text of a path that has one, and a text for any path
* `Path.join`: the path of a name below a path
* `Path.names`, `Path.isAbsolute`: the names between the slashes, and where they start
* `Path.LastName`, `Path.lastName?`: the last name of a path, and what stands around it
* `Path.fault?`: why a path is refused before any name is looked up
-/

namespace IoWatch

/-- The name of a file or directory within its directory. -/
abbrev Name := List UInt8

/-- A path, as the bytes that write it. -/
structure Path where
  bytes : List UInt8
  deriving DecidableEq, Repr

namespace Path

/-- The byte of a slash. -/
def slash : UInt8 := 47

/-- The path that a text names. -/
def ofString (s : String) : Path := ⟨Utf8.encode s.toList⟩

/-- The text of a path that is UTF-8. -/
def text? (p : Path) : Option String := (Utf8.decode p.bytes).map String.ofList

/-- A text for any path, with replacement characters where it is not UTF-8. -/
def display (p : Path) : String := String.ofList (Utf8.display p.bytes)

/-- Whether a path starts at the root. -/
def isAbsolute (p : Path) : Bool := p.bytes.head? == some slash

/-- The path of a name below a path; no second slash is put behind one that ends a path, and none
in front of a name that stands alone. -/
def join (p : Path) (name : Name) : Path :=
  if p.bytes = [] ∨ p.bytes.getLast? = some slash then ⟨p.bytes ++ name⟩
  else ⟨p.bytes ++ slash :: name⟩

/-- The pieces of a byte string between the slashes. -/
def pieces : List UInt8 → List Name
  | [] => [[]]
  | b :: s =>
    if b = slash then [] :: pieces s
    else
      match pieces s with
      | [] => [[b]]
      | name :: rest => (b :: name) :: rest

/-- The names between the slashes of a path; two slashes in a row and the ends have empty names. -/
def names (p : Path) : List Name := pieces p.bytes

/-- The name by which a directory stands for itself. -/
def here : Name := [46]

/-- The name that leads to the directory above. -/
def above : Name := [46, 46]

/-- The last name of a path. -/
structure LastName where
  before : List Name
  name : Name
  /-- Whether slashes stand behind it. -/
  isSlashed : Bool
  deriving DecidableEq, Repr

/-- Whether a last name is written as one of a directory. -/
def LastName.isDirectory (l : LastName) : Bool := l.isSlashed || l.name = here || l.name = above

/-- The last name of a path; one of slashes alone has none. -/
def lastName? (p : Path) : Option LastName :=
  match p.names.reverse.dropWhile (· = []) with
  | [] => none
  | name :: before => some ⟨before.reverse, name, p.bytes.getLast? = some slash⟩

/-! ## Limits -/

/-- The greatest length of a name, in bytes. -/
def maxNameLength : Nat := 255

/-- The greatest length of a path, in bytes. -/
def maxLength : Nat := 4095

/-- Why a path is refused as a whole. The empty path leads nowhere. -/
def fault? (p : Path) : Option Fault :=
  if 0 ∈ p.bytes then some .zeroByte
  else if p.bytes = [] then some .notFound
  else if maxLength < p.bytes.length then some .nameTooLong
  else none

end Path

end IoWatch
