/-!
# TOML values and tables

A document is a table of values. While it is read, a table remembers how it came about, since that
decides what may still be added to it: a table named by a header takes no dotted keys from outside,
one made by dotted keys takes no header, and one that only leads to a header's table may get a
header of its own, once.

## Main definitions

* `Toml.Value`, `Toml.Table`, `Toml.Origin`: values, tables, and how a table came about
* `Toml.insertDotted`: a table after a value is put under a dotted key
* `Toml.descend`: a table after a change of the table that header names lead to
* `Toml.openTable`, `Toml.appendTable`: a table after a header with one or two brackets
-/

namespace IoWatch

namespace Toml

/-- How a table came about. -/
inductive Origin where
  | header
  /-- It only leads to a table that a header names. -/
  | implied
  | dotted
  deriving DecidableEq, Repr

/-- A value of a document. -/
inductive Value where
  | string (s : String)
  | integer (i : Int)
  /-- A floating-point number; which one does not matter here. -/
  | float
  | boolean (b : Bool)
  /-- A date, a time of day, or both. -/
  | dateTime
  /-- An array written in brackets. -/
  | array (items : List Value)
  /-- A table written in braces; nothing is ever added to it. -/
  | inlineTable (entries : List (String × Value))
  /-- A table that headers or dotted keys make. -/
  | table (origin : Origin) (entries : List (String × Value))
  /-- The tables that headers with two brackets make, oldest first. -/
  | tables (elements : List (List (String × Value)))

/-- The values of a table by key, in the order of their first mention. -/
abbrev Table := List (String × Value)

/-- A table with a value under a key, in place of the value that was there. -/
def put (t : Table) (key : String) (v : Value) : Table :=
  match t with
  | [] => [(key, v)]
  | (k, w) :: rest => if k = key then (key, v) :: rest else (k, w) :: put rest key v

/-- A table after a value is put under a dotted key, given as the keys that lead to the last one.
The key must be new; the tables on the way must be implied or made by dotted keys, and the last of
them made by dotted keys. -/
def insertDotted (t : Table) : List String → String → Value → Option Table
  | [], key, v => if (t.lookup key).isSome then none else some (put t key v)
  | k :: path, key, v =>
    match t.lookup k with
    | none => do
      let inner ← insertDotted [] path key v
      return put t k (.table .dotted inner)
    | some (.table origin entries) =>
      if origin = .header ∨ (path = [] ∧ origin ≠ .dotted) then none
      else do
        let inner ← insertDotted entries path key v
        return put t k (.table origin inner)
    | some (.tables elements) =>
      match path, elements.getLast? with
      | [], _ => none
      | _, none => none
      | _ :: _, some last => do
        let inner ← insertDotted last path key v
        return put t k (.tables (elements.dropLast ++ [inner]))
    | some _ => none

/-- A table after a change of the table that header names lead to. A name of nothing yet makes an
implied table, and a name of several tables leads to the last of them. -/
def descend (t : Table) (change : Table → Option Table) : List String → Option Table
  | [] => change t
  | k :: path =>
    match t.lookup k with
    | none => do
      let inner ← descend [] change path
      return put t k (.table .implied inner)
    | some (.table origin entries) => do
      let inner ← descend entries change path
      return put t k (.table origin inner)
    | some (.tables elements) =>
      match elements.getLast? with
      | none => none
      | some last => do
        let inner ← descend last change path
        return put t k (.tables (elements.dropLast ++ [inner]))
    | some _ => none

/-- A table after a header that names the table under a key. Only an implied table may be there
already. -/
def nameTable (key : String) (t : Table) : Option Table :=
  match t.lookup key with
  | none => some (put t key (.table .header []))
  | some (.table .implied entries) => some (put t key (.table .header entries))
  | some _ => none

/-- A table after a header that adds a table under a key. Only tables of that kind may be there
already. -/
def addTable (key : String) (t : Table) : Option Table :=
  match t.lookup key with
  | none => some (put t key (.tables [[]]))
  | some (.tables elements) => some (put t key (.tables (elements ++ [[]])))
  | some _ => none

/-- A document after a header with one bracket. -/
def openTable (t : Table) (path : List String) : Option Table :=
  match path.getLast? with
  | none => none
  | some key => descend t (nameTable key) path.dropLast

/-- A document after a header with two brackets. -/
def appendTable (t : Table) (path : List String) : Option Table :=
  match path.getLast? with
  | none => none
  | some key => descend t (addTable key) path.dropLast

end Toml

end IoWatch
