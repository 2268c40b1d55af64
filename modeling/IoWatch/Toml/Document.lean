import IoWatch.Toml.Number
import IoWatch.Toml.Quoted
import IoWatch.Toml.Value

/-!
# TOML documents

A document is a list of lines: blank ones and comments, headers, and keys with values. A header
names the table that the keys behind it go into.

## Main definitions

* `Toml.value`: a value, up to a depth
* `Toml.Draft`: the document read so far and the table that keys go into
* `Toml.Draft.line`: the draft after one line
* `Toml.parse`: the table of a document
-/

namespace IoWatch

namespace Toml

/-- The items of an array behind its opening bracket, each with its comma; the last one needs none.
At most `fuel` items are read. -/
def items (element : Scan Value) : (fuel : Nat) → Scan (List Value)
  | 0, _ => none
  | fuel + 1, cs => do
    let cs ← skipLayout cs
    match cs with
    | ']' :: rest => return ([], rest)
    | _ =>
      let (v, rest) ← element cs
      let rest ← skipLayout rest
      match rest with
      | ',' :: rest =>
        let (vs, rest) ← items element fuel rest
        return (v :: vs, rest)
      | ']' :: rest => return ([v], rest)
      | _ => none

/-- A dotted key and its value. -/
def keyValue (element : Scan Value) (cs : List Char) :
    Option ((List String × Value) × List Char) := do
  let (path, rest) ← keyPath cs
  let rest ← behind '=' rest
  let (v, rest) ← element (skipSpaces rest)
  return ((path, v), rest)

/-- A table after a value is put under a dotted key. -/
def insertAt (t : Table) (path : List String) (v : Value) : Option Table :=
  match path.getLast? with
  | none => none
  | some key => insertDotted t path.dropLast key v

/-- The entries of a table in braces behind an entry's start, put into those read so far. At most
`fuel` entries are read. -/
def members (element : Scan Value) : (fuel : Nat) → Table → Scan Table
  | 0, _, _ => none
  | fuel + 1, t, cs => do
    let ((path, v), rest) ← keyValue element cs
    let t ← insertAt t path v
    match skipSpaces rest with
    | ',' :: rest => members element fuel t rest
    | '}' :: rest => return (t, rest)
    | _ => none

/-- A table in braces, behind the opening one. -/
def inlineTable (element : Scan Value) (cs : List Char) : Option (Table × List Char) :=
  match skipSpaces cs with
  | '}' :: rest => some ([], rest)
  | _ => members element cs.length [] cs

/-- A number, a date or a time of day. -/
def numeric (cs : List Char) : Option (Value × List Char) :=
  ((dateTime cs).map fun (_, rest) => (.dateTime, rest)) <|>
    ((float cs).map fun (_, rest) => (.float, rest)) <|>
    ((integer cs).map fun (i, rest) => (.integer i, rest))

/-- A value; arrays and tables in braces are nested fewer than `depth` deep. -/
def value : (depth : Nat) → Scan Value
  | 0, _ => none
  | depth + 1, cs =>
    match cs with
    | '[' :: rest =>
      if depth = 0 then none
      else (items (value depth) (rest.length + 1) rest).map fun (vs, rest) => (.array vs, rest)
    | '{' :: rest =>
      if depth = 0 then none
      else (inlineTable (value depth) rest).map fun (t, rest) => (.inlineTable t, rest)
    | '"' :: _ | '\'' :: _ =>
      (quoted cs).map fun (s, rest) => (.string (String.ofList s), rest)
    | 't' :: 'r' :: 'u' :: 'e' :: rest => some (.boolean true, rest)
    | 'f' :: 'a' :: 'l' :: 's' :: 'e' :: rest => some (.boolean false, rest)
    | _ => numeric cs

/-- The document read so far, and the names of the header that keys belong to. -/
structure Draft where
  root : Table
  header : List String

namespace Draft

/-- A draft after a header, and what follows its line. -/
def headerLine (d : Draft) (cs : List Char) : Option (Draft × List Char) :=
  match cs with
  | '[' :: cs => do
    let (path, rest) ← keyPath cs
    let rest ← behind ']' rest
    let rest ← behind ']' rest
    let rest ← lineEnd? rest
    let root ← appendTable d.root path
    return (⟨root, path⟩, rest)
  | _ => do
    let (path, rest) ← keyPath cs
    let rest ← behind ']' rest
    let rest ← lineEnd? rest
    let root ← openTable d.root path
    return (⟨root, path⟩, rest)

/-- A draft after a key and its value, and what follows their line. -/
def keyLine (d : Draft) (cs : List Char) : Option (Draft × List Char) := do
  let ((path, v), rest) ← keyValue (value depthLimit) cs
  let rest ← lineEnd? rest
  let root ← descend d.root (insertAt · path v) d.header
  return (⟨root, d.header⟩, rest)

/-- A draft after one line that is not empty, and what follows it. -/
def line (d : Draft) (cs : List Char) : Option (Draft × List Char) :=
  match skipSpaces cs with
  | [] => some (d, [])
  | '#' :: rest => (lineEnd? ('#' :: rest)).map (d, ·)
  | '\n' :: rest => some (d, rest)
  | '\r' :: rest => (lineBreak? ('\r' :: rest)).map (d, ·)
  | '[' :: rest => d.headerLine rest
  | cs => d.keyLine cs

/-- A draft after the lines of a text; at most `fuel` lines are read. -/
def lines : (fuel : Nat) → Draft → List Char → Option Draft
  | _, d, [] => some d
  | 0, _, _ => none
  | fuel + 1, d, cs => do
    let (d, rest) ← d.line cs
    lines fuel d rest

end Draft

/-- A text without the byte order mark at its start. -/
def skipMark : List Char → List Char
  | '\ufeff' :: rest => rest
  | rest => rest

/-- The table of a document; every line takes at least one character. -/
def parse (text : List Char) : Option Table :=
  (Draft.lines text.length ⟨[], []⟩ (skipMark text)).map (·.root)

end Toml

end IoWatch
