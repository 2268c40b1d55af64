import IoWatch.LogFilter.FieldMatch
import IoWatch.LogFilter.Verbosity
import IoWatch.Text.Alphanumeric
import IoWatch.Text.Blank

/-!
# Directives of a log filter

A directive is the name of what logs, a span in brackets with fields in braces, and a verbosity
behind an equals sign; all parts but one may be left out, and a lone word is a verbosity if it is
one.

## Main definitions

* `Directive`, `Directive.text`: directives and their text
* `Directive.parse`: the reading of a directive, character by character
* `Directive.specificity`, `Directive.insert`: their order, and a list that is kept in it
-/

namespace IoWatch

/-- A directive of a filter. -/
structure Directive where
  /-- The name of what logs. -/
  target : Option (List UInt8)
  /-- The span inside which it logs. -/
  span : Option (List UInt8)
  /-- The fields of that span. -/
  fields : List FieldMatch
  verbosity : Verbosity
  deriving DecidableEq

namespace Directive

/-! ## Order -/

/-- The order of two directives by how specific they are: the length of the target, whether there is
a span, the number of fields; then by their texts. -/
def specificity (a b : Directive) : Ordering :=
  (compareOption compare (a.target.map List.length) (b.target.map List.length)).then
    ((compare a.span.isSome.toNat b.span.isSome.toNat).then
      ((compare a.fields.length b.fields.length).then
        ((compareOption compareBytes a.target b.target).then
          ((compareOption compareBytes a.span b.span).then
            (compareList FieldMatch.compare a.fields b.fields)))))

/-- Puts a directive into a list whose more specific ones come first, in place of the one for the
same thing, if there is one. -/
def insert (d : Directive) : List Directive → List Directive
  | [] => [d]
  | e :: es =>
    match specificity d e with
    | .gt => d :: e :: es
    | .eq => d :: es
    | .lt => e :: insert d es

/-! ## Text -/

/-- The text of bytes. -/
def textOf (bytes : List UInt8) : List Char := Utf8.display bytes

/-- Texts with commas between them. -/
def joined : List (List Char) → List Char
  | [] => []
  | [t] => t
  | t :: ts => t ++ ',' :: joined ts

/-- The text of the span and its fields, in brackets. -/
def spanText (d : Directive) : List Char :=
  if d.span = none ∧ d.fields = [] then []
  else
    let fields := joined (d.fields.map FieldMatch.text)
    '[' :: ((d.span.map textOf).getD [] ++
      (if d.fields = [] then [] else '\x7b' :: (fields ++ ['\x7d'])) ++ [']'])

/-- The text of a directive. -/
def text (d : Directive) : List Char :=
  let subject := (d.target.map textOf).getD [] ++ spanText d
  subject ++ (if d.target = none ∧ subject = [] then [] else ['=']) ++ d.verbosity.name.toList

/-! ## Reading -/

/-- Where the reading of a directive stands; the numbers are where the part began. -/
inductive Mode where
  | start
  /-- In a target, or a lone verbosity. -/
  | name (began : Nat)
  | span (began : Nat)
  | field (began : Nat)
  | fields
  /-- Behind the brackets. -/
  | closed
  | verbosity (began : Nat)

/-- A directive that has no parts yet. -/
def empty : Directive := ⟨none, none, [], .trace⟩

/-- A part of a text, by the places where it begins and ends. -/
def cut (bytes : List UInt8) (began stop : Nat) : List UInt8 := (bytes.take stop).drop began

/-- A directive and the place of its reading after one character, which stands at `i`. -/
def readChar (bytes : List UInt8) (d : Directive) (i : Nat) (c : Char) :
    Mode → Option (Directive × Mode)
  | .start =>
    if c = '[' then some (d, .span (i + 1))
    else if c = '-' ∨ c = ':' ∨ c = '_' ∨ isAlphanumeric c then some (d, .name i)
    else none
  | .name began =>
    if c = '=' then some ({ d with target := some (cut bytes began i) }, .verbosity (i + 1))
    else if c = '[' then some ({ d with target := some (cut bytes began i) }, .span (i + 1))
    else some (d, .name began)
  | .span began =>
    if c = ']' then some ({ d with span := some (cut bytes began i) }, .closed)
    else if c = '{' then
      let name := cut bytes began i
      some ({ d with span := if name = [] then none else some name }, .field (i + 1))
    else some (d, .span began)
  | .field began =>
    if c = '}' then
      let field := cut bytes began i
      if field = [] then none
      else
        (FieldMatch.ofBytes? field).map fun field =>
          ({ d with fields := d.fields ++ [field] }, .fields)
    else some (d, .field began)
  | .fields => if c = ']' then some (d, .closed) else none
  | .closed => if c = '=' then some (d, .verbosity (i + 1)) else none
  | .verbosity began => some (d, .verbosity began)

/-- A directive and the place of its reading after characters, the first of which stands at `i`. -/
def readChars (bytes : List UInt8) : Directive → Nat → Mode → List Char → Option (Directive × Mode)
  | d, _, mode, [] => some (d, mode)
  | d, i, mode, c :: cs => do
    let (d, mode) ← readChar bytes d i c mode
    readChars bytes d (i + c.utf8Size) mode cs

/-- A directive at the end of its text. A lone word is a verbosity if it is one, and else a target
of which everything is let through. -/
def finish (bytes : List UInt8) (d : Directive) : Mode → Option Directive
  | .name began =>
    let word := bytes.drop began
    match Verbosity.ofText? (textOf word) with
    | some v => some { d with verbosity := v }
    | none => some { d with target := some word }
  | .verbosity began =>
    match bytes.drop began with
    | [] => some { d with verbosity := .trace }
    | word => (Verbosity.ofText? (textOf word)).map fun v => { d with verbosity := v }
  | .closed => some d
  | _ => none

/-- The directive of a text. Blanks at its ends are skipped, but places are counted from the first
character behind them and looked up in the whole text, so blanks in front shift every part. -/
def parse (piece : List Char) : Option Directive := do
  let bytes := Utf8.encode piece
  let (d, mode) ← readChars bytes empty 0 .start (trimmed piece)
  finish bytes d mode

/-- Whether a directive depends on spans. -/
def isDynamic (d : Directive) : Bool := d.span.isSome || !d.fields.isEmpty

/-- Whether a directive can be decided without the values of a span. -/
def isStatic (d : Directive) : Bool := d.span.isNone && d.fields.all (·.value.isNone)

end Directive

end IoWatch
