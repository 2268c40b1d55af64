/-!
# Patterns

A pattern is a regular expression that describes texts. What is kept of one is its structure, from
which is read whether the pattern can be searched for, and not what it matches.

## Main definitions

* `Pattern.Literal`, `Pattern.Anchor`, `Pattern.Shorthand`, `Pattern.Atom`: the parts without parts
* `Pattern.CharSet`: sets of characters in brackets
* `Pattern.Switch`, `Pattern.Change`: the switches that a group sets
* `Pattern`: patterns
* `Pattern.depth`: how deep a pattern is nested
-/

namespace IoWatch

namespace Pattern

/-! ## Atoms -/

/-- A character that stands for itself. -/
structure Literal where
  char : Char
  /-- Whether it is written as a byte, in two hexadecimal digits. -/
  isByte : Bool
  deriving DecidableEq, Repr

/-- A place in a text. -/
inductive Anchor where
  | lineStart
  | lineEnd
  | textStart
  | textEnd
  | wordEdge
  | noWordEdge
  | wordStart
  | wordEnd
  deriving DecidableEq, Repr

/-- Whether a place depends on which characters make up words. -/
def Anchor.isOfWords : Anchor → Bool
  | lineStart | lineEnd | textStart | textEnd => false
  | wordEdge | noWordEdge | wordStart | wordEnd => true

/-- A set of characters that one letter names. -/
inductive Shorthand where
  | digits
  | blanks
  | wordChars
  deriving DecidableEq, Repr

/-- A part of a pattern that has no parts. -/
inductive Atom where
  /-- A character. -/
  | literal (l : Literal)
  | dot
  /-- A place. -/
  | anchor (a : Anchor)
  /-- The characters of a shorthand, or all others. -/
  | shorthand (kind : Shorthand) (isNegated : Bool)
  deriving DecidableEq, Repr

/-! ## Sets -/

/-- How two sets are combined. -/
inductive SetOperation where
  | intersection
  | difference
  | symmetricDifference
  deriving DecidableEq, Repr

/-- A set of characters. -/
inductive CharSet where
  /-- One character. -/
  | literal (l : Literal)
  | range (first last : Literal)
  /-- The characters of a shorthand, or all others. -/
  | shorthand (kind : Shorthand) (isNegated : Bool)
  /-- The ASCII characters of a class that has a name, or all others. -/
  | named (name : String) (isNegated : Bool)
  /-- A set in brackets, or all other characters. -/
  | bracketed (isNegated : Bool) (body : CharSet)
  | union (parts : List CharSet)
  | combined (operation : SetOperation) (left right : CharSet)

/-! ## Switches -/

/-- What the reading of a pattern and its meaning depend on. -/
inductive Switch where
  | ignoreCase
  | multiLine
  /-- Whether the dot matches the end of a line. -/
  | dotMatchesAll
  /-- Whether repetitions are short unless marked. -/
  | swapGreed
  /-- Whether the pattern describes characters, and not bytes. -/
  | unicode
  /-- Whether a carriage return ends a line too. -/
  | carriageReturn
  /-- Whether blanks and comments mean nothing. -/
  | spaced
  deriving DecidableEq, Repr

/-- The switches that are turned on and off together. -/
structure Change where
  /-- What is turned on. -/
  on : List Switch := []
  /-- What is turned off. -/
  off : List Switch := []
  deriving DecidableEq, Repr

namespace Change

/-- A switch after a change. -/
def apply (c : Change) (s : Switch) (before : Bool) : Bool :=
  if s ∈ c.on then true else if s ∈ c.off then false else before

/-- Whether a change names a switch. -/
def names (c : Change) (s : Switch) : Bool := s ∈ c.on || s ∈ c.off

/-- Whether a change names no switch. -/
def isEmpty (c : Change) : Bool := c.on.isEmpty && c.off.isEmpty

end Change

end Pattern

/-! ## Patterns -/

/-- A pattern. -/
inductive Pattern where
  /-- A part without parts. -/
  | atom (a : Pattern.Atom)
  /-- A character of a set, or one that is not in it. -/
  | set (isNegated : Bool) (body : Pattern.CharSet)
  /-- Switches that are set up to the end of the group. -/
  | change (c : Pattern.Change)
  /-- A repetition. -/
  | repeated (body : Pattern)
  /-- A group, and the switches that are set in it. -/
  | group (c : Pattern.Change) (body : Pattern)
  /-- Patterns behind each other. -/
  | sequence (parts : List Pattern)
  /-- Patterns to choose from. -/
  | choice (branches : List Pattern)

namespace Pattern

/-! ## Depth -/

mutual

/-- How deep a set is nested. A union counts if it has several parts. -/
def CharSet.depth : CharSet → Nat
  | .literal _ | .range .. | .shorthand .. | .named .. => 0
  | .bracketed _ body => body.depth + 1
  | .union parts => CharSet.depthAll parts + if 2 ≤ parts.length then 1 else 0
  | .combined _ left right => max left.depth right.depth + 1

/-- The greatest depth of some sets. -/
def CharSet.depthAll : List CharSet → Nat
  | [] => 0
  | part :: parts => max part.depth (CharSet.depthAll parts)

end

mutual

/-- How deep a pattern is nested. A sequence or a choice counts if it has several parts. -/
def depth : Pattern → Nat
  | .atom _ | .change _ => 0
  | .set _ body => body.depth + 1
  | .repeated body | .group _ body => body.depth + 1
  | .sequence parts => depthAll parts + if 2 ≤ parts.length then 1 else 0
  | .choice branches => depthAll branches + if 2 ≤ branches.length then 1 else 0

/-- The greatest depth of some patterns. -/
def depthAll : List Pattern → Nat
  | [] => 0
  | part :: parts => max part.depth (depthAll parts)

end

end Pattern

end IoWatch
