import IoWatch.Pattern.Reading

/-!
# Patterns that can be searched for

Texts are searched for patterns without tables of letter cases, words, or other properties of
characters. A pattern is supported if it needs none of them, cannot match part of a character, and
is not nested too deep. What a pattern needs depends on the switches that are set where it stands:
as long as it describes characters, shorthands and edges of words need a table, and so does every
character whose case is ignored. Where it describes bytes, the dot, the complement of a set and
every character behind ASCII in a set would match parts of characters.

## Main definitions

* `Pattern.Mode`: the switches that count
* `Pattern.supportedMode?`: whether a pattern is supported, and the switches behind it
* `Pattern.isSupported`: whether a text is a pattern that is supported
-/

namespace IoWatch

namespace Pattern

/-- The switches that decide what a pattern needs. -/
structure Mode where
  ignoreCase : Bool := false
  /-- Whether the pattern describes characters, and not bytes. -/
  unicode : Bool := true
  deriving DecidableEq, Repr

namespace Mode

/-- The switches after a change. -/
def apply (m : Mode) (c : Change) : Mode :=
  ⟨c.apply .ignoreCase m.ignoreCase, c.apply .unicode m.unicode⟩

/-- Whether characters can be compared: ignoring the case of all characters needs a table. -/
def canCompare (m : Mode) : Bool := !(m.unicode && m.ignoreCase)

end Mode

/-- Whether a character is written as a byte that is no character. -/
def Literal.isBareByte (l : Literal) : Bool := l.isByte && 128 ≤ l.char.toNat

/-- Whether an atom is supported. -/
def Atom.isSupported (m : Mode) : Atom → Bool
  | .literal l => m.canCompare && (m.unicode || !l.isBareByte)
  | .dot => m.unicode
  | .anchor a => !(m.unicode && a.isOfWords)
  | .shorthand _ isNegated => !m.unicode && !isNegated

/-- Whether a character of a set is supported. -/
def Literal.isSupportedInSet (m : Mode) (l : Literal) : Bool :=
  if m.unicode then m.canCompare else l.char.toNat < 128

mutual

/-- Whether a set is supported. -/
def CharSet.isSupported (m : Mode) : CharSet → Bool
  | .literal l => l.isSupportedInSet m
  | .range first last => first.isSupportedInSet m && last.isSupportedInSet m
  | .shorthand _ isNegated => !m.unicode && !isNegated
  | .named _ isNegated => if m.unicode then m.canCompare else !isNegated
  | .bracketed isNegated body => (m.unicode || !isNegated) && body.isSupported m
  | .union parts => CharSet.allSupported m parts
  | .combined _ left right => left.isSupported m && right.isSupported m

/-- Whether all of some sets are supported. -/
def CharSet.allSupported (m : Mode) : List CharSet → Bool
  | [] => true
  | part :: parts => part.isSupported m && CharSet.allSupported m parts

end

mutual

/-- The switches behind a pattern, if it is supported. -/
def supportedMode? (m : Mode) : Pattern → Option Mode
  | .atom a => if a.isSupported m then some m else none
  | .set isNegated body =>
    if (CharSet.bracketed isNegated body).isSupported m then some m else none
  | .change c => some (m.apply c)
  | .repeated body => supportedMode? m body
  | .group c body => (supportedMode? (m.apply c) body).map fun _ => m
  | .sequence parts => supportedModes? m parts
  | .choice branches => supportedModes? m branches

/-- The switches behind patterns that stand behind each other, if all of them are supported. -/
def supportedModes? (m : Mode) : List Pattern → Option Mode
  | [] => some m
  | p :: ps => (supportedMode? m p).bind fun m => supportedModes? m ps

end

/-- The greatest depth of a pattern. -/
def maxDepth : Nat := 250

/-- Whether a text is a pattern that is supported. -/
def isSupported (s : List Char) : Bool :=
  match parse s with
  | none => false
  | some p => p.depth ≤ maxDepth && (supportedMode? {} p).isSome

end Pattern

end IoWatch
