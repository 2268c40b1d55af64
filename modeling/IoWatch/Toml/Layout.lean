/-!
# TOML layout

Blanks, line ends and comments. A comment runs to the end of its line and has no control character
in it but the tab.

## Main definitions

* `Toml.Scan`: a reading of the start of a text
* `Toml.skipSpaces`, `Toml.lineBreak?`, `Toml.lineEnd?`: blanks, a line break, the end of a line
* `Toml.skipLayout`: everything that may stand between the items of an array
-/

namespace IoWatch

namespace Toml

/-- A reading of the start of a text: what it gives, and what follows it. -/
abbrev Scan (α : Type) := List Char → Option (α × List Char)

/-- A space or a tab. -/
def isSpace (c : Char) : Bool := c = ' ' || c = '\t'

/-- A character that may stand in a comment. -/
def isCommentChar (c : Char) : Bool := c = '\t' || (0x20 ≤ c.toNat && c.toNat != 0x7f)

/-- A text without the spaces and tabs at its start. -/
def skipSpaces (cs : List Char) : List Char := cs.dropWhile isSpace

/-- What follows a line break. -/
def lineBreak? : List Char → Option (List Char)
  | '\n' :: rest => some rest
  | '\r' :: '\n' :: rest => some rest
  | _ => none

/-- What follows a comment, if the text starts with one. -/
def skipComment : List Char → List Char
  | '#' :: rest => rest.dropWhile isCommentChar
  | rest => rest

/-- What follows the end of a line, where blanks and a comment may stand in front of it. -/
def lineEnd? (cs : List Char) : Option (List Char) :=
  match skipComment (skipSpaces cs) with
  | [] => some []
  | rest => lineBreak? rest

/-- What follows the blanks, line breaks and comments at the start of a text; inside a comment, only
its line break ends it. -/
def skipLayoutFrom : (inComment : Bool) → List Char → Option (List Char)
  | _, '\n' :: rest => skipLayoutFrom false rest
  | _, '\r' :: '\n' :: rest => skipLayoutFrom false rest
  | true, [] => none
  | true, c :: rest => if isCommentChar c then skipLayoutFrom true rest else none
  | false, [] => some []
  | false, c :: rest =>
    if isSpace c then skipLayoutFrom false rest
    else if c = '#' then skipLayoutFrom true rest
    else some (c :: rest)

/-- What follows the blanks, line breaks and comments at the start of a text. -/
def skipLayout (cs : List Char) : Option (List Char) := skipLayoutFrom false cs

end Toml

end IoWatch
