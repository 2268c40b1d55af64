import IoWatch.Toml.Layout

/-!
# TOML strings and keys

Strings in double quotes have escapes, strings in single quotes have none; either kind may span
lines when its quotes are tripled. A line break in a string is a line feed, and a line break just
behind the opening quotes is not part of the string. Up to two quotes may stand inside of tripled
ones, also at their end.

## Main definitions

* `Toml.basicBody`, `Toml.literalBody`: strings of one line, behind their opening quote
* `Toml.longBasicBody`, `Toml.longLiteralBody`: strings of many lines
* `Toml.quoted`: any string
* `Toml.keyPath`: a dotted key
-/

namespace IoWatch

namespace Toml

/-- Puts a character in front of what a reading gives. -/
def prepend (c : Char) : Option (List Char × List Char) → Option (List Char × List Char) :=
  Option.map fun (cs, rest) => (c :: cs, rest)

/-- A character that may stand in a string of double quotes. -/
def isBasicChar (c : Char) : Bool := isCommentChar c && c != '"' && c != '\\'

/-- A character that may stand in a string of single quotes. -/
def isLiteralChar (c : Char) : Bool := isCommentChar c && c != '\''

/-- The character that a one-letter escape stands for. -/
def letterEscape? : Char → Option Char
  | 'b' => some '\x08'
  | 't' => some '\t'
  | 'n' => some '\n'
  | 'f' => some '\x0c'
  | 'r' => some '\r'
  | '"' => some '"'
  | '\\' => some '\\'
  | _ => none

/-- How many digits follow the letter of an escape by code point. -/
def codeEscape? : Char → Option Nat
  | 'u' => some 4
  | 'U' => some 8
  | _ => none

/-- The value of a hexadecimal digit. -/
def hexDigit? (c : Char) : Option Nat :=
  if '0' ≤ c ∧ c ≤ '9' then some (c.toNat - '0'.toNat)
  else if 'a' ≤ c ∧ c ≤ 'f' then some (c.toNat - 'a'.toNat + 10)
  else if 'A' ≤ c ∧ c ≤ 'F' then some (c.toNat - 'A'.toNat + 10)
  else none

/-- The character of a code point that is one. -/
def charOf? (code : Nat) : Option Char := if code.isValidChar then some (Char.ofNat code) else none

/-- Where a reading of a string stands. -/
inductive Place where
  /-- Between characters. -/
  | plain
  /-- Behind a backslash. -/
  | escape
  /-- Inside an escape by code point: the digits that are missing, and the code so far. -/
  | code (missing : Nat) (value : Nat)
  /-- Behind a backslash and blanks, with no line break yet. -/
  | foldStart
  /-- Behind a backslash and a line break: blanks and line breaks are skipped. -/
  | fold

/-- A string of double quotes on one line, behind its opening quote. -/
def basicBody : Place → Scan (List Char)
  | .plain, '"' :: rest => some ([], rest)
  | .plain, '\\' :: rest => basicBody .escape rest
  | .plain, c :: rest => if isBasicChar c then prepend c (basicBody .plain rest) else none
  | .escape, c :: rest =>
    match letterEscape? c, codeEscape? c with
    | some d, _ => prepend d (basicBody .plain rest)
    | none, some digits => basicBody (.code digits 0) rest
    | none, none => none
  | .code missing value, c :: rest =>
    match hexDigit? c with
    | none => none
    | some d =>
      if missing = 1 then
        match charOf? (value * 16 + d) with
        | some e => prepend e (basicBody .plain rest)
        | none => none
      else basicBody (.code (missing - 1) (value * 16 + d)) rest
  | _, _ => none

/-- A string of single quotes on one line, behind its opening quote. -/
def literalBody (cs : List Char) : Option (List Char × List Char) :=
  match cs.dropWhile isLiteralChar with
  | '\'' :: rest => some (cs.takeWhile isLiteralChar, rest)
  | _ => none

/-- A string of tripled double quotes, behind the opening ones. -/
def longBasicBody : Place → Scan (List Char)
  | .fold, '\n' :: rest => longBasicBody .fold rest
  | .fold, '\r' :: '\n' :: rest => longBasicBody .fold rest
  | .fold, ' ' :: rest => longBasicBody .fold rest
  | .fold, '\t' :: rest => longBasicBody .fold rest
  | .foldStart, '\n' :: rest => longBasicBody .fold rest
  | .foldStart, '\r' :: '\n' :: rest => longBasicBody .fold rest
  | .foldStart, c :: rest => if isSpace c then longBasicBody .foldStart rest else none
  | .escape, '\n' :: rest => longBasicBody .fold rest
  | .escape, '\r' :: '\n' :: rest => longBasicBody .fold rest
  | .escape, c :: rest =>
    if isSpace c then longBasicBody .foldStart rest
    else
      match letterEscape? c, codeEscape? c with
      | some d, _ => prepend d (longBasicBody .plain rest)
      | none, some digits => longBasicBody (.code digits 0) rest
      | none, none => none
  | .code missing value, c :: rest =>
    match hexDigit? c with
    | none => none
    | some d =>
      if missing = 1 then
        match charOf? (value * 16 + d) with
        | some e => prepend e (longBasicBody .plain rest)
        | none => none
      else longBasicBody (.code (missing - 1) (value * 16 + d)) rest
  | _, '"' :: '"' :: '"' :: '"' :: '"' :: rest => some (['"', '"'], rest)
  | _, '"' :: '"' :: '"' :: '"' :: rest => some (['"'], rest)
  | _, '"' :: '"' :: '"' :: rest => some ([], rest)
  | _, '"' :: rest => prepend '"' (longBasicBody .plain rest)
  | _, '\\' :: rest => longBasicBody .escape rest
  | _, '\n' :: rest => prepend '\n' (longBasicBody .plain rest)
  | _, '\r' :: '\n' :: rest => prepend '\n' (longBasicBody .plain rest)
  | _, c :: rest => if isBasicChar c then prepend c (longBasicBody .plain rest) else none
  | _, [] => none

/-- A string of tripled single quotes, behind the opening ones. -/
def longLiteralBody : Scan (List Char)
  | '\'' :: '\'' :: '\'' :: '\'' :: '\'' :: rest => some (['\'', '\''], rest)
  | '\'' :: '\'' :: '\'' :: '\'' :: rest => some (['\''], rest)
  | '\'' :: '\'' :: '\'' :: rest => some ([], rest)
  | '\'' :: rest => prepend '\'' (longLiteralBody rest)
  | '\n' :: rest => prepend '\n' (longLiteralBody rest)
  | '\r' :: '\n' :: rest => prepend '\n' (longLiteralBody rest)
  | c :: rest => if isLiteralChar c then prepend c (longLiteralBody rest) else none
  | [] => none

/-- A text without the line break at its start, if it has one there. -/
def skipFirstBreak (cs : List Char) : List Char := (lineBreak? cs).getD cs

/-- A string of one line. -/
def shortQuoted : Scan (List Char)
  | '"' :: rest => basicBody .plain rest
  | '\'' :: rest => literalBody rest
  | _ => none

/-- Any string. -/
def quoted : Scan (List Char)
  | '"' :: '"' :: '"' :: rest => longBasicBody .plain (skipFirstBreak rest)
  | '\'' :: '\'' :: '\'' :: rest => longLiteralBody (skipFirstBreak rest)
  | cs => shortQuoted cs

/-- A character of a key without quotes. -/
def isBareKeyChar (c : Char) : Bool := c.isAlphanum || c = '_' || c = '-'

/-- A key without dots: a string of one line, or one or more characters that need no quotes. -/
def simpleKey (cs : List Char) : Option (List Char × List Char) :=
  match cs with
  | '"' :: _ => shortQuoted cs
  | '\'' :: _ => shortQuoted cs
  | _ =>
    match cs.takeWhile isBareKeyChar with
    | [] => none
    | key => some (key, cs.dropWhile isBareKeyChar)

/-- How deep values and keys may be nested. -/
def depthLimit : Nat := 80

/-- The keys of a dotted key, with blanks around them. At most `fuel` keys are read. -/
def keyPathFrom : (fuel : Nat) → Scan (List String)
  | 0, _ => none
  | fuel + 1, cs => do
    let (key, rest) ← simpleKey (skipSpaces cs)
    match skipSpaces rest with
    | '.' :: rest =>
      let (path, rest) ← keyPathFrom fuel rest
      return (String.ofList key :: path, rest)
    | rest => return ([String.ofList key], rest)

/-- The keys of a dotted key, with blanks around them; they stay below the depth limit. -/
def keyPath : Scan (List String) := keyPathFrom (depthLimit - 1)

end Toml

end IoWatch
