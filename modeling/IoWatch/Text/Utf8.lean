/-!
# UTF-8 text

Bytes are read as UTF-8 one at a time. What is read is a character for each well-formed sequence
and a gap for each longest start of a sequence that is not completed. Text without gaps is well
formed; for display each gap becomes the replacement character.

## Main definitions

* `Utf8.Pending`, `Utf8.Opening`: a sequence that still needs bytes, and what a first byte opens
* `Utf8.scan bytes`: the characters and gaps of a byte string
* `Utf8.decode bytes`: the characters of well-formed text
* `Utf8.display bytes`: the characters, with replacement characters in the gaps
* `Utf8.encode cs`: the bytes of a text
-/

namespace IoWatch

namespace Utf8

/-- A sequence that still needs bytes: how many, the range of the next one, and the bits so far. -/
structure Pending where
  missing : Nat
  low : Nat
  high : Nat
  /-- The bits of the code point read so far. -/
  bits : Nat
  deriving DecidableEq

/-- What the first byte of a sequence opens. -/
inductive Opening where
  /-- A sequence of one byte. -/
  | char (c : Char)
  /-- A longer sequence. -/
  | pending (p : Pending)
  /-- Nothing: no sequence starts with the byte. -/
  | stray

/-- What a byte opens. The range of the second byte keeps out overlong sequences, surrogates and
code points that are too large. -/
def opening (b : Nat) : Opening :=
  if b < 0x80 then .char (Char.ofNat b)
  else if b < 0xc2 then .stray
  else if b < 0xe0 then .pending ⟨1, 0x80, 0xbf, b % 32⟩
  else if b = 0xe0 then .pending ⟨2, 0xa0, 0xbf, b % 16⟩
  else if b = 0xed then .pending ⟨2, 0x80, 0x9f, b % 16⟩
  else if b < 0xf0 then .pending ⟨2, 0x80, 0xbf, b % 16⟩
  else if b = 0xf0 then .pending ⟨3, 0x90, 0xbf, b % 8⟩
  else if b < 0xf4 then .pending ⟨3, 0x80, 0xbf, b % 8⟩
  else if b = 0xf4 then .pending ⟨3, 0x80, 0x8f, b % 8⟩
  else .stray

/-- The sequence after one more byte that it allows. -/
def Pending.next (p : Pending) (b : Nat) : Pending :=
  ⟨p.missing - 1, 0x80, 0xbf, p.bits * 64 + b % 64⟩

/-- The characters and gaps of what follows, behind the sequence that is open. -/
def scanFrom : Option Pending → List UInt8 → List (Option Char)
  | none, [] => []
  | some _, [] => [none]
  | none, b :: s =>
    match opening b.toNat with
    | .char c => some c :: scanFrom none s
    | .pending p => scanFrom (some p) s
    | .stray => none :: scanFrom none s
  | some p, b :: s =>
    if p.low ≤ b.toNat ∧ b.toNat ≤ p.high then
      if p.missing = 1 then some (Char.ofNat (p.next b.toNat).bits) :: scanFrom none s
      else scanFrom (some (p.next b.toNat)) s
    else
      match opening b.toNat with
      | .char c => none :: some c :: scanFrom none s
      | .pending q => none :: scanFrom (some q) s
      | .stray => none :: none :: scanFrom none s

/-- The characters of a byte string; `none` stands for the longest start of a well-formed sequence
that is not completed, or for a byte that starts none. -/
def scan (bytes : List UInt8) : List (Option Char) := scanFrom none bytes

/-- The characters of a byte string that is well-formed UTF-8. -/
def decode (bytes : List UInt8) : Option (List Char) := (scan bytes).mapM id

/-- The characters of a byte string for display: the replacement character fills each gap. -/
def display (bytes : List UInt8) : List Char := (scan bytes).map (·.getD '\ufffd')

/-- The bytes of a text. -/
def encode (cs : List Char) : List UInt8 := cs.flatMap String.utf8EncodeChar

end Utf8

end IoWatch
