import IoWatch.Text.Utf8

/-!
# UTF-8 is read as it is written

A text is read from a byte string exactly if the byte string is the encoding of that text. Between
the reader, which goes byte by byte, and the encoding, which goes character by character, stands the
table of the well-formed sequences.

## Main definitions

* `Utf8.Spells bytes n`: a well-formed sequence and its code point

## Main results

* `Utf8.spells_encodeChar`, `Utf8.Spells.encodeChar_eq`: the sequences are the encodings of the
  characters
* `Utf8.Spells.scanFrom_append`, `Utf8.exists_spells_of_scanFrom`: the reader takes sequence after
  sequence
* `Utf8.decode_eq_some_iff`: what is read is what was written
-/

namespace IoWatch

namespace Utf8

/-- Whether a byte can stand behind the first one of a sequence. -/
def Continues (b : UInt8) : Prop := 0x80 ≤ b.toNat ∧ b.toNat ≤ 0xbf

/-- A well-formed sequence of bytes and the code point that it stands for. What is asked of a second
byte keeps out overlong sequences, surrogates and what is too large. -/
inductive Spells : List UInt8 → Nat → Prop
  | one {a : UInt8} (ha : a.toNat < 0x80) : Spells [a] a.toNat
  | two {a b : UInt8} (ha : 0xc2 ≤ a.toNat ∧ a.toNat < 0xe0) (hb : Continues b) :
      Spells [a, b] (a.toNat % 32 * 64 + b.toNat % 64)
  | three {a b c : UInt8} (ha : 0xe0 ≤ a.toNat ∧ a.toNat < 0xf0) (hb : Continues b)
      (hc : Continues c) (hlow : a.toNat = 0xe0 → 0xa0 ≤ b.toNat)
      (hhigh : a.toNat = 0xed → b.toNat ≤ 0x9f) :
      Spells [a, b, c] ((a.toNat % 16 * 64 + b.toNat % 64) * 64 + c.toNat % 64)
  | four {a b c d : UInt8} (ha : 0xf0 ≤ a.toNat ∧ a.toNat < 0xf5) (hb : Continues b)
      (hc : Continues c) (hd : Continues d) (hlow : a.toNat = 0xf0 → 0x90 ≤ b.toNat)
      (hhigh : a.toNat = 0xf4 → b.toNat ≤ 0x8f) :
      Spells [a, b, c, d]
        (((a.toNat % 8 * 64 + b.toNat % 64) * 64 + c.toNat % 64) * 64 + d.toNat % 64)

/-! ## Sequences and characters -/

theorem toNat_val_ofNat {n : Nat} (h : n.isValidChar) : (Char.ofNat n).val.toNat = n := by
  unfold Char.ofNat
  rw [dif_pos h]
  rfl

theorem Spells.isValidChar {bytes : List UInt8} {n : Nat} (h : Spells bytes n) :
    n.isValidChar := by
  unfold Nat.isValidChar
  cases h with
  | one ha => omega
  | two ha hb => omega
  | three ha hb hc hlow hhigh =>
    unfold Continues at hb hc
    omega
  | four ha hb hc hd hlow hhigh =>
    unfold Continues at hb hc hd
    omega

/-- A sequence is the encoding of the character that it stands for. -/
theorem Spells.encodeChar_eq {bytes : List UInt8} {n : Nat} (h : Spells bytes n) :
    String.utf8EncodeChar (Char.ofNat n) = bytes := by
  have hval := toNat_val_ofNat h.isValidChar
  unfold String.utf8EncodeChar
  rw [hval]
  cases h with
  | one ha =>
    rw [if_pos (by omega)]
    simp
  | two ha hb =>
    unfold Continues at hb
    rw [if_neg (by omega), if_pos (by omega)]
    simp only [List.cons.injEq, ← UInt8.toNat_inj, UInt8.toNat_ofNat', and_true]
    omega
  | three ha hb hc hlow hhigh =>
    unfold Continues at hb hc
    rw [if_neg (by omega), if_neg (by omega), if_pos (by omega)]
    simp only [List.cons.injEq, ← UInt8.toNat_inj, UInt8.toNat_ofNat', and_true]
    omega
  | four ha hb hc hd hlow hhigh =>
    unfold Continues at hb hc hd
    rw [if_neg (by omega), if_neg (by omega), if_neg (by omega)]
    simp only [List.cons.injEq, ← UInt8.toNat_inj, UInt8.toNat_ofNat', and_true]
    omega

theorem Spells.of_eq {bytes : List UInt8} {n m : Nat} (h : Spells bytes n) (hn : n = m) :
    Spells bytes m := hn ▸ h

theorem toNat_ofNat_of_lt {n : Nat} (h : n < 0x100) : (UInt8.ofNat n).toNat = n :=
  UInt8.toNat_ofNat_of_lt' h

/-- The encoding of a character is a sequence that stands for it. Each range of code points has
sequences of its own length. -/
theorem spells_encodeChar (c : Char) : Spells (String.utf8EncodeChar c) c.val.toNat := by
  have hvalid := c.valid
  unfold UInt32.isValidChar Nat.isValidChar at hvalid
  generalize hn : c.val.toNat = n at hvalid
  unfold String.utf8EncodeChar
  rw [hn]
  rcases (by omega : n < 0x80 ∨ (0x80 ≤ n ∧ n < 0x800) ∨ (0x800 ≤ n ∧ n < 0x10000) ∨
    (0x10000 ≤ n ∧ n < 0x110000)) with h | h | h | h
  · rw [if_pos (by omega)]
    have hbyte : (UInt8.ofNat n).toNat = n := toNat_ofNat_of_lt (by omega)
    exact (Spells.one (hbyte.symm ▸ h)).of_eq hbyte
  · rw [if_neg (by omega), if_pos (by omega)]
    have ha := toNat_ofNat_of_lt (n := n / 64 % 32 + 192) (by omega)
    have hb := toNat_ofNat_of_lt (n := n % 64 + 128) (by omega)
    refine (Spells.two ?_ ?_).of_eq ?_
    · omega
    · unfold Continues; omega
    · rw [ha, hb]; omega
  · rw [if_neg (by omega), if_neg (by omega), if_pos (by omega)]
    have ha := toNat_ofNat_of_lt (n := n / 4096 % 16 + 224) (by omega)
    have hb := toNat_ofNat_of_lt (n := n / 64 % 64 + 128) (by omega)
    have hc := toNat_ofNat_of_lt (n := n % 64 + 128) (by omega)
    refine (Spells.three ?_ ?_ ?_ ?_ ?_).of_eq ?_
    · omega
    · unfold Continues; omega
    · unfold Continues; omega
    · omega
    · omega
    · rw [ha, hb, hc]; omega
  · rw [if_neg (by omega), if_neg (by omega), if_neg (by omega)]
    have ha := toNat_ofNat_of_lt (n := n / 262144 % 8 + 240) (by omega)
    have hb := toNat_ofNat_of_lt (n := n / 4096 % 64 + 128) (by omega)
    have hc := toNat_ofNat_of_lt (n := n / 64 % 64 + 128) (by omega)
    have hd := toNat_ofNat_of_lt (n := n % 64 + 128) (by omega)
    refine (Spells.four ?_ ?_ ?_ ?_ ?_ ?_).of_eq ?_
    · omega
    · unfold Continues; omega
    · unfold Continues; omega
    · unfold Continues; omega
    · omega
    · omega
    · rw [ha, hb, hc, hd]; omega

/-! ## The reader -/

section Opening

variable {b : Nat}

theorem opening_one (h : b < 0x80) : opening b = .char (Char.ofNat b) := if_pos h

theorem opening_two (h : 0xc2 ≤ b ∧ b < 0xe0) : opening b = .pending ⟨1, 0x80, 0xbf, b % 32⟩ := by
  unfold opening
  rw [if_neg (by omega), if_neg (by omega), if_pos (by omega)]

theorem opening_three (h : 0xe0 ≤ b ∧ b < 0xf0) :
    opening b = .pending ⟨2, if b = 0xe0 then 0xa0 else 0x80, if b = 0xed then 0x9f else 0xbf,
      b % 16⟩ := by
  unfold opening
  rw [if_neg (by omega), if_neg (by omega), if_neg (by omega)]
  by_cases hlow : b = 0xe0
  · simp [hlow]
  by_cases hhigh : b = 0xed
  · simp [hhigh]
  rw [if_neg hlow, if_neg hhigh, if_pos (by omega), if_neg hlow, if_neg hhigh]

theorem opening_four (h : 0xf0 ≤ b ∧ b < 0xf5) :
    opening b = .pending ⟨3, if b = 0xf0 then 0x90 else 0x80, if b = 0xf4 then 0x8f else 0xbf,
      b % 8⟩ := by
  unfold opening
  rw [if_neg (by omega), if_neg (by omega), if_neg (by omega), if_neg (by omega),
    if_neg (by omega), if_neg (by omega)]
  by_cases hlow : b = 0xf0
  · simp [hlow]
  by_cases hhigh : b = 0xf4
  · simp [hhigh]
  rw [if_neg hlow, if_pos (by omega), if_neg hlow, if_neg hhigh]

theorem opening_stray (h : (0x80 ≤ b ∧ b < 0xc2) ∨ 0xf5 ≤ b) : opening b = .stray := by
  unfold opening
  rw [if_neg (by omega)]
  rcases h with h | h
  · rw [if_pos (by omega)]
  · rw [if_neg (by omega), if_neg (by omega), if_neg (by omega), if_neg (by omega),
      if_neg (by omega), if_neg (by omega), if_neg (by omega), if_neg (by omega)]

end Opening

section Scan

variable {p : Pending} {b : UInt8} {s : List UInt8}

theorem scanFrom_cons_of_char {c : Char} (h : opening b.toNat = .char c) :
    scanFrom none (b :: s) = some c :: scanFrom none s := by
  rw [scanFrom, h]

theorem scanFrom_cons_of_pending (h : opening b.toNat = .pending p) :
    scanFrom none (b :: s) = scanFrom (some p) s := by
  rw [scanFrom, h]

/-- An open sequence takes a byte within its bounds; with the last one it is complete. -/
theorem scanFrom_pending (h : p.low ≤ b.toNat ∧ b.toNat ≤ p.high) :
    scanFrom (some p) (b :: s) =
      if p.missing = 1 then some (Char.ofNat (p.next b.toNat).bits) :: scanFrom none s
      else scanFrom (some (p.next b.toNat)) s := by
  rw [scanFrom, if_pos h]

/-- Without a gap, an open sequence goes on with a byte within its bounds. One out of bounds leaves
a gap, whatever it opens itself. -/
theorem exists_cons_of_scanFrom_pending (h : none ∉ scanFrom (some p) s) :
    ∃ b s', s = b :: s' ∧ p.low ≤ b.toNat ∧ b.toNat ≤ p.high := by
  cases s with
  | nil => simp [scanFrom] at h
  | cons b s' =>
    by_cases hb : p.low ≤ b.toNat ∧ b.toNat ≤ p.high
    · exact ⟨b, s', rfl, hb⟩
    · rw [scanFrom, if_neg hb] at h
      split at h <;> simp at h

end Scan

/-- The bounds of a second byte, where one first byte raises the lower one and another one lowers
the upper one. -/
theorem bounds_iff {a b x y low high : Nat} (hlow : 0x80 ≤ low) (hhigh : high ≤ 0xbf) :
    ((if a = x then low else 0x80) ≤ b ∧ b ≤ if a = y then high else 0xbf) ↔
      (0x80 ≤ b ∧ b ≤ 0xbf) ∧ (a = x → low ≤ b) ∧ (a = y → b ≤ high) := by
  split <;> split <;> omega

/-- The reader takes a sequence for the character that it stands for. -/
theorem Spells.scanFrom_append {bytes : List UInt8} {n : Nat} (h : Spells bytes n)
    (rest : List UInt8) :
    scanFrom none (bytes ++ rest) = some (Char.ofNat n) :: scanFrom none rest := by
  cases h with
  | one ha => exact scanFrom_cons_of_char (opening_one ha)
  | two ha hb =>
    simp only [List.cons_append, List.nil_append]
    rw [scanFrom_cons_of_pending (opening_two ha), scanFrom_pending ⟨hb.1, hb.2⟩, if_pos (by rfl)]
    rfl
  | three ha hb hc hlow hhigh =>
    have hbounds := (bounds_iff (by decide) (by decide)).mpr ⟨hb, hlow, hhigh⟩
    simp only [List.cons_append, List.nil_append]
    rw [scanFrom_cons_of_pending (opening_three ha), scanFrom_pending hbounds, if_neg (by simp),
      scanFrom_pending ⟨hc.1, hc.2⟩, if_pos (by rfl)]
    rfl
  | four ha hb hc hd hlow hhigh =>
    have hbounds := (bounds_iff (by decide) (by decide)).mpr ⟨hb, hlow, hhigh⟩
    simp only [List.cons_append, List.nil_append]
    rw [scanFrom_cons_of_pending (opening_four ha), scanFrom_pending hbounds, if_neg (by simp),
      scanFrom_pending ⟨hc.1, hc.2⟩, if_neg (by simp [Pending.next]),
      scanFrom_pending ⟨hd.1, hd.2⟩, if_pos (by rfl)]
    rfl

/-- Where no gap is read, what is read starts with a sequence. Its first byte says how long it
is. -/
theorem exists_spells_of_scanFrom {a : UInt8} {s : List UInt8} (h : none ∉ scanFrom none (a :: s)) :
    ∃ bytes n rest, a :: s = bytes ++ rest ∧ Spells bytes n := by
  rcases (by omega : a.toNat < 0x80 ∨ (0xc2 ≤ a.toNat ∧ a.toNat < 0xe0) ∨
    (0xe0 ≤ a.toNat ∧ a.toNat < 0xf0) ∨ (0xf0 ≤ a.toNat ∧ a.toNat < 0xf5) ∨
    ((0x80 ≤ a.toNat ∧ a.toNat < 0xc2) ∨ 0xf5 ≤ a.toNat)) with ha | ha | ha | ha | ha
  · exact ⟨[a], _, s, rfl, .one ha⟩
  · rw [scanFrom_cons_of_pending (opening_two ha)] at h
    obtain ⟨b, s, rfl, hb⟩ := exists_cons_of_scanFrom_pending h
    exact ⟨[a, b], _, s, rfl, .two ha hb⟩
  · rw [scanFrom_cons_of_pending (opening_three ha)] at h
    obtain ⟨b, s, rfl, hbounds⟩ := exists_cons_of_scanFrom_pending h
    rw [scanFrom_pending hbounds, if_neg (by simp)] at h
    obtain ⟨c, s, rfl, hc⟩ := exists_cons_of_scanFrom_pending h
    obtain ⟨hb, hlow, hhigh⟩ := (bounds_iff (by decide) (by decide)).mp hbounds
    exact ⟨[a, b, c], _, s, rfl, .three ha hb hc hlow hhigh⟩
  · rw [scanFrom_cons_of_pending (opening_four ha)] at h
    obtain ⟨b, s, rfl, hbounds⟩ := exists_cons_of_scanFrom_pending h
    rw [scanFrom_pending hbounds, if_neg (by simp)] at h
    obtain ⟨c, s, rfl, hc⟩ := exists_cons_of_scanFrom_pending h
    rw [scanFrom_pending hc, if_neg (by simp [Pending.next])] at h
    obtain ⟨d, s, rfl, hd⟩ := exists_cons_of_scanFrom_pending h
    obtain ⟨hb, hlow, hhigh⟩ := (bounds_iff (by decide) (by decide)).mp hbounds
    exact ⟨[a, b, c, d], _, s, rfl, .four ha hb hc hd hlow hhigh⟩
  · rw [scanFrom, opening_stray ha] at h
    simp at h

/-! ## Texts -/

/-- The bytes of a text are read as its characters. -/
theorem scan_encode (cs : List Char) : scan (encode cs) = cs.map some := by
  induction cs with
  | nil => rfl
  | cons c cs ih =>
    unfold scan encode at ih
    unfold scan encode
    rw [List.flatMap_cons, (spells_encodeChar c).scanFrom_append, ih]
    exact congrArg (some · :: cs.map some) c.ofNat_toNat

/-- Bytes without a gap are the bytes of a text. By induction on their number: what stands behind
the first sequence is shorter. -/
theorem exists_encode_of_scanFrom (bytes : List UInt8) (h : none ∉ scanFrom none bytes) :
    ∃ cs, bytes = encode cs := by
  induction hlength : bytes.length using Nat.strongRecOn generalizing bytes with
  | ind length ih =>
    cases bytes with
    | nil => exact ⟨[], rfl⟩
    | cons a s =>
      obtain ⟨first, n, rest, heq, hs⟩ := exists_spells_of_scanFrom h
      rw [heq, hs.scanFrom_append] at h
      have hshort : rest.length < length := by
        have hpos : 0 < first.length := by cases hs <;> simp
        rw [← hlength, heq, List.length_append]
        omega
      obtain ⟨cs, hcs⟩ := ih _ hshort rest (List.not_mem_of_not_mem_cons h) rfl
      refine ⟨Char.ofNat n :: cs, ?_⟩
      rw [heq, hcs, encode, encode, List.flatMap_cons, hs.encodeChar_eq]

theorem mapM_id_eq_some_iff {xs : List (Option Char)} {cs : List Char} :
    xs.mapM id = some cs ↔ xs = cs.map some := by
  induction xs generalizing cs with
  | nil => cases cs <;> simp
  | cons x xs ih =>
    cases x with
    | none => cases cs <;> simp [List.mapM_cons]
    | some c =>
      cases cs with
      | nil => simp [List.mapM_cons, Option.bind_eq_some_iff]
      | cons d cs => simpa [List.mapM_cons, Option.bind_eq_some_iff, ih] using and_comm

theorem decode_encode (cs : List Char) : decode (encode cs) = some cs := by
  rw [decode, scan_encode, mapM_id_eq_some_iff]

theorem encode_injective : Function.Injective encode := by
  intro cs cs' h
  have hdecode := congrArg decode h
  rw [decode_encode, decode_encode] at hdecode
  exact Option.some.inj hdecode

/-- **What is read is what was written**: a byte string has a text exactly if it is the encoding of
that text. -/
theorem decode_eq_some_iff {bytes : List UInt8} {cs : List Char} :
    decode bytes = some cs ↔ bytes = encode cs := by
  constructor
  · intro h
    have hscan : scanFrom none bytes = cs.map some := mapM_id_eq_some_iff.mp h
    obtain ⟨cs', rfl⟩ := exists_encode_of_scanFrom bytes (by simp [hscan])
    rw [decode_encode] at h
    rw [Option.some.inj h]
  · rintro rfl
    exact decode_encode cs

end Utf8

end IoWatch
