import IoWatch.Proofs.Readings
import IoWatch.Settings.Document

/-!
# What a settings file gives

A table of settings is read key by key. Eight keys mean something; each is absent, or has a value of
its own kind, or spoils the table. What the keys give is laid over what holds by default, and the
settings that come out are checked.

## Main definitions

* `Given`, `Given.IsOf`: what the keys of a table give
* `Given.settings`: what is given, over what holds by default
* `Settings.IsValid`, `Settings.FirstFault`: settings that pass every check, and the first check that
  others fail
* `FileGives`, `FileRefused`: what the content of a settings file gives, and why it is refused

## Main results

* `Settings.ofTable_eq_ok_iff`, `Settings.ofTable_eq_error_iff`: the settings of a table
* `Settings.validate_eq_ok_iff`, `Settings.validate_eq_error_iff`: the checks, in their order
* `Settings.ofFile_eq_ok_iff`, `Settings.ofFile_eq_error_iff`: the settings of a file
-/

namespace IoWatch

/-- What the keys of a table give; each may give nothing. -/
structure Given where
  pid : Option UInt32 := none
  intervalMs : Option UInt64 := none
  procRoot : Option String := none
  refreshMs : Option UInt64 := none
  historySecs : Option UInt64 := none
  headless : Option Bool := none
  json : Option Bool := none
  logFile : Option String := none

namespace Given

/-- A table gives these values: under each key stands its value, or nothing. -/
structure IsOf (g : Given) (t : Toml.Table) : Prop where
  pid : t.lookup "pid" = g.pid.map fun n => .integer n.toNat
  intervalMs : t.lookup "interval_ms" = g.intervalMs.map fun n => .integer n.toNat
  procRoot : t.lookup "proc_root" = g.procRoot.map .string
  refreshMs : t.lookup "refresh_ms" = g.refreshMs.map fun n => .integer n.toNat
  historySecs : t.lookup "history_secs" = g.historySecs.map fun n => .integer n.toNat
  headless : t.lookup "headless" = g.headless.map .boolean
  json : t.lookup "json" = g.json.map .boolean
  logFile : t.lookup "log_file" = g.logFile.map .string

/-- What is given, over what holds by default. -/
def settings (g : Given) : Settings where
  pid := g.pid
  intervalMs := g.intervalMs.getD 60000
  procRoot := Path.ofString (g.procRoot.getD "/proc")
  refreshMs := g.refreshMs.getD 500
  historySecs := g.historySecs.getD 60
  headless := g.headless.getD false
  json := g.json.getD false
  logFile := g.logFile.map Path.ofString

/-- The same settings from what the keys are read as. -/
theorem settings_eq (g : Given) :
    ({ pid := (g.pid.map UInt32.toNat).map .ofNat
       intervalMs := ((g.intervalMs.map UInt64.toNat).map .ofNat).getD Settings.standard.intervalMs
       procRoot := (g.procRoot.map Path.ofString).getD Settings.standard.procRoot
       refreshMs := ((g.refreshMs.map UInt64.toNat).map .ofNat).getD Settings.standard.refreshMs
       historySecs :=
         ((g.historySecs.map UInt64.toNat).map .ofNat).getD Settings.standard.historySecs
       headless := (g.headless.map id).getD Settings.standard.headless
       json := (g.json.map id).getD Settings.standard.json
       logFile := g.logFile.map Path.ofString } : Settings) = g.settings := by
  have hword (w : Option UInt64) : (w.map UInt64.toNat).map UInt64.ofNat = w := by
    cases w <;> simp
  have hpid : (g.pid.map UInt32.toNat).map UInt32.ofNat = g.pid := by
    cases g.pid <;> simp
  simp only [hword, hpid, Option.map_id_fun, id, settings, Settings.standard,
    Option.getD_map]

end Given

namespace Settings

section Bind

variable {ε α β : Type} {x : Except ε α} {f : α → Except ε β}

theorem bind_eq_ok_iff {b : β} : x >>= f = .ok b ↔ ∃ a, x = .ok a ∧ f a = .ok b := by
  cases x <;> simp [bind, Except.bind]

theorem bind_eq_error_iff {e : ε} :
    x >>= f = .error e ↔ x = .error e ∨ ∃ a, x = .ok a ∧ f a = .error e := by
  cases x <;> simp [bind, Except.bind]

/-- A property of the errors of both halves of a computation is one of all its errors. -/
theorem error_of_bind {P : ε → Prop} (hx : ∀ e, x = .error e → P e)
    (hf : ∀ a e, f a = .error e → P e) : ∀ e, x >>= f = .error e → P e := by
  intro e h
  rcases bind_eq_error_iff.mp h with h | ⟨a, -, h⟩
  · exact hx e h
  · exact hf a e h

end Bind

/-! ## Kinds of values -/

theorem natural?_eq_some_iff {bits n : Nat} {v : Toml.Value} :
    natural? bits v = some n ↔ v = .integer n ∧ n < Nat.pow 2 bits := by
  cases v <;> simp only [natural?, reduceCtorEq, false_and, Toml.Value.integer.injEq]
  rw [Option.ite_none_right_eq_some, Option.some.injEq]
  omega

/-- A natural number is read as the word that it fits. -/
theorem natural?_word {word : Type} {toNat : word → Nat} {bits : Nat}
    (hlt : ∀ w, toNat w < Nat.pow 2 bits) (hword : ∀ n < Nat.pow 2 bits, ∃ w, toNat w = n)
    (v : Toml.Value) (n : Nat) :
    natural? bits v = some n ↔ ∃ w, v = .integer (toNat w) ∧ n = toNat w := by
  rw [natural?_eq_some_iff]
  constructor
  · rintro ⟨rfl, hn⟩
    obtain ⟨w, rfl⟩ := hword n hn
    exact ⟨w, rfl, rfl⟩
  · rintro ⟨w, rfl, rfl⟩
    exact ⟨rfl, hlt w⟩

theorem boolean?_eq_some_iff (v : Toml.Value) (b : Bool) :
    boolean? v = some b ↔ ∃ b', v = .boolean b' ∧ b = id b' := by
  cases v <;> simp [boolean?, eq_comm]

theorem path?_eq_some_iff (v : Toml.Value) (p : Path) :
    path? v = some p ↔ ∃ s, v = .string s ∧ p = Path.ofString s := by
  cases v <;> simp [path?, eq_comm]

/-! ## Keys -/

section Field

variable {α β : Type} {t : Toml.Table} {key : String} {read : Toml.Value → Option α}
  {value : β → Toml.Value} {conv : β → α}

/-- A key gives a value if its value is of the kind asked for, and nothing if there is none. -/
theorem field_eq_ok_iff (hread : ∀ v a, read v = some a ↔ ∃ b, v = value b ∧ a = conv b)
    {o : Option α} :
    field t key read = .ok o ↔ ∃ b : Option β, t.lookup key = b.map value ∧ o = b.map conv := by
  have hkey : field t key read = .ok o ↔ (t.lookup key).map read = o.map some := by
    rw [field]
    cases t.lookup key with
    | none => cases o <;> simp
    | some v => cases h : read v <;> cases o <;> simp [h]
  rw [hkey]
  cases o with
  | none =>
    rw [Option.map_none, Option.map_eq_none_iff]
    constructor
    · intro hlookup
      exact ⟨none, hlookup, rfl⟩
    · rintro ⟨_ | b, hlookup, ho⟩
      · exact hlookup
      · cases ho
  | some a =>
    rw [Option.map_some, Option.map_eq_some_iff]
    constructor
    · rintro ⟨v, hlookup, hv⟩
      obtain ⟨b, rfl, rfl⟩ := (hread v a).mp hv
      exact ⟨some b, hlookup, rfl⟩
    · rintro ⟨_ | b, hlookup, ha⟩
      · cases ha
      · exact ⟨value b, hlookup, (hread _ _).mpr ⟨b, rfl, Option.some.inj ha⟩⟩

/-- Otherwise the table is no document of settings. -/
theorem field_eq_error {e : SettingsError} (h : field t key read = .error e) : e = .document := by
  rw [field] at h
  split at h
  · cases h
  · split at h <;> cases h
    rfl

variable (t key)

theorem field_word32_eq_ok_iff {o : Option Nat} :
    field t key (natural? 32) = .ok o ↔
      ∃ w : Option UInt32, t.lookup key = w.map (fun w => .integer w.toNat) ∧
        o = w.map UInt32.toNat :=
  field_eq_ok_iff
    (natural?_word UInt32.toNat_lt fun n hn => ⟨.ofNat n, UInt32.toNat_ofNat_of_lt' hn⟩)

theorem field_word64_eq_ok_iff {o : Option Nat} :
    field t key (natural? 64) = .ok o ↔
      ∃ w : Option UInt64, t.lookup key = w.map (fun w => .integer w.toNat) ∧
        o = w.map UInt64.toNat :=
  field_eq_ok_iff
    (natural?_word UInt64.toNat_lt fun n hn => ⟨.ofNat n, UInt64.toNat_ofNat_of_lt' hn⟩)

end Field

/-- A table is read if its keys give something. -/
theorem ofTable_eq_ok_iff {t : Toml.Table} {s : Settings} :
    ofTable t = .ok s ↔ ∃ g : Given, g.IsOf t ∧ s = g.settings := by
  simp only [ofTable, bind_eq_ok_iff, field_word32_eq_ok_iff, field_word64_eq_ok_iff,
    field_eq_ok_iff path?_eq_some_iff, field_eq_ok_iff boolean?_eq_some_iff]
  constructor
  · rintro ⟨_, ⟨pid, hpid, rfl⟩, _, ⟨intervalMs, hintervalMs, rfl⟩, _, ⟨procRoot, hprocRoot, rfl⟩,
      _, ⟨refreshMs, hrefreshMs, rfl⟩, _, ⟨historySecs, hhistorySecs, rfl⟩,
      _, ⟨headless, hheadless, rfl⟩, _, ⟨json, hjson, rfl⟩, _, ⟨logFile, hlogFile, rfl⟩, hs⟩
    let g : Given := ⟨pid, intervalMs, procRoot, refreshMs, historySecs, headless, json, logFile⟩
    refine ⟨g, ⟨hpid, hintervalMs, hprocRoot, hrefreshMs, hhistorySecs, hheadless, hjson,
      hlogFile⟩, ?_⟩
    rw [← Except.ok.inj hs]
    exact g.settings_eq
  · rintro ⟨g, hg, rfl⟩
    exact ⟨_, ⟨_, hg.pid, rfl⟩, _, ⟨_, hg.intervalMs, rfl⟩, _, ⟨_, hg.procRoot, rfl⟩,
      _, ⟨_, hg.refreshMs, rfl⟩, _, ⟨_, hg.historySecs, rfl⟩, _, ⟨_, hg.headless, rfl⟩,
      _, ⟨_, hg.json, rfl⟩, _, ⟨_, hg.logFile, rfl⟩, congrArg Except.ok g.settings_eq⟩

theorem ofTable_eq_error {t : Toml.Table} {e : SettingsError} (h : ofTable t = .error e) :
    e = .document := by
  revert e
  iterate 8
    apply error_of_bind
    · intro e
      exact field_eq_error
    intro o
  intro e h
  cases h

/-- Every other table is no document of settings. -/
theorem ofTable_eq_error_iff {t : Toml.Table} {e : SettingsError} :
    ofTable t = .error e ↔ e = .document ∧ ∀ g : Given, ¬ g.IsOf t := by
  constructor
  · intro h
    refine ⟨ofTable_eq_error h, ?_⟩
    intro g hg
    have hok := ofTable_eq_ok_iff.mpr ⟨g, hg, rfl⟩
    rw [h] at hok
    cases hok
  · rintro ⟨rfl, hnone⟩
    cases h : ofTable t with
    | ok s =>
      obtain ⟨g, hg, -⟩ := ofTable_eq_ok_iff.mp h
      exact absurd hg (hnone g)
    | error e => rw [ofTable_eq_error h]

/-! ## Checks -/

/-- Settings that pass every check. -/
structure IsValid (s : Settings) : Prop where
  intervalMs : s.intervalMs ≠ 0
  refreshMs : s.refreshMs ≠ 0
  historySecs : 1 ≤ s.historySecs ∧ s.historySecs ≤ 3600

/-- The error of the first check that settings fail. -/
inductive FirstFault (s : Settings) : SettingsError → Prop
  | intervalMs (h : s.intervalMs = 0) : FirstFault s (.zeroInterval "interval_ms")
  | refreshMs (hinterval : s.intervalMs ≠ 0) (h : s.refreshMs = 0) :
      FirstFault s (.zeroInterval "refresh_ms")
  | historySecs (hinterval : s.intervalMs ≠ 0) (hrefresh : s.refreshMs ≠ 0)
      (h : ¬ (1 ≤ s.historySecs ∧ s.historySecs ≤ 3600)) : FirstFault s (.historyRange 3600)

variable {s : Settings} {e : SettingsError}

theorem history_out_of_range_iff :
    (s.historySecs < 1 ∨ maxHistorySecs < s.historySecs) ↔
      ¬ (1 ≤ s.historySecs ∧ s.historySecs ≤ 3600) := by
  rw [maxHistorySecs, not_and_or, UInt64.not_le, UInt64.not_le]

theorem IsValid.validate (h : s.IsValid) : s.validate = .ok () := by
  rw [Settings.validate, if_neg h.intervalMs, if_neg h.refreshMs,
    if_neg (history_out_of_range_iff.not_left.mpr h.historySecs)]

theorem FirstFault.validate (h : s.FirstFault e) : s.validate = .error e := by
  cases h with
  | intervalMs h => rw [Settings.validate, if_pos h]
  | refreshMs hinterval h => rw [Settings.validate, if_neg hinterval, if_pos h]
  | historySecs hinterval hrefresh h =>
    rw [Settings.validate, if_neg hinterval, if_neg hrefresh,
      if_pos (history_out_of_range_iff.mpr h), maxHistorySecs]

theorem isValid_or_firstFault (s : Settings) : s.IsValid ∨ ∃ e, s.FirstFault e := by
  by_cases hinterval : s.intervalMs = 0
  · exact .inr ⟨_, .intervalMs hinterval⟩
  by_cases hrefresh : s.refreshMs = 0
  · exact .inr ⟨_, .refreshMs hinterval hrefresh⟩
  by_cases hhistory : 1 ≤ s.historySecs ∧ s.historySecs ≤ 3600
  · exact .inl ⟨hinterval, hrefresh, hhistory⟩
  · exact .inr ⟨_, .historySecs hinterval hrefresh hhistory⟩

theorem validate_eq_ok_iff : s.validate = .ok () ↔ s.IsValid := by
  constructor
  · intro h
    rcases s.isValid_or_firstFault with hs | ⟨e, he⟩
    · exact hs
    · cases h.symm.trans he.validate
  · exact IsValid.validate

theorem validate_eq_error_iff : s.validate = .error e ↔ s.FirstFault e := by
  constructor
  · intro h
    rcases s.isValid_or_firstFault with hs | ⟨e', he⟩
    · cases h.symm.trans hs.validate
    · cases h.symm.trans he.validate
      exact he
  · exact FirstFault.validate

theorem checked_eq_ok_iff {s' : Settings} : s.checked = .ok s' ↔ s.IsValid ∧ s' = s := by
  rw [checked, bind_eq_ok_iff]
  constructor
  · rintro ⟨⟨⟩, hvalid, hs⟩
    exact ⟨validate_eq_ok_iff.mp hvalid, (Except.ok.inj hs).symm⟩
  · rintro ⟨hvalid, rfl⟩
    exact ⟨(), hvalid.validate, rfl⟩

theorem checked_eq_error_iff : s.checked = .error e ↔ s.FirstFault e := by
  rw [checked, bind_eq_error_iff, validate_eq_error_iff]
  apply or_iff_left
  rintro ⟨_, -, h⟩
  cases h

end Settings

/-! ## Documents and files -/

/-- What the text of a document of settings gives. -/
def TextGives (text : List Char) (g : Given) : Prop :=
  ∃ t, Toml.parse text = some t ∧ g.IsOf t

/-- What the content of a settings file gives. -/
def FileGives (content : Except Fault (List UInt8)) (g : Given) : Prop :=
  ∃ text, content = .ok (Utf8.encode text) ∧ TextGives text g

/-- Why a settings file is refused: it cannot be read, it is no text or no document of settings,
or what it gives fails a check by itself. -/
inductive FileRefused (path : Path) : Except Fault (List UInt8) → SettingsError → Prop
  | fault (fault : Fault) : FileRefused path (.error fault) (.unreadable path fault)
  | noText {bytes : List UInt8} (h : ∀ text, bytes ≠ Utf8.encode text) :
      FileRefused path (.ok bytes) (.unreadable path .illFormedText)
  | noDocument {text : List Char} (h : ∀ g, ¬ TextGives text g) :
      FileRefused path (.ok (Utf8.encode text)) .document
  | invalid {text : List Char} {g : Given} {e : SettingsError} (hg : TextGives text g)
      (h : g.settings.FirstFault e) : FileRefused path (.ok (Utf8.encode text)) e

namespace Settings

variable {text : List Char} {s : Settings} {e : SettingsError}

theorem ofText_eq_ok_iff :
    ofText text = .ok s ↔ ∃ g, TextGives text g ∧ g.settings.IsValid ∧ s = g.settings := by
  rw [ofText]
  cases hparse : Toml.parse text with
  | none => simp [ofTable?, TextGives, hparse]
  | some t =>
    simp only [ofTable?, bind_eq_ok_iff, ofTable_eq_ok_iff, checked_eq_ok_iff, TextGives, hparse]
    constructor
    · rintro ⟨_, ⟨g, hg, rfl⟩, hvalid, hs⟩
      exact ⟨g, ⟨t, rfl, hg⟩, hvalid, hs⟩
    · rintro ⟨g, ⟨_, ht, hg⟩, hvalid, hs⟩
      cases ht
      exact ⟨_, ⟨g, hg, rfl⟩, hvalid, hs⟩

theorem ofText_eq_error_iff :
    ofText text = .error e ↔ (e = .document ∧ ∀ g, ¬ TextGives text g) ∨
      ∃ g, TextGives text g ∧ g.settings.FirstFault e := by
  rw [ofText]
  cases hparse : Toml.parse text with
  | none => simp [ofTable?, TextGives, hparse, eq_comm]
  | some t =>
    have hgives (g : Given) : TextGives text g ↔ g.IsOf t := by simp [TextGives, hparse]
    simp only [ofTable?, bind_eq_error_iff, ofTable_eq_error_iff, ofTable_eq_ok_iff,
      checked_eq_error_iff, hgives]
    apply or_congr_right
    constructor
    · rintro ⟨_, ⟨g, hg, rfl⟩, he⟩
      exact ⟨g, hg, he⟩
    · rintro ⟨g, hg, he⟩
      exact ⟨_, ⟨g, hg, rfl⟩, he⟩

variable {path : Path} {content : Except Fault (List UInt8)}

/-- The settings of a file are what it gives, if that passes every check. -/
theorem ofFile_eq_ok_iff :
    ofFile path (textOf content) = .ok s ↔
      ∃ g, FileGives content g ∧ g.settings.IsValid ∧ s = g.settings := by
  constructor
  · intro h
    rcases exists_text_or content with ⟨fault, rfl⟩ | ⟨bytes, rfl, hbytes⟩ | ⟨text, rfl⟩
    · cases h
    · rw [textOf_of_forall_ne hbytes] at h
      cases h
    · rw [textOf_encode] at h
      obtain ⟨g, hg, hs⟩ := ofText_eq_ok_iff.mp h
      exact ⟨g, ⟨text, rfl, hg⟩, hs⟩
  · rintro ⟨g, ⟨text, rfl, hg⟩, hs⟩
    rw [textOf_encode]
    exact ofText_eq_ok_iff.mpr ⟨g, hg, hs⟩

/-- Every other file is refused. -/
theorem ofFile_eq_error_iff :
    ofFile path (textOf content) = .error e ↔ FileRefused path content e := by
  constructor
  · intro h
    rcases exists_text_or content with ⟨fault, rfl⟩ | ⟨bytes, rfl, hbytes⟩ | ⟨text, rfl⟩
    · cases h
      exact .fault fault
    · rw [textOf_of_forall_ne hbytes] at h
      cases h
      exact .noText hbytes
    · rw [textOf_encode] at h
      rcases ofText_eq_error_iff.mp h with ⟨rfl, hnone⟩ | ⟨g, hg, hfault⟩
      · exact .noDocument hnone
      · exact .invalid hg hfault
  · intro h
    cases h with
    | fault fault => rfl
    | noText hbytes => rw [textOf_of_forall_ne hbytes, ofFile]
    | noDocument hnone =>
      rw [textOf_encode]
      exact ofText_eq_error_iff.mpr (.inl ⟨rfl, hnone⟩)
    | invalid hg hfault =>
      rw [textOf_encode]
      exact ofText_eq_error_iff.mpr (.inr ⟨_, hg, hfault⟩)

end Settings

end IoWatch
