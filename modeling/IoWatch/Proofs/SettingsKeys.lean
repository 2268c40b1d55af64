import IoWatch.Proofs.DocumentTable
import IoWatch.Proofs.SettingsFile

/-!
# Eight keys are all that a document means

Of the table of a document only eight keys are looked at, each for a value of one kind. A value of
another kind under one of them spoils the document, whatever else is wrong with it. In every other
document each of the eight keys gives its value or what holds by default, and the checks decide.

## Main definitions

* `Settings.Kind`, `Settings.keys`: the keys that mean something, and the kinds of their values
* `Settings.IsSpoiled`: a value of another kind stands under one of the keys

## Main results

* `Settings.ofTable_congr`: nothing but the eight keys matters
* `Settings.exists_given_iff`: the tables whose keys give something
* `Settings.eight_keys_are_the_document`: the settings of every document
-/

namespace IoWatch

namespace Settings

/-- The kinds of the values of settings. -/
inductive Kind where
  /-- The number of a process. -/
  | process
  /-- A number of milliseconds or seconds. -/
  | amount
  | path
  | truth

/-- The values of a kind. Numbers are not negative, and that of a process has at most 32 bits. -/
def Kind.Has : Kind → Toml.Value → Prop
  | process, v => ∃ n : Nat, v = .integer n ∧ n < Nat.pow 2 32
  | amount, v => ∃ n : Nat, v = .integer n
  | path, v => ∃ s, v = .string s
  | truth, v => ∃ b, v = .boolean b

/-- The keys that mean something. -/
def keys : List (String × Kind) :=
  [("pid", .process), ("interval_ms", .amount), ("proc_root", .path), ("refresh_ms", .amount),
    ("history_secs", .amount), ("headless", .truth), ("json", .truth), ("log_file", .path)]

/-- A value of another kind stands under one of the keys. -/
def IsSpoiled (t : Toml.Table) : Prop :=
  ∃ key kind v, (key, kind) ∈ keys ∧ (key, v) ∈ t ∧ ¬ kind.Has v

variable {t t' : Toml.Table} {key : String} {kind : Kind}

/-- What holds of all eight keys. -/
theorem forall_keys_iff {P : String → Kind → Prop} :
    (∀ key kind, (key, kind) ∈ keys → P key kind) ↔
      P "pid" .process ∧ P "interval_ms" .amount ∧ P "proc_root" .path ∧ P "refresh_ms" .amount ∧
        P "history_secs" .amount ∧ P "headless" .truth ∧ P "json" .truth ∧ P "log_file" .path := by
  simp [keys, or_imp, forall_and]

/-- Nothing but the eight keys matters. -/
theorem ofTable_congr (h : ∀ key kind, (key, kind) ∈ keys → t.lookup key = t'.lookup key) :
    ofTable t = ofTable t' := by
  obtain ⟨hpid, hinterval, hroot, hrefresh, hhistory, hheadless, hjson, hlog⟩ :=
    forall_keys_iff.mp h
  simp only [ofTable, field, hpid, hinterval, hroot, hrefresh, hhistory, hheadless, hjson, hlog]

/-! ## Tables whose keys give something -/

theorem not_isSpoiled_iff :
    ¬ IsSpoiled t ↔ ∀ key kind, (key, kind) ∈ keys → ∀ v, (key, v) ∈ t → kind.Has v := by
  simp only [IsSpoiled, not_exists, not_and, not_not]
  exact forall₂_congr fun key kind => forall_comm

/-- What stands under a key is of a kind exactly if the key gives a value of that kind, or
nothing. -/
theorem forall_has_iff {β : Type} {value : β → Toml.Value} (ht : Toml.IsSound t)
    (hhas : ∀ b, kind.Has (value b)) (hvalue : ∀ v : Toml.Value, v.Fits → kind.Has v →
      ∃ b, v = value b) :
    (∀ v, (key, v) ∈ t → kind.Has v) ↔ ∃ o : Option β, t.lookup key = o.map value := by
  constructor
  · intro h
    cases hlookup : t.lookup key with
    | none => exact ⟨none, rfl⟩
    | some v =>
      have hmem := ht.lookup_eq_some_iff.mp hlookup
      obtain ⟨b, rfl⟩ := hvalue v (ht.fits _ hmem) (h v hmem)
      exact ⟨some b, rfl⟩
  · rintro ⟨o, ho⟩ v hmem
    rw [← ht.lookup_eq_some_iff, ho, Option.map_eq_some_iff] at hmem
    obtain ⟨b, -, rfl⟩ := hmem
    exact hhas b

section Kinds

variable (ht : Toml.IsSound t) (key)
include ht

theorem forall_has_process_iff : (∀ v, (key, v) ∈ t → Kind.process.Has v) ↔
    ∃ o : Option UInt32, t.lookup key = o.map fun n => .integer n.toNat := by
  apply forall_has_iff ht
  · exact fun n => ⟨n.toNat, rfl, n.toNat_lt⟩
  · rintro v - ⟨n, rfl, hn⟩
    exact ⟨.ofNat n, by rw [UInt32.toNat_ofNat_of_lt' hn]⟩

theorem forall_has_amount_iff : (∀ v, (key, v) ∈ t → Kind.amount.Has v) ↔
    ∃ o : Option UInt64, t.lookup key = o.map fun n => .integer n.toNat := by
  apply forall_has_iff ht
  · exact fun n => ⟨n.toNat, rfl⟩
  · rintro v hv ⟨n, rfl⟩
    have hn : n < UInt64.size := by
      have hword := (hv n rfl).2
      have hmax : Int64.maxValue.toInt < UInt64.size := by decide
      omega
    exact ⟨.ofNat n, by rw [UInt64.toNat_ofNat_of_lt' hn]⟩

theorem forall_has_path_iff : (∀ v, (key, v) ∈ t → Kind.path.Has v) ↔
    ∃ o : Option String, t.lookup key = o.map .string :=
  forall_has_iff ht (fun s => ⟨s, rfl⟩) fun _ _ h => h

theorem forall_has_truth_iff : (∀ v, (key, v) ∈ t → Kind.truth.Has v) ↔
    ∃ o : Option Bool, t.lookup key = o.map .boolean :=
  forall_has_iff ht (fun b => ⟨b, rfl⟩) fun _ _ h => h

end Kinds

/-- The keys of a table give something unless one of them spoils it. -/
theorem exists_given_iff (ht : Toml.IsSound t) : (∃ g : Given, g.IsOf t) ↔ ¬ IsSpoiled t := by
  rw [not_isSpoiled_iff, forall_keys_iff (P := fun key kind => ∀ v, (key, v) ∈ t → kind.Has v)]
  simp only [forall_has_process_iff _ ht, forall_has_amount_iff _ ht, forall_has_path_iff _ ht,
    forall_has_truth_iff _ ht]
  constructor
  · rintro ⟨g, hg⟩
    exact ⟨⟨_, hg.pid⟩, ⟨_, hg.intervalMs⟩, ⟨_, hg.procRoot⟩, ⟨_, hg.refreshMs⟩,
      ⟨_, hg.historySecs⟩, ⟨_, hg.headless⟩, ⟨_, hg.json⟩, ⟨_, hg.logFile⟩⟩
  · rintro ⟨⟨pid, hpid⟩, ⟨intervalMs, hintervalMs⟩, ⟨procRoot, hprocRoot⟩,
      ⟨refreshMs, hrefreshMs⟩, ⟨historySecs, hhistorySecs⟩, ⟨headless, hheadless⟩, ⟨json, hjson⟩,
      ⟨logFile, hlogFile⟩⟩
    exact ⟨⟨pid, intervalMs, procRoot, refreshMs, historySecs, headless, json, logFile⟩,
      ⟨hpid, hintervalMs, hprocRoot, hrefreshMs, hhistorySecs, hheadless, hjson, hlogFile⟩⟩

/-! ## The settings of a document -/

section Documents

variable {text : List Char}

theorem ofText_eq (hparse : Toml.parse text = some t) :
    ofText text = ofTable t >>= Settings.checked := by
  rw [ofText, hparse]
  rfl

/-- **Eight keys are all that a document means.** Two documents give the same result if the same
values stand under the eight keys, or nothing in both, in whatever order and beside whatever other
keys and tables. Where one of the keys has a value of another kind, a negative number or too large a
number of a process, the document is no document of settings, whatever the checks would say. In
every other document each of the eight keys gives its value or what holds by default; these settings
are the result if neither the interval nor the redraw period is zero and the span of the history is
from 1 to 3600, and otherwise the first fault among them is reported. -/
theorem eight_keys_are_the_document :
    (∀ text text' t t', Toml.parse text = some t → Toml.parse text' = some t' →
      (∀ key kind v, (key, kind) ∈ keys → ((key, v) ∈ t ↔ (key, v) ∈ t')) →
      ofText text = ofText text') ∧
    ∀ text t, Toml.parse text = some t →
      (IsSpoiled t → ofText text = .error .document) ∧
      (¬ IsSpoiled t → ∃ g : Given, g.IsOf t) ∧
      ∀ g : Given, g.IsOf t →
        (∀ s, ofText text = .ok s ↔ g.settings.IsValid ∧ s = g.settings) ∧
        ∀ e, ofText text = .error e ↔ g.settings.FirstFault e := by
  constructor
  · intro text text' t t' hparse hparse' hsame
    have ht := Toml.isSound_of_parse hparse
    have ht' := Toml.isSound_of_parse hparse'
    rw [ofText_eq hparse, ofText_eq hparse', ofTable_congr]
    intro key kind hkey
    apply Option.ext
    intro v
    rw [ht.lookup_eq_some_iff, ht'.lookup_eq_some_iff, hsame key kind v hkey]
  · intro text t hparse
    have hgiven := exists_given_iff (Toml.isSound_of_parse hparse)
    rw [ofText_eq hparse]
    refine ⟨?_, hgiven.mpr, ?_⟩
    · intro hspoiled
      have hnone : ∀ g : Given, ¬ g.IsOf t := fun g hg => hgiven.mp ⟨g, hg⟩ hspoiled
      rw [ofTable_eq_error_iff.mpr ⟨rfl, hnone⟩]
      rfl
    · intro g hg
      rw [ofTable_eq_ok_iff.mpr ⟨g, hg, rfl⟩]
      exact ⟨fun s => checked_eq_ok_iff, fun e => checked_eq_error_iff⟩

/-- The same two keys stand in another order, spelt in another way and beside other content, and
what they give passes every check. A key with a value of another kind comes before an interval of
zero. -/
theorem eight_keys_are_the_document_in_any_order :
    let text := "json = true\npid = 7\n[disk]\npid = -1\n".toList
    let text' := "colors = ['red', 8]\n'pid' = 0x7\njson = true # both\n".toList
    let spoiled := "interval_ms = 0\nheadless = 1".toList
    let g : Given := { pid := some 7, json := some true }
    ofText text = ofText text' ∧ ofText text = .ok g.settings ∧
      ofText spoiled = .error .document := by
  intro text text' spoiled g
  have hparse : Toml.parse text = some [("json", .boolean true), ("pid", .integer 7),
    ("disk", .table .header [("pid", .integer (-1))])] := by rfl
  have hparse' : Toml.parse text' = some [("colors", .array [.string "red", .integer 8]),
    ("pid", .integer 7), ("json", .boolean true)] := by rfl
  have hparse'' : Toml.parse spoiled =
    some [("interval_ms", .integer 0), ("headless", .integer 1)] := by rfl
  obtain ⟨hsame, hsettings⟩ := eight_keys_are_the_document
  have hg : g.IsOf [("json", .boolean true), ("pid", .integer 7),
    ("disk", .table .header [("pid", .integer (-1))])] := by constructor <;> rfl
  have hvalid : g.settings.IsValid := ⟨by decide, by decide, by decide⟩
  refine ⟨hsame text text' _ _ hparse hparse' ?_, ?_, (hsettings spoiled _ hparse'').1 ?_⟩
  · intro key kind v hkey
    revert key kind
    rw [forall_keys_iff (P := fun key _ => _)]
    simp
  · exact (((hsettings text _ hparse).2.2 g hg).1 g.settings).mpr ⟨hvalid, rfl⟩
  · exact ⟨"headless", .truth, .integer 1, by simp [keys], by simp, by simp [Kind.Has]⟩

end Documents

end Settings

end IoWatch
