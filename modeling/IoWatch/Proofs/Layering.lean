import IoWatch.Proofs.SettingsFile
import IoWatch.Settings.Layers

/-!
# Layering

The settings of a session are layered: what the command line sets stands over what the settings file
gives, and that over what holds by default. The two truth values are joined instead. The file is
checked by itself before anything is laid over it.

## Main definitions

* `Settings.layered`: every setting of a command line over what a file gives
* `Settings.Below`: what lies below a command line and passes every check by itself
* `Settings.Refused`: the first fault among the layers

## Main results

* `Settings.override_settings`: a command line laid over what a file gives
* `Settings.ofFlags_eq_ok_iff`, `Settings.ofFlags_eq_error_iff`: the outcome of the layers
* `Settings.settings_are_layered`: the settings of a command line, whatever the files hold
-/

namespace IoWatch

namespace Settings

/-- The settings of a command line over what a file gives, over what holds by default. -/
def layered (f : Flags) (g : Given) : Settings where
  pid := f.pid <|> g.pid
  intervalMs := (f.intervalMs <|> g.intervalMs).getD 60000
  procRoot := (f.procRoot <|> g.procRoot.map Path.ofString).getD (Path.ofString "/proc")
  refreshMs := g.refreshMs.getD 500
  historySecs := g.historySecs.getD 60
  headless := f.headless || g.headless.getD false
  json := f.json || g.json.getD false
  logFile := f.logFile <|> g.logFile.map Path.ofString

section Files

variable (content : Path → Except Fault (List UInt8))

/-- What lies below a command line, given the bytes or the fault at each path: nothing, or what the
file that it names gives, if that passes every check by itself. -/
inductive Below (f : Flags) : Given → Prop
  | nothing (hconfig : f.config = none) : Below f {}
  | file {path : Path} {g : Given} (hconfig : f.config = some path)
      (hg : FileGives (content path) g) (hvalid : g.settings.IsValid) : Below f g

/-- The first fault among the layers. No flag mends a file; with nothing wrong below, only the
interval of the command line can be. -/
inductive Refused (f : Flags) : SettingsError → Prop
  | file {path : Path} {e : SettingsError} (hconfig : f.config = some path)
      (h : FileRefused path (content path) e) : Refused f e
  | interval {g : Given} (hbelow : Below content f g) (h : f.intervalMs = some 0) :
      Refused f (.zeroInterval "interval_ms")

end Files

variable {content : Path → Except Fault (List UInt8)} {f : Flags} {g : Given} {s : Settings}
  {e : SettingsError}

/-! ## One layer over another -/

theorem override_settings (f : Flags) (g : Given) : g.settings.override f = layered f g := by
  have hinterval : f.intervalMs.getD (g.intervalMs.getD 60000) =
      (f.intervalMs <|> g.intervalMs).getD 60000 := by
    cases f.intervalMs <;> rfl
  have hroot : f.procRoot.getD (Path.ofString (g.procRoot.getD "/proc")) =
      (f.procRoot <|> g.procRoot.map Path.ofString).getD (Path.ofString "/proc") := by
    cases f.procRoot <;> cases g.procRoot <;> rfl
  simp only [override, layered, Given.settings, hinterval, hroot, Bool.or_comm]

theorem isValid_standard : (Given.settings {}).IsValid := ⟨by decide, by decide, by decide⟩

theorem isValid_of_below (h : Below content f g) : g.settings.IsValid := by
  cases h with
  | nothing => exact isValid_standard
  | file _ _ hvalid => exact hvalid

theorem layered_intervalMs_eq_zero_iff (hg : g.settings.IsValid) :
    (layered f g).intervalMs = 0 ↔ f.intervalMs = some 0 := by
  rw [layered]
  cases f.intervalMs with
  | none =>
    apply iff_of_false
    · exact hg.intervalMs
    · intro h
      cases h
  | some n => exact Option.some_inj.symm

/-- Over settings that pass every check, the interval of the command line decides. -/
theorem isValid_layered_iff (hg : g.settings.IsValid) :
    (layered f g).IsValid ↔ f.intervalMs ≠ some 0 := by
  rw [Ne, ← layered_intervalMs_eq_zero_iff hg]
  constructor
  · exact IsValid.intervalMs
  · intro hinterval
    exact ⟨hinterval, hg.refreshMs, hg.historySecs⟩

/-- Only the file can break a rule: no other layer has the values that the rules are about. -/
theorem firstFault_layered_iff (hg : g.settings.IsValid) :
    (layered f g).FirstFault e ↔ f.intervalMs = some 0 ∧ e = .zeroInterval "interval_ms" := by
  rw [← layered_intervalMs_eq_zero_iff hg]
  constructor
  · intro h
    cases h with
    | intervalMs h => exact ⟨h, rfl⟩
    | refreshMs _ h => exact absurd h hg.refreshMs
    | historySecs _ _ h => exact absurd hg.historySecs h
  · rintro ⟨hinterval, rfl⟩
    exact .intervalMs hinterval

/-! ## All layers -/

theorem base_eq_ok_iff :
    base (fun p => textOf (content p)) f = .ok s ↔ ∃ g, Below content f g ∧ s = g.settings := by
  rw [base]
  cases hconfig : f.config with
  | none =>
    constructor
    · intro h
      exact ⟨{}, .nothing hconfig, (Except.ok.inj h).symm⟩
    · rintro ⟨g, hbelow, rfl⟩
      cases hbelow with
      | nothing => rfl
      | file hconfig' => cases hconfig.symm.trans hconfig'
  | some path =>
    show ofFile path (textOf (content path)) = .ok s ↔ _
    rw [ofFile_eq_ok_iff]
    constructor
    · rintro ⟨g, hg, hvalid, hs⟩
      exact ⟨g, .file hconfig hg hvalid, hs⟩
    · rintro ⟨g, hbelow, hs⟩
      cases hbelow with
      | nothing hconfig' => cases hconfig.symm.trans hconfig'
      | file hconfig' hg hvalid =>
        cases hconfig.symm.trans hconfig'
        exact ⟨g, hg, hvalid, hs⟩

theorem base_eq_error_iff :
    base (fun p => textOf (content p)) f = .error e ↔
      ∃ path, f.config = some path ∧ FileRefused path (content path) e := by
  rw [base]
  cases hconfig : f.config with
  | none => simp
  | some path =>
    show ofFile path (textOf (content path)) = .error e ↔ _
    rw [ofFile_eq_error_iff]
    constructor
    · intro h
      exact ⟨path, rfl, h⟩
    · rintro ⟨_, ⟨⟩, h⟩
      exact h

theorem ofFlags_eq_ok_iff :
    ofFlags (fun p => textOf (content p)) f = .ok s ↔
      ∃ g, Below content f g ∧ f.intervalMs ≠ some 0 ∧ s = layered f g := by
  rw [ofFlags, bind_eq_ok_iff]
  constructor
  · rintro ⟨_, hbase, h⟩
    obtain ⟨g, hbelow, rfl⟩ := base_eq_ok_iff.mp hbase
    rw [override_settings, checked_eq_ok_iff, isValid_layered_iff (isValid_of_below hbelow)] at h
    exact ⟨g, hbelow, h⟩
  · rintro ⟨g, hbelow, h⟩
    refine ⟨g.settings, base_eq_ok_iff.mpr ⟨g, hbelow, rfl⟩, ?_⟩
    rw [override_settings, checked_eq_ok_iff, isValid_layered_iff (isValid_of_below hbelow)]
    exact h

theorem ofFlags_eq_error_iff :
    ofFlags (fun p => textOf (content p)) f = .error e ↔ Refused content f e := by
  rw [ofFlags, bind_eq_error_iff]
  constructor
  · rintro (hbase | ⟨_, hbase, h⟩)
    · obtain ⟨path, hconfig, h⟩ := base_eq_error_iff.mp hbase
      exact .file hconfig h
    · obtain ⟨g, hbelow, rfl⟩ := base_eq_ok_iff.mp hbase
      rw [override_settings, checked_eq_error_iff,
        firstFault_layered_iff (isValid_of_below hbelow)] at h
      obtain ⟨hinterval, rfl⟩ := h
      exact .interval hbelow hinterval
  · intro h
    cases h with
    | file hconfig h => exact .inl (base_eq_error_iff.mpr ⟨_, hconfig, h⟩)
    | interval hbelow hinterval =>
      refine .inr ⟨_, base_eq_ok_iff.mpr ⟨_, hbelow, rfl⟩, ?_⟩
      rw [override_settings, checked_eq_error_iff, firstFault_layered_iff (isValid_of_below hbelow)]
      exact ⟨hinterval, rfl⟩

theorem exists_below_iff :
    (∃ g, Below content f g) ↔ f.config = none ∨
      ∃ path g, f.config = some path ∧ FileGives (content path) g ∧ g.settings.validate = .ok () := by
  simp only [validate_eq_ok_iff]
  constructor
  · rintro ⟨g, hbelow⟩
    cases hbelow with
    | nothing hconfig => exact .inl hconfig
    | file hconfig hg hvalid => exact .inr ⟨_, g, hconfig, hg, hvalid⟩
  · rintro (hconfig | ⟨path, g, hconfig, hg, hvalid⟩)
    · exact ⟨{}, .nothing hconfig⟩
    · exact ⟨g, .file hconfig hg hvalid⟩

/-! ## The outcome of the layers -/

/-- A command line has settings if the file that it names, if it names one, gives settings that pass
every check, and its own interval is not zero. They are its own over those of the file over what
holds by default, and pass every check. Otherwise the first fault among the layers is reported; one
that a check finds is the first in the order of the checks. -/
theorem settings_are_layered (content : Path → Except Fault (List UInt8)) (f : Flags) :
    ((∃ s, ofFlags (fun p => textOf (content p)) f = .ok s) ↔
      (f.config = none ∨ ∃ path g, f.config = some path ∧ FileGives (content path) g ∧
        g.settings.validate = .ok ()) ∧ f.intervalMs ≠ some 0) ∧
    (∀ s, ofFlags (fun p => textOf (content p)) f = .ok s →
      s.validate = .ok () ∧ ∃ g, Below content f g ∧ s = layered f g) ∧
    (∀ e, ofFlags (fun p => textOf (content p)) f = .error e ↔ Refused content f e) ∧
    ∀ s : Settings, (s.validate = .ok () ↔ s.IsValid) ∧
      ∀ e, s.validate = .error e ↔ s.FirstFault e := by
  refine ⟨?_, ?_, fun e => ofFlags_eq_error_iff,
    fun s => ⟨validate_eq_ok_iff, fun e => validate_eq_error_iff⟩⟩
  · rw [← exists_below_iff]
    constructor
    · rintro ⟨s, hs⟩
      obtain ⟨g, hbelow, hinterval, -⟩ := ofFlags_eq_ok_iff.mp hs
      exact ⟨⟨g, hbelow⟩, hinterval⟩
    · rintro ⟨⟨g, hbelow⟩, hinterval⟩
      exact ⟨_, ofFlags_eq_ok_iff.mpr ⟨g, hbelow, hinterval, rfl⟩⟩
  · intro s hs
    obtain ⟨g, hbelow, hinterval, rfl⟩ := ofFlags_eq_ok_iff.mp hs
    have hvalid := (isValid_layered_iff (isValid_of_below hbelow)).mpr hinterval
    exact ⟨hvalid.validate, g, hbelow, rfl⟩

/-- An interval of zero in a file is not mended by the interval of the command line. -/
example :
    ofFlags (fun _ => textOf (.ok (Utf8.encode "interval_ms = 0".toList)))
        { config := some (Path.ofString "monitor.toml"), intervalMs := some 250 } =
      .error (.zeroInterval "interval_ms") := by
  decide +kernel

end Settings

end IoWatch
