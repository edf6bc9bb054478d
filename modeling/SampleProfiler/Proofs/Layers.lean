import SampleProfiler.CommandLine.Program
import SampleProfiler.Proofs.Persistence

/-!
# `SampleProfiler.Proofs.Layers` — settings from three places

Each setting of a run comes from the command line, or else from the settings file, or else it is the default. What is
checked is the outcome, but before that the file by itself, so a bad file is not mended by the command line. Both the
registry and the load plan that are made of the outcome check it once more; since these checks ask for nothing else,
they always pass, and a registry has the very bound that was asked for.

## Contents
- **The settings file.** `FileGives`, and `load_eq_ok_iff`.
- **Layers.** `Settings.value`, one setting, and `value_over`.
- **What is made of settings.** `bound_ofSettings` and `Load.Plan.capacity_of_zeroCapacity`.
- **`resolve_eq_ok_iff_layers`**, all of it.
-/

namespace SampleProfiler

/-! ## The settings file -/

namespace CommandLine

variable {read : String → Except FileFault String} {o : Options} {s : Settings}

/-- What the settings file of a command line gives: nothing if there is none, and else what the table in it holds, which
    has to be good over the defaults. -/
inductive FileGives (read : String → Except FileFault String) : Option String → Overrides → Prop where
  | nothing : FileGives read none {}
  | held {path text : String} {t : Toml.Table} {given : Overrides} :
      read path = .ok text → Toml.parse? text = some t → Settings.Held t given → (given.over {}).defect? = none →
      FileGives read (some path) given

theorem load_eq_ok_iff {path : String} :
    load read path = .ok s ↔ ∃ given, FileGives read (some path) given ∧ s = given.over {} := by
  unfold load
  constructor
  · intro hok
    split at hok
    · exact absurd hok (by simp)
    · next text hread =>
        obtain ⟨t, given, hparse, hheld, rfl, hgood⟩ := Settings.ofDocument_eq_ok_iff.mp hok
        exact ⟨given, .held hread hparse hheld hgood, rfl⟩
  · rintro ⟨given, hgives, rfl⟩
    cases hgives with
    | held hread hparse hheld hgood =>
        rw [hread]
        exact Settings.ofDocument_eq_ok_iff.mpr ⟨_, given, hparse, hheld, rfl, hgood⟩

/-- Whatever is wrong with the settings file ends the matter. -/
theorem resolve_of_load_error {path : String} {fault : Fault} (hconfig : o.config = some path)
    (hload : load read path = .error fault) :
    resolve read o = .error ⟨some ("Failed to load config from " ++ path), fault⟩ := by
  unfold resolve
  rw [hconfig]
  dsimp only
  rw [hload]

/-- The settings of a command line over others, checked. -/
def Options.over (o : Options) (base : Settings) : Except Failure Settings :=
  (o.overrides.over base).checked.mapError fun fault => ⟨some "Invalid collector configuration", fault⟩

theorem over_eq_ok_iff {base : Settings} :
    o.over base = .ok s ↔ s = o.overrides.over base ∧ s.defect? = none := by
  rw [← Settings.checked_eq_ok_iff, Options.over]
  cases (o.overrides.over base).checked <;> simp [Except.mapError]

theorem resolve_of_none (hconfig : o.config = none) : resolve read o = o.over {} := by
  unfold resolve Options.over
  rw [hconfig]
  dsimp only
  cases (o.overrides.over {}).checked <;> rfl

theorem resolve_of_load {path : String} {base : Settings} (hconfig : o.config = some path)
    (hload : load read path = .ok base) : resolve read o = o.over base := by
  unfold resolve Options.over
  rw [hconfig]
  dsimp only
  rw [hload]
  dsimp only
  cases (o.overrides.over base).checked <;> rfl

/-- **The settings of a run** are those of the command line over those of the file over the defaults. -/
theorem resolve_eq_ok_iff :
    resolve read o = .ok s ↔
      ∃ given, FileGives read o.config given ∧ s = o.overrides.over (given.over {}) ∧ s.defect? = none := by
  cases hconfig : o.config with
  | none =>
      rw [resolve_of_none hconfig, over_eq_ok_iff]
      constructor
      · rintro ⟨hs, hgood⟩
        exact ⟨{}, .nothing, hs, hgood⟩
      · rintro ⟨given, hgives, hs, hgood⟩
        cases hgives
        exact ⟨hs, hgood⟩
  | some path =>
      cases hload : load read path with
      | error fault =>
          -- whatever the file could give, it would have been loaded
          rw [resolve_of_load_error hconfig hload]
          constructor
          · intro hok
            exact absurd hok (by simp)
          · rintro ⟨given, hgives, _⟩
            rw [load_eq_ok_iff.mpr ⟨given, hgives, rfl⟩] at hload
            exact absurd hload (by simp)
      | ok base =>
          rw [resolve_of_load hconfig hload, over_eq_ok_iff]
          constructor
          · rintro ⟨hs, hgood⟩
            obtain ⟨given, hgives, rfl⟩ := load_eq_ok_iff.mp hload
            exact ⟨given, hgives, hs, hgood⟩
          · rintro ⟨given, hgives, hs, hgood⟩
            -- the file gives one base only
            rw [load_eq_ok_iff.mpr ⟨given, hgives, rfl⟩] at hload
            rw [← Except.ok.inj hload]
            exact ⟨hs, hgood⟩

end CommandLine

/-! ## Layers -/

namespace Settings

/-- One of the settings. -/
def value (s : Settings) : Setting → Nat
  | .capacity => s.capacity
  | .bound => s.bound

theorem ext_value {s s' : Settings} (h : ∀ setting, s.value setting = s'.value setting) : s = s' := by
  have hcapacity : s.capacity = s'.capacity := h .capacity
  have hbound : s.bound = s'.bound := h .bound
  cases s
  cases s'
  simp_all

/-- A setting is what the first layer that gives it says. -/
theorem value_over (o given : Overrides) (base : Settings) (setting : Setting) :
    (o.over (given.over base)).value setting
      = ((o.value? setting).or (given.value? setting)).getD (base.value setting) := by
  cases setting with
  | capacity =>
      show o.capacity.getD (given.capacity.getD base.capacity) = (o.capacity.or given.capacity).getD base.capacity
      cases o.capacity <;> rfl
  | bound =>
      show o.bound.getD (given.bound.getD base.bound) = (o.bound.or given.bound).getD base.bound
      cases o.bound <;> rfl

theorem eq_over_iff {s : Settings} (o given : Overrides) (base : Settings) :
    s = o.over (given.over base) ↔
      ∀ setting, s.value setting = ((o.value? setting).or (given.value? setting)).getD (base.value setting) := by
  constructor
  · rintro rfl setting
    exact value_over o given base setting
  · intro hvalues
    apply ext_value
    intro setting
    rw [hvalues, value_over]

end Settings

/-! ## What is made of settings -/

/-- A registry of good settings has their bound as it is. -/
theorem Registry.bound_ofSettings {s : Settings} (h : s.defect? = none) :
    ∃ r, Registry.ofSettings s = .ok r ∧ r.bound = s.bound := by
  obtain ⟨_, hbound⟩ := Settings.defect?_eq_none_iff.mp h
  refine ⟨.empty s.bound, ?_, Nat.max_eq_left hbound⟩
  rw [Registry.ofSettings, Settings.checked_eq_ok_iff.mpr ⟨rfl, h⟩]
  rfl

/-- A plan is only refused for its capacity if that is zero. -/
theorem Load.Plan.capacity_of_zeroCapacity {p : Load.Plan} (h : p.checked = .error (.invalid .zeroCapacity)) :
    p.capacity = 0 := by
  have hdefect : p.defect? = some .zeroCapacity := by
    unfold Load.Plan.checked at h
    split at h
    · next defect hdefect =>
        cases h
        exact hdefect
    · exact absurd h (by simp)
  -- of all the questions that are asked of a plan, one only leads to this defect
  unfold Load.Plan.defect? at hdefect
  split at hdefect
  · cases hdefect
  · split at hdefect
    · cases hdefect
    · split at hdefect
      · assumption
      · split at hdefect
        · cases hdefect
        · split at hdefect <;> cases hdefect

namespace CommandLine

/-- **Three layers of settings.** The settings of a run can be had exactly if the file gives some, should there be one,
    and the outcome is good; each of them is that of the command line, or else that of the file, or else the default.
    A file that is bad by itself is refused whatever the command line says. And of the settings that are had, a registry
    with their very bound can be made, and no plan with their capacity is refused for that. -/
theorem resolve_eq_ok_iff_layers (read : String → Except FileFault String) (o : Options) :
    (∀ s, resolve read o = .ok s ↔
      ∃ given, FileGives read o.config given ∧ s.defect? = none ∧
        ∀ setting, s.value setting
          = ((o.overrides.value? setting).or (given.value? setting)).getD (Settings.value {} setting)) ∧
    (∀ path text t given defect, o.config = some path → read path = .ok text → Toml.parse? text = some t →
      Settings.Held t given → (given.over {}).defect? = some defect →
        resolve read o = .error ⟨some ("Failed to load config from " ++ path), .invalid defect⟩) ∧
    ∀ s, resolve read o = .ok s →
      (∃ r, Registry.ofSettings s = .ok r ∧ r.bound = s.bound) ∧
      ∀ p : Load.Plan, p.capacity = s.capacity → p.checked ≠ .error (.invalid .zeroCapacity) := by
  refine ⟨fun s => ?_, ?_, ?_⟩
  · simp only [resolve_eq_ok_iff, Settings.eq_over_iff, and_comm]
  · -- the file is refused before the command line is looked at
    intro path text t given defect hconfig hread hparse hheld hdefect
    apply resolve_of_load_error hconfig
    have hdocument : Settings.ofDocument text = .error (.invalid defect) := by
      rw [Settings.ofDocument_of_held hparse hheld, Settings.checked, hdefect]
    rw [load, hread]
    exact hdocument
  · intro s hs
    obtain ⟨_, _, _, hgood⟩ := resolve_eq_ok_iff.mp hs
    refine ⟨Registry.bound_ofSettings hgood, fun p hp hrefused => ?_⟩
    have hzero := Load.Plan.capacity_of_zeroCapacity hrefused
    have hpos := (Settings.defect?_eq_none_iff.mp hgood).1
    omega

/-- One setting from the command line and the other one from a file; the same command line with a file that is bad by
    itself, although the bad setting is given on the command line. -/
theorem resolve_eq_ok_iff_layers_mixed :
    let good : String → Except FileFault String := fun _ => .ok "max_profiles = 3\n"
    let bad : String → Except FileFault String := fun _ => .ok "buffer_capacity = 0\n"
    let o : Options := { overrides := { capacity := some 7 }, config := some "settings.toml" }
    resolve good o = .ok ⟨7, 3⟩ ∧ (∃ r, Registry.ofSettings ⟨7, 3⟩ = .ok r ∧ r.bound = 3) ∧
      (o.plan ⟨7, 3⟩).checked ≠ .error (.invalid .zeroCapacity) ∧
      resolve bad o = .error ⟨some "Failed to load config from settings.toml", .invalid .zeroCapacity⟩ := by
  intro good bad o
  have hread : ∀ (setting : Setting) (n : Nat) (text : String), n ≤ 9223372036854775807 →
      Toml.Spells (Settings.keyed [(setting, n)]) text.toList →
      Toml.parse? text = some (Toml.integers (Settings.keyed [(setting, n)])) ∧
        Settings.Held (Toml.integers (Settings.keyed [(setting, n)])) (Settings.givenOf [(setting, n)]) := by
    intro setting n text hn hspells
    have hfits : ∀ entry ∈ [(setting, n)], entry.2 ≤ 9223372036854775807 := by simpa using hn
    exact ⟨Toml.parse?_of_spells hspells (Settings.writable_keyed hfits) (Settings.nodup_keyed (by simp)),
      Settings.held_integers hfits⟩
  obtain ⟨hgood, hheld⟩ := hread .bound 3 "max_profiles = 3\n" (by decide) (.next ("max_profiles", 3) .nothing)
  obtain ⟨hbad, hzero⟩ := hread .capacity 0 "buffer_capacity = 0\n" (by decide) (.next ("buffer_capacity", 0) .nothing)
  obtain ⟨hlayers, _, hmade⟩ := resolve_eq_ok_iff_layers good o
  obtain ⟨_, hrefused, _⟩ := resolve_eq_ok_iff_layers bad o
  have hresolved : resolve good o = .ok ⟨7, 3⟩ := by
    refine (hlayers ⟨7, 3⟩).mpr ⟨_, .held rfl hgood hheld rfl, rfl, ?_⟩
    intro setting
    cases setting <;> rfl
  obtain ⟨hregistry, hplan⟩ := hmade ⟨7, 3⟩ hresolved
  exact ⟨hresolved, hregistry, hplan (o.plan ⟨7, 3⟩) rfl,
    hrefused "settings.toml" _ _ _ .zeroCapacity rfl rfl hbad hzero rfl⟩

end CommandLine

end SampleProfiler
