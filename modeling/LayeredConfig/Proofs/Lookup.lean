/-
  LayeredConfig.Proofs.Lookup

  Looking up a setting of a configuration.

  A setting holds what its section has under its name (`held_eq_ok_iff`).  There
  are two ways to fail, and the section comes first: where it is not there it is
  reported whatever the key, and only in one that is there is a key reported.
-/
import LayeredConfig.Configuration
import LayeredConfig.Proofs.Results

namespace LayeredConfig

namespace Configuration

variable {config : Configuration} {sectionName : Option String} {settings : SectionData}
  {key : String} {found : Held}

/-- A section is there if it is the global one or is listed. -/
theorem isSome_find?_iff :
    (config.data.find? sectionName).isSome = true ↔
      ∀ name ∈ sectionName, name ∈ config.sections := by
  cases sectionName with
  | none => simp [ConfigData.find?]
  | some name => simp [ConfigData.find?, sections, NameMap.mem_names_iff]

theorem sectionData_eq_ok_iff :
    config.sectionData sectionName = .ok settings ↔
      config.data.find? sectionName = some settings := by
  rw [sectionData]
  cases config.data.find? sectionName <;> simp

theorem held_eq_ok_iff :
    config.held key sectionName = .ok found ↔
      ∃ settings, config.data.find? sectionName = some settings
        ∧ settings.find? key = some found := by
  rw [held, bind_eq_ok_iff]
  refine exists_congr fun settings => ?_
  rw [sectionData_eq_ok_iff]
  cases settings.find? key <;> simp

theorem get_of_held (h : config.held key sectionName = .ok found) :
    config.get key sectionName = .ok found.value := by
  rw [get, h]
  rfl

theorem get_of_held_eq_error {e : ConfigError} (h : config.held key sectionName = .error e) :
    config.get key sectionName = .error e := by
  rw [get, h]
  rfl

/-- In a section that is not there nothing is found, whatever the key. -/
theorem get_of_section_eq_none (h : config.data.find? sectionName = none) (key : String) :
    config.get key sectionName = .error (.unknownSection (sectionName.getD "")) :=
  get_of_held_eq_error (bind_eq_error_iff.mpr (Or.inl (by rw [sectionData, h])))

theorem get_of_key_eq_none (hsection : config.data.find? sectionName = some settings)
    (hkey : settings.find? key = none) :
    config.get key sectionName = .error (.unknownSetting key sectionName) :=
  get_of_held_eq_error (bind_eq_error_iff.mpr
    (Or.inr ⟨settings, sectionData_eq_ok_iff.mpr hsection, by rw [hkey]⟩))

end Configuration

end LayeredConfig
