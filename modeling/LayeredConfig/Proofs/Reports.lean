/-
  LayeredConfig.Proofs.Reports

  Looking up one setting, listing a section, and the schema agree.

  Both ways of reading a configuration go through its sections, one by the name
  of a setting and the other by the settings of the schema in turn.  They agree
  since every section holds each setting and nothing else, which a load
  establishes and every update keeps.
-/
import LayeredConfig.Proofs.LastWriter
import LayeredConfig.Proofs.Lookup
import LayeredConfig.Report

namespace LayeredConfig

variable {environments : List Environment} {environment : Environment} {schema : Schema}
  {strict : Bool}

/-- A section that conforms holds something under a name if a setting has that
    name. -/
theorem SectionData.Conforms.isSome_find? {settings : SectionData}
    (h : SectionData.Conforms environments schema settings) (key : String) :
    (settings.find? key).isSome = schema.declares key := by
  rw [Bool.eq_iff_iff, ← NameMap.mem_names_iff, Schema.declares_iff]
  exact h.names.mem_iff

theorem forall₂_filterMap {α β : Type} {f : α → Option β} {R : α → β → Prop} {items : List α}
    (h : ∀ a ∈ items, ∃ b, f a = some b ∧ R a b) : List.Forall₂ R items (items.filterMap f) := by
  induction items with
  | nil => exact .nil
  | cons a items ih =>
    obtain ⟨⟨b, hb, hab⟩, hitems⟩ := List.forall_mem_cons.mp h
    rw [List.filterMap_cons_some hb]
    exact .cons hab (ih hitems)

namespace Configuration

variable {config : Configuration} {sectionName : Option String} {settings : SectionData}
  {key : String}

/-! ## Looking up -/

/-- What looking up comes to where the configuration conforms: the section is
    not there, or it is there and the key decides. -/
theorem get_cases (h : config.data.Conforms environments schema) (key : String)
    (sectionName : Option String) :
    (∃ name, sectionName = some name ∧ name ∉ config.sections
        ∧ config.get key sectionName = .error (.unknownSection name))
      ∨ ((∀ name ∈ sectionName, name ∈ config.sections) ∧ schema.declares key = true
        ∧ ∃ v, config.get key sectionName = .ok v)
      ∨ ((∀ name ∈ sectionName, name ∈ config.sections) ∧ schema.declares key = false
        ∧ config.get key sectionName = .error (.unknownSetting key sectionName)) := by
  cases hsection : config.data.find? sectionName with
  | none =>
    have hget := get_of_section_eq_none hsection key
    have habsent : ¬∀ name ∈ sectionName, name ∈ config.sections := by
      rw [← isSome_find?_iff, hsection]
      simp
    cases sectionName with
    | none => simp at habsent
    | some name => exact Or.inl ⟨name, rfl, by simpa using habsent, hget⟩
  | some settings =>
    have hlisted : ∀ name ∈ sectionName, name ∈ config.sections :=
      isSome_find?_iff.mp (by rw [hsection]; rfl)
    rw [← (h.sections sectionName settings hsection).isSome_find? key]
    cases hkey : settings.find? key with
    | none => exact Or.inr (Or.inr ⟨hlisted, rfl, get_of_key_eq_none hsection hkey⟩)
    | some held =>
      have hheld := held_eq_ok_iff.mpr ⟨settings, hsection, hkey⟩
      exact Or.inr (Or.inl ⟨hlisted, rfl, held.value, get_of_held hheld⟩)

/-- A key is found in a section that is there if a setting has that name. -/
theorem exists_get_eq_ok_iff (h : config.data.Conforms environments schema) :
    (∃ v, config.get key sectionName = .ok v) ↔
      (∀ name ∈ sectionName, name ∈ config.sections) ∧ schema.declares key = true := by
  rcases get_cases h key sectionName with
    ⟨name, rfl, habsent, hget⟩ | ⟨hlisted, hdeclared, hget⟩ | ⟨hlisted, hdeclared, hget⟩
  · simp [hget, habsent]
  · exact iff_of_true hget ⟨hlisted, hdeclared⟩
  · simp [hget, hdeclared]

/-- A section is reported where it is not there. -/
theorem get_eq_unknownSection_iff (h : config.data.Conforms environments schema) {name : String} :
    config.get key sectionName = .error (.unknownSection name) ↔
      sectionName = some name ∧ name ∉ config.sections := by
  rcases get_cases h key sectionName with
    ⟨other, rfl, habsent, hget⟩ | ⟨hlisted, -, v, hget⟩ | ⟨hlisted, -, hget⟩
  · rw [hget, Except.error.injEq, ConfigError.unknownSection.injEq, Option.some.injEq]
    exact ⟨fun heq => ⟨heq, heq ▸ habsent⟩, And.left⟩
  · exact iff_of_false (by simp [hget]) fun hand => hand.2 (hlisted name hand.1)
  · exact iff_of_false (by simp [hget]) fun hand => hand.2 (hlisted name hand.1)

/-- A key is reported, with its section, where that is there and no setting has
    the name. -/
theorem get_eq_unknownSetting_iff (h : config.data.Conforms environments schema) :
    config.get key sectionName = .error (.unknownSetting key sectionName) ↔
      (∀ name ∈ sectionName, name ∈ config.sections) ∧ schema.declares key = false := by
  rcases get_cases h key sectionName with
    ⟨name, rfl, habsent, hget⟩ | ⟨hlisted, hdeclared, v, hget⟩ | ⟨hlisted, hdeclared, hget⟩
  · simp [hget, habsent]
  · simp [hget, hdeclared]
  · exact iff_of_true hget ⟨hlisted, hdeclared⟩

/-! ## Listing -/

/-- An entry of a listing shows a setting: its name and the text of its value,
    which is the text that is shown for the setting alone, there with the type
    and the doc string that the setting was declared with. -/
def Shows (config : Configuration) (sectionName : Option String) (setting : Setting)
    (entry : String × String) : Prop :=
  ∃ v, config.get setting.name sectionName = .ok v
    ∧ entry = (setting.name, v.display)
    ∧ config.getReport setting.name sectionName = .ok (.setting setting.name sectionName
        v.display setting.type.name setting.doc)

/-- What a section holds for a setting makes an entry that shows the setting. -/
theorem exists_shows (hschema : config.schema = schema)
    (h : SectionData.Conforms environments schema settings)
    (hsection : config.data.find? sectionName = some settings) {setting : Setting}
    (hsetting : setting ∈ schema.settings) :
    ∃ held, settings.find? setting.name = some held
      ∧ config.Shows sectionName setting (held.name, held.value.display) := by
  obtain ⟨held, hheld, hconforms⟩ := h.held setting hsetting
  have hlookup := held_eq_ok_iff.mpr ⟨settings, hsection, hheld⟩
  refine ⟨held, hheld, held.value, get_of_held hlookup, by rw [hconforms.name], ?_⟩
  refine bind_eq_ok_iff.mpr ⟨held, hlookup, ?_⟩
  rw [hschema, Schema.find?_of_mem hsetting, hconforms.type]
  rfl

/-- Listing a section and looking up its settings agree, in the order of the
    schema. -/
theorem exists_listing (hschema : config.schema = schema)
    (h : SectionData.Conforms environments schema settings)
    (hsection : config.data.find? sectionName = some settings) :
    ∃ entries, config.listReport sectionName = .ok (.listing sectionName entries)
      ∧ List.Forall₂ (config.Shows sectionName) schema.settings entries := by
  refine ⟨_, bind_eq_ok_iff.mpr ⟨settings, sectionData_eq_ok_iff.mpr hsection, rfl⟩, ?_⟩
  rw [hschema]
  refine forall₂_filterMap fun setting hsetting => ?_
  obtain ⟨held, hheld, hshows⟩ := exists_shows hschema h hsection hsetting
  exact ⟨_, congrArg (Option.map _) hheld, hshows⟩

/-! ## Loading and updating -/

/-- Looking up, listing and the schema agree after a load and any calls for
    updates.  A key is found if the section is the global one or is listed and a
    setting has that name; otherwise the section is reported where it is not
    there, and the key with its section where it is.  Listing a section that is
    there shows each setting of the schema once, in the order of declaration and
    with the text that is shown for it alone, which comes with the type and the
    doc string of the setting. -/
theorem reports_of_load_and_run {files : List ConfigFile} {layers : RuntimeLayers}
    (h : Configuration.resolve environment schema strict files layers = .ok config)
    (calls : List (Environment × ConfigFile)) :
    let final := config.run calls
    (∀ key sectionName,
        ((∃ v, final.get key sectionName = .ok v) ↔
            (∀ name ∈ sectionName, name ∈ final.sections) ∧ schema.declares key = true)
          ∧ (∀ name, final.get key sectionName = .error (.unknownSection name) ↔
            sectionName = some name ∧ name ∉ final.sections)
          ∧ (final.get key sectionName = .error (.unknownSetting key sectionName) ↔
            (∀ name ∈ sectionName, name ∈ final.sections) ∧ schema.declares key = false))
      ∧ ∀ sectionName, (∀ name ∈ sectionName, name ∈ final.sections) →
          ∃ entries, final.listReport sectionName = .ok (.listing sectionName entries)
            ∧ List.Forall₂ (final.Shows sectionName) schema.settings entries := by
  intro final
  have hconforms := (conforms_of_load_and_run h calls).1
  have hschema : (config.run calls).schema = schema := by
    obtain ⟨data, hdata⟩ := exists_data_run config calls
    rw [hdata]
    exact (resolve_eq_ok_iff.mp h).2.1
  refine ⟨fun _ _ => ⟨exists_get_eq_ok_iff hconforms, fun _ => get_eq_unknownSection_iff hconforms,
    get_eq_unknownSetting_iff hconforms⟩, fun sectionName hlisted => ?_⟩
  obtain ⟨settings, hsection⟩ := Option.isSome_iff_exists.mp (isSome_find?_iff.mpr hlisted)
  exact exists_listing hschema (hconforms.sections sectionName settings hsection) hsection

/-- A server with one section in its file and another in an update, after one
    that the guard rejects. -/
theorem reports_of_server_run :
    let file : ConfigFile := ⟨"a.toml", "[edge]\nhost = \"a\"\n"⟩
    let calls : List (Environment × ConfigFile) :=
      [(.empty, ⟨"b.toml", "port = -1\n"⟩), (.empty, ⟨"c.toml", "[core]\nport = 9\n"⟩)]
    ∃ config, Configuration.resolve .empty .server true [file] ⟨none, [], []⟩ = .ok config
      ∧ let final := config.run calls
        final.sections = ["core", "edge"]
          ∧ final.get "port" (some "mesh") = .error (.unknownSection "mesh")
          ∧ final.get "user" (some "core") = .error (.unknownSetting "user" (some "core"))
          ∧ (∃ v, final.get "port" (some "core") = .ok v)
          ∧ ∃ entries, final.listReport (some "core") = .ok (.listing (some "core") entries)
            ∧ List.Forall₂ (final.Shows (some "core")) Schema.server.settings entries := by
  intro file calls
  have hruns : ((Configuration.resolve .empty .server true [file] ⟨none, [], []⟩).toOption.map
      fun config => (config.run calls).sections) = some ["core", "edge"] := by
    decide +kernel
  obtain ⟨config, hconfig, hsections⟩ := Option.map_eq_some_iff.mp hruns
  rw [toOption_eq_some_iff] at hconfig
  obtain ⟨hget, hlist⟩ := reports_of_load_and_run hconfig calls
  have hcore : ∀ name ∈ some "core", name ∈ (config.run calls).sections := by
    rintro name ⟨⟩
    rw [hsections]
    decide
  refine ⟨config, hconfig, hsections, ?_, ?_, ?_, hlist (some "core") hcore⟩
  · refine ((hget "port" (some "mesh")).2.1 "mesh").mpr ⟨rfl, ?_⟩
    rw [hsections]
    decide
  · exact (hget "user" (some "core")).2.2.mpr ⟨hcore, by decide⟩
  · exact (hget "port" (some "core")).1.mpr ⟨hcore, by decide⟩

end Configuration

end LayeredConfig
