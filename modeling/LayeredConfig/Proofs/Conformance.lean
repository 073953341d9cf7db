/-
  LayeredConfig.Proofs.Conformance

  Configurations hold what their schema says, however they were updated.

  `ConfigData.Conforms` is the invariant: every section holds each setting of
  the schema and nothing else, every value is a default or was coerced and
  checked, and no section is named like a setting.  Data built from any document
  conforms, whatever its keys are, so loading establishes the invariant; laying
  conforming sections over conforming ones keeps it.
-/
import LayeredConfig.Proofs.Updates

namespace LayeredConfig

/-! ## The invariant -/

/-- A setting is held under its own name and type, and its value is the default
    or what some raw value was coerced into, once it had passed every guard.
    The process environments are those that coercion and guards may have
    seen. -/
structure Held.Conforms (environments : List Environment) (setting : Setting) (held : Held) :
    Prop where
  name : held.name = setting.name
  type : held.type = setting.type
  value : held.value = setting.default
    ∨ ∃ environment ∈ environments, ∃ raw,
        setting.type.coerce environment raw = .ok held.value
          ∧ ∀ guard ∈ setting.guards, guard.passes environment held.value = .ok true

/-- A section holds every setting of a schema under its name, each once, and has
    no other key. -/
structure SectionData.Conforms (environments : List Environment) (schema : Schema)
    (data : SectionData) : Prop where
  names : data.names.Perm (schema.settings.map Setting.name)
  held : ∀ setting ∈ schema.settings, ∃ held,
    data.find? setting.name = some held ∧ held.Conforms environments setting

/-- There is a global section, all sections conform, and none is named like a
    setting. -/
structure ConfigData.Conforms (environments : List Environment) (schema : Schema)
    (data : ConfigData) : Prop where
  global : (data.find? none).isSome = true
  named : ∀ name ∈ data.named.names, schema.declares name = false
  sections : ∀ sectionName settings, data.find? sectionName = some settings →
    SectionData.Conforms environments schema settings

variable {environment : Environment} {environments others : List Environment} {schema : Schema}
  {strict : Bool}

theorem Held.Conforms.mono {setting : Setting} {held : Held}
    (h : held.Conforms environments setting) (hsub : environments ⊆ others) :
    held.Conforms others setting := by
  refine ⟨h.name, h.type, ?_⟩
  rcases h.value with hdefault | ⟨environment, hmem, hcoerced⟩
  · exact Or.inl hdefault
  · exact Or.inr ⟨environment, hsub hmem, hcoerced⟩

theorem SectionData.Conforms.mono {data : SectionData}
    (h : SectionData.Conforms environments schema data) (hsub : environments ⊆ others) :
    SectionData.Conforms others schema data := by
  refine ⟨h.names, fun setting hsetting => ?_⟩
  obtain ⟨held, hfind, hheld⟩ := h.held setting hsetting
  exact ⟨held, hfind, hheld.mono hsub⟩

theorem ConfigData.Conforms.mono {data : ConfigData}
    (h : data.Conforms environments schema) (hsub : environments ⊆ others) :
    data.Conforms others schema :=
  ⟨h.global, h.named, fun name data hfind => (h.sections name data hfind).mono hsub⟩

/-! ## Single settings -/

theorem Setting.conforms_held (environments : List Environment) (setting : Setting) :
    setting.held.Conforms environments setting :=
  ⟨rfl, rfl, Or.inl rfl⟩

theorem Setting.conforms_of_validate {setting : Setting} {raw : Value} {held : Held}
    (h : setting.validate environment raw = .ok held) :
    held.Conforms [environment] setting := by
  obtain ⟨v, hcoerce, hguards, rfl⟩ := Setting.validate_eq_ok_iff.mp h
  exact ⟨rfl, rfl, Or.inr ⟨environment, List.mem_singleton.mpr rfl, raw, hcoerce, hguards⟩⟩

/-! ## Data of a document -/

namespace Schema

/-- Seeding with the defaults gives every setting something to hold, and what
    replaces it has been validated. -/
theorem conforms_of_sectionData {sectionName : Option String} {raw : Document}
    {data : SectionData}
    (h : schema.sectionData environment strict sectionName raw = .ok data) :
    SectionData.Conforms [environment] schema data := by
  obtain ⟨-, rfl⟩ := sectionData_eq_ok_iff.mp h
  -- a name that is bound is the name of a setting
  have hentry : ∀ name held, (name, held) ∈ raw.filterMap (fun e =>
      (schema.validated? environment e.1 e.2).map (e.1, ·)) →
      ∃ setting, schema.find? name = some setting ∧ held.Conforms [environment] setting := by
    intro name held hmem
    obtain ⟨⟨key, v⟩, -, hvalidated⟩ := List.mem_filterMap.mp hmem
    obtain ⟨held', hheld, heq⟩ := Option.map_eq_some_iff.mp hvalidated
    obtain ⟨rfl, rfl⟩ := Prod.mk.inj heq
    obtain ⟨setting, hfind, hvalidate⟩ := validated?_eq_some_iff.mp hheld
    exact ⟨setting, hfind, Setting.conforms_of_validate hvalidate⟩
  refine ⟨?_, fun setting hsetting => ?_⟩
  · refine (List.perm_ext_iff_of_nodup (NameMap.nodup_names _) schema.nodup).mpr fun name => ?_
    rw [NameMap.mem_names_iff, NameMap.isSome_find?_insertAll, ← declares_iff, find?_defaults,
      Option.isSome_map]
    constructor
    · rintro (hmem | hdeclared)
      · obtain ⟨⟨key, held⟩, hheld, rfl⟩ := List.mem_map.mp hmem
        obtain ⟨setting, hfind, -⟩ := hentry key held hheld
        simp [declares, hfind]
      · exact hdeclared
    · exact Or.inr
  · have hsome : ((schema.defaults.insertAll (raw.filterMap fun e =>
        (schema.validated? environment e.1 e.2).map (e.1, ·))).find? setting.name).isSome
        = true := by
      rw [NameMap.isSome_find?_insertAll, find?_defaults, find?_of_mem hsetting]
      exact Or.inr rfl
    obtain ⟨held, hheld⟩ := Option.isSome_iff_exists.mp hsome
    refine ⟨held, hheld, ?_⟩
    rcases NameMap.mem_or_find?_of_insertAll hheld with hmem | hdefault
    · obtain ⟨other, hfind, hconforms⟩ := hentry _ held hmem
      obtain rfl : setting = other := by simpa [find?_of_mem hsetting] using hfind
      exact hconforms
    · rw [find?_defaults, find?_of_mem hsetting, Option.map_some, Option.some.injEq] at hdefault
      exact hdefault ▸ Setting.conforms_held [environment] setting

/-- The data of any document conforms, in either mode. -/
theorem conforms_of_buildData {raw : Document} {data : ConfigData}
    (h : schema.buildData environment strict raw = .ok data) :
    data.Conforms [environment] schema := by
  obtain ⟨-, hglobal, named, hnamed, heq⟩ := buildData_eq_ok_iff.mp h
  obtain ⟨-, rfl⟩ := namedSections_eq_ok_iff.mp hnamed
  -- every named section was opened by a table that no setting has the key of
  have hsection : ∀ name settings, data.named.find? name = some settings →
      schema.declares name = false ∧ SectionData.Conforms [environment] schema settings := by
    intro name settings hfind
    rw [heq, NameMap.ofList] at hfind
    rcases NameMap.mem_or_find?_of_insertAll hfind with hmem | hnone
    · obtain ⟨⟨key, entries⟩, hopened, hdata⟩ := List.mem_filterMap.mp hmem
      obtain ⟨other, hother, heq⟩ := Option.map_eq_some_iff.mp hdata
      obtain ⟨rfl, rfl⟩ := Prod.mk.inj heq
      obtain ⟨⟨top, v⟩, -, hv⟩ := List.mem_filterMap.mp hopened
      obtain ⟨table, htable, heq⟩ := Option.map_eq_some_iff.mp hv
      obtain ⟨rfl, rfl⟩ := Prod.mk.inj heq
      exact ⟨(opened?_eq_some_iff.mp htable).1,
        conforms_of_sectionData (toOption_eq_some_iff.mp hother)⟩
    · simp at hnone
  refine ⟨rfl, fun name hname => ?_, fun sectionName settings hfind => ?_⟩
  · obtain ⟨settings, hfind⟩ := Option.isSome_iff_exists.mp (NameMap.mem_names_iff.mp hname)
    exact (hsection name settings hfind).1
  · cases sectionName with
    | none =>
      obtain rfl : data.global = settings := Option.some.inj hfind
      exact conforms_of_sectionData hglobal
    | some name => exact (hsection name settings hfind).2

end Schema

/-! ## Updates -/

/-- Conforming sections laid over conforming ones, in place of the global section
    and of those of their names. -/
theorem ConfigData.Conforms.splice {data fresh : ConfigData}
    (h : data.Conforms environments schema) (hfresh : fresh.Conforms environments schema) :
    ConfigData.Conforms environments schema
      ⟨fresh.global, data.named.insertAll fresh.named.entries⟩ := by
  refine ⟨rfl, fun name hname => ?_, fun sectionName settings hfind => ?_⟩
  · rcases NameMap.isSome_find?_insertAll.mp (NameMap.mem_names_iff.mp hname) with hmem | hsome
    · exact hfresh.named name hmem
    · exact h.named name (NameMap.mem_names_iff.mpr hsome)
  · cases sectionName with
    | none => exact hfresh.sections none settings hfind
    | some name =>
      have hfind : (data.named.insertAll fresh.named.entries).find? name = some settings := hfind
      rw [NameMap.find?_insertAll_entries, Option.or_eq_some_iff] at hfind
      rcases hfind with hnew | ⟨-, hold⟩
      · exact hfresh.sections (some name) settings hnew
      · exact h.sections (some name) settings hold

namespace Configuration

variable {config updated : Configuration}

theorem conforms_of_update {file : ConfigFile}
    (h : config.data.Conforms environments config.schema)
    (hupdate : config.update environment file = .ok updated) :
    updated.data.Conforms (environments ++ [environment]) config.schema := by
  obtain ⟨doc, fresh, -, -, hfresh, rfl⟩ := update_eq_ok_iff.mp hupdate
  have hbuilt := Schema.conforms_of_buildData hfresh
  exact (h.mono (List.subset_append_left _ _)).splice (hbuilt.mono (List.subset_append_right _ _))

/-- What a run of updates preserves. -/
theorem conforms_run (h : config.data.Conforms environments config.schema)
    (calls : List (Environment × ConfigFile)) :
    (config.run calls).data.Conforms (environments ++ calls.map Prod.fst) config.schema := by
  -- each call adds its environment to those that values may come from
  induction calls generalizing config environments with
  | nil => simpa [run] using h
  | cons call calls ih =>
    rw [run_cons]
    have hschema := schema_attempt call.1 config call.2
    have hstep : (config.attempt call.1 call.2).data.Conforms (environments ++ [call.1])
        (config.attempt call.1 call.2).schema := by
      rw [hschema]
      rcases attempt_cases call.1 config call.2 with hupdate | hsame
      · exact conforms_of_update h hupdate
      · rw [hsame]
        exact h.mono (List.subset_append_left _ _)
    have hrun := ih hstep
    rw [hschema, List.append_assoc] at hrun
    exact hrun

/-- A loaded configuration conforms to its schema after any calls for updates,
    whichever of them fail, and every section that was there at some time is
    there at the end. -/
theorem conforms_of_load_and_run {files : List ConfigFile} {layers : RuntimeLayers}
    (h : Configuration.resolve environment schema strict files layers = .ok config)
    (calls : List (Environment × ConfigFile)) :
    (config.run calls).data.Conforms (environment :: calls.map Prod.fst) schema
      ∧ ∀ earlier later, calls = earlier ++ later → ∀ name,
          (config.run earlier).hasSection name = true →
            (config.run calls).hasSection name = true := by
  obtain ⟨hdata, rfl, -, -⟩ := resolve_eq_ok_iff.mp h
  obtain ⟨docs, -, -, hbuild⟩ := Schema.resolve_eq_ok_iff.mp hdata
  refine ⟨conforms_run (Schema.conforms_of_buildData hbuild) calls, ?_⟩
  rintro earlier later rfl name hname
  rw [run_append]
  exact hasSection_run hname later

/-- A server that is updated by a file that the guard rejects and by one that it
    accepts. -/
theorem conforms_of_server_run :
    ∃ config, Configuration.resolve (.ofVariables [("APP__EDGE__PORT", "81")]) .server true
        [⟨"a.toml", "port = 8080\n[edge]\nhost = \"a\"\n"⟩]
        ⟨some "APP", [("APP__EDGE__PORT", "81")], [("core.host", .string "b")]⟩ = .ok config
      ∧ let calls : List (Environment × ConfigFile) :=
          [(.empty, ⟨"b.toml", "port = -1\n"⟩), (.empty, ⟨"c.toml", "[mesh]\nport = 9\n"⟩)]
        (config.run calls).data.Conforms
            [.ofVariables [("APP__EDGE__PORT", "81")], .empty, .empty] .server
          ∧ ∀ earlier later, calls = earlier ++ later → ∀ name,
              (config.run earlier).hasSection name = true →
                (config.run calls).hasSection name = true := by
  have hloads : (Configuration.resolve (.ofVariables [("APP__EDGE__PORT", "81")]) .server true
      [⟨"a.toml", "port = 8080\n[edge]\nhost = \"a\"\n"⟩]
      ⟨some "APP", [("APP__EDGE__PORT", "81")], [("core.host", .string "b")]⟩).toOption.isSome
        = true := by
    decide +kernel
  obtain ⟨config, hconfig⟩ := Option.isSome_iff_exists.mp hloads
  rw [toOption_eq_some_iff] at hconfig
  refine ⟨config, hconfig, ?_⟩
  intro calls
  exact conforms_of_load_and_run hconfig calls

end Configuration

end LayeredConfig
