/-
  LayeredConfig.Proofs.InTurn

  Resolution against the layers laid over one another in turn.

  In turn the environment variables are laid over the files, and the overrides
  over what comes of that.  Resolution merges the variables and the overrides
  first.  Where the files have a table, the environment has something else and
  the overrides have a table again, it finds keys of the files that the variable
  hides in turn.  `resolve_eq_resolveInTurn_iff` says for which inputs the two
  are the same under every schema.
-/
import LayeredConfig.Proofs.Regrouping

namespace LayeredConfig

/-- The text that a setting holds in a section, if that is one. -/
def ConfigData.text? (data : ConfigData) (sectionName : Option String) (key : String) :
    Option String :=
  (data.find? sectionName).bind fun settings => (settings.find? key).bind fun held =>
    match held.value with
    | .string s => some s
    | _ => none

namespace Schema

variable {environment : Environment} {schema : Schema} {strict : Bool}

/-- The data of files with the environment variables over them and the overrides
    over both. -/
def resolveInTurn (environment : Environment) (schema : Schema) (strict : Bool)
    (files : List ConfigFile) (layers : RuntimeLayers) : Except ConfigError ConfigData := do
  let merged ← schema.mergeFiles strict files
  let merged := merged.overlay layers.variableDocument
  schema.buildData environment strict (merged.overlay layers.overrideDocument)

theorem resolveInTurn_eq_ok_iff {files : List ConfigFile} {layers : RuntimeLayers}
    {data : ConfigData} :
    schema.resolveInTurn environment strict files layers = .ok data ↔
      ∃ docs, files.mapM ConfigFile.document = .ok docs
        ∧ (∀ doc ∈ docs, schema.Admits strict doc)
        ∧ schema.buildData environment strict
            (Document.overlay (Document.overlay (Document.ofLayers docs) layers.variableDocument)
              layers.overrideDocument) = .ok data := by
  rw [resolveInTurn, bind_eq_ok_iff]
  constructor
  · rintro ⟨merged, hmerged, h⟩
    obtain ⟨docs, hdocs, hadmits, rfl⟩ := mergeFiles_eq_ok_iff.mp hmerged
    exact ⟨docs, hdocs, hadmits, h⟩
  · rintro ⟨docs, hdocs, hadmits, h⟩
    exact ⟨_, mergeFiles_eq_ok_iff.mpr ⟨docs, hdocs, hadmits, rfl⟩, h⟩

/-- Layers that regroup make the same data in turn. -/
theorem toOption_resolve_eq_of_regroups {files : List ConfigFile} {layers : RuntimeLayers}
    (hoverrides : layers.WellFormed)
    (h : ∀ merged, schema.mergeFiles strict files = .ok merged →
      schema.Regroups merged layers.variableDocument layers.overrideDocument) :
    (schema.resolve environment strict files layers).toOption
      = (schema.resolveInTurn environment strict files layers).toOption := by
  rw [resolve, resolveInTurn]
  cases hmerged : schema.mergeFiles strict files with
  | error e => rfl
  | ok merged =>
    obtain ⟨docs, hdocs, hadmits, rfl⟩ := mergeFiles_eq_ok_iff.mp hmerged
    have hfiles := ConfigFile.wellFormed_of_mapM hdocs
    have hmergedWf := Document.wellFormed_ofLayers hfiles
    have hvariables := layers.wellFormed_variableDocument
    have hagree := (h _ hmerged).agree hmergedWf hvariables hoverrides.overrideDocument
      (knowsSections_ofLayers hfiles hadmits)
    exact toOption_buildData_congr hagree (hmergedWf.overlay hoverrides.document)
      ((hmergedWf.overlay hvariables).overlay hoverrides.overrideDocument)

/-! ## A schema that tells documents apart -/

/-- A setting that takes any value: the key that is looked at takes a table as
    it is, and the others are made texts. -/
def probeSetting (key name : String) : Setting :=
  if name = key then ⟨name, .expression false, "", .null, []⟩
  else ⟨name, .string, "", .string "", []⟩

theorem name_probeSetting (key name : String) : (probeSetting key name).name = name := by
  rw [probeSetting]
  split <;> rfl

/-- The schema that has the keys of a document as its settings. -/
def probe (key : String) {doc : Document} (h : doc.Distinct) : Schema where
  settings := (Document.keys doc).map (probeSetting key)
  nodup := by
    have hnames : Setting.name ∘ probeSetting key = id := funext (name_probeSetting key)
    rw [List.map_map, hnames, List.map_id]
    exact h

theorem declares_probe {key name : String} {doc : Document} (h : doc.Distinct) :
    (probe key h).declares name = true ↔ name ∈ Document.keys doc := by
  have hnames : Setting.name ∘ probeSetting key = id := funext (name_probeSetting key)
  rw [declares_iff, probe, List.map_map, hnames, List.map_id]

theorem find?_probe {key name : String} {doc : Document} (h : doc.Distinct)
    (hname : name ∈ Document.keys doc) :
    (probe key h).find? name = some (probeSetting key name) := by
  have hmem : probeSetting key name ∈ (probe key h).settings := List.mem_map_of_mem hname
  have hfind := find?_of_mem hmem
  rwa [name_probeSetting] at hfind

theorem validate_probeSetting_self (environment : Environment) (key : String)
    (entries : Document) : (probeSetting key key).validate environment (.table entries)
      = .ok ⟨key, .expression false, .table entries⟩ := by
  simp [probeSetting, Setting.validate, TypeDesc.coerce, Guard.checkAll]

theorem validate_probeSetting_of_ne (environment : Environment) {key name : String}
    (h : name ≠ key) (v : Value) : (probeSetting key name).validate environment v
      = .ok ⟨name, .string, .string v.display⟩ := by
  simp [probeSetting, Setting.validate, TypeDesc.coerce, Guard.checkAll, h]

theorem admits_probe (strict : Bool) {key : String} {doc raw : Document} (h : doc.Distinct)
    (hkeys : ∀ name ∈ Document.keys raw, name ∈ Document.keys doc) :
    (probe key h).Admits strict raw := by
  have hdeclared : ∀ e ∈ raw, (probe key h).declares e.1 = true :=
    fun e he => (declares_probe h).mpr (hkeys e.1 (List.mem_map_of_mem he))
  refine ⟨fun e he => Or.inl (hdeclared e he), fun _ => List.flatMap_eq_nil_iff.mpr ?_⟩
  intro e he
  exact if_pos (hdeclared e he)

theorem validated?_probe_self (environment : Environment) {key : String} {doc : Document}
    (h : doc.Distinct) (hkey : key ∈ Document.keys doc) (entries : Document) :
    (probe key h).validated? environment key (.table entries)
      = some ⟨key, .expression false, .table entries⟩ :=
  validated?_eq_some_iff.mpr
    ⟨_, find?_probe h hkey, validate_probeSetting_self environment key entries⟩

theorem validated?_probe_of_ne (environment : Environment) {key name : String} {doc : Document}
    (h : doc.Distinct) (hmem : name ∈ Document.keys doc) (hname : name ≠ key) (v : Value) :
    (probe key h).validated? environment name v = some ⟨name, .string, .string v.display⟩ :=
  validated?_eq_some_iff.mpr
    ⟨_, find?_probe h hmem, validate_probeSetting_of_ne environment hname v⟩

/-- A document of no more keys makes data, in which the key that is looked at
    shows its table. -/
theorem exists_data_probe (environment : Environment) (strict : Bool) {key : String}
    {doc raw : Document} (h : doc.Distinct) (hraw : raw.Distinct)
    (hkeys : ∀ name, raw.binds name = true → name ∈ Document.keys doc)
    {entries : Document} (hkey : raw.find? key = some (.table entries)) :
    ∃ data, (probe key h).buildData environment strict raw = .ok data
      ∧ data.global.find? key = some ⟨key, .expression false, .table entries⟩ := by
  have hmem : ∀ name v, raw.find? name = some v → name ∈ Document.keys doc :=
    fun name v hfind => hkeys name (by rw [Document.binds, hfind]; rfl)
  have hself := validated?_probe_self environment h (hmem key _ hkey) entries
  have hok : ∃ data, (probe key h).buildData environment strict raw = .ok data := by
    refine (isOk_buildData_iff hraw).mpr ⟨fun name v hfind => ?_, fun name v hfind _ => ?_, ?_⟩
    · exact Or.inl ((declares_probe h).mpr (hmem name v hfind))
    · right
      by_cases hname : name = key
      · subst hname
        obtain rfl : v = .table entries := Option.some.inj (hfind.symm.trans hkey)
        rw [hself]
        rfl
      · rw [validated?_probe_of_ne environment h (hmem name v hfind) hname]
        rfl
    · -- all keys are settings, so no section is opened
      intro name entries hsection
      obtain ⟨v, hfind, -⟩ := Option.bind_eq_some_iff.mp hsection
      have hdeclared : (probe key h).declares name = true :=
        (declares_probe h).mpr (hmem name v hfind)
      rw [sectionOf_eq_none hdeclared] at hsection
      exact absurd hsection (by simp)
  obtain ⟨data, hdata⟩ := hok
  refine ⟨data, hdata, ?_⟩
  rw [find?_global_of_buildData hraw hdata, hkey]
  exact hself

/-- Both groupings have the same keys. -/
theorem binds_inTurn (docs : List Document) (layers : RuntimeLayers) (name : String) :
    (Document.overlay (Document.overlay (Document.ofLayers docs) layers.variableDocument)
        layers.overrideDocument).binds name
      = (Document.overlay (Document.ofLayers docs) layers.document).binds name := by
  have hfiles := Document.distinct_ofLayers docs
  have hvariables := layers.wellFormed_variableDocument.distinct
  have hoverrides := layers.distinct_overrideDocument
  rw [Document.binds_overlay (hfiles.overlay _) hoverrides,
    Document.binds_overlay hfiles hvariables,
    Document.binds_overlay hfiles layers.distinct_document, RuntimeLayers.document_eq,
    Document.binds_overlay hvariables hoverrides, Bool.or_assoc]

/-- Where a key does not regroup some schema tells the two apart, in both modes. -/
theorem exists_toOption_ne (environment : Environment) {files : List ConfigFile}
    {layers : RuntimeLayers} {docs : List Document}
    (hdocs : files.mapM ConfigFile.document = .ok docs) {key : String}
    (h : ¬Value.Regroups ((Document.ofLayers docs).find? key)
      (layers.variableDocument.find? key) (layers.overrideDocument.find? key)) :
    ∃ schema : Schema, ∀ strict, (schema.resolve environment strict files layers).toOption
      ≠ (schema.resolveInTurn environment strict files layers).toOption := by
  have hwellFormed := ConfigFile.wellFormed_of_mapM hdocs
  have hfiles := Document.distinct_ofLayers docs
  have hvariables := layers.wellFormed_variableDocument.distinct
  have hoverrides := layers.distinct_overrideDocument
  obtain ⟨entries, entries', hentries, hentries', hne⟩ :=
    Value.exists_tables_of_not_regroups h
  rw [← Document.find?_overlay_overlay_right hfiles hvariables hoverrides] at hentries
  rw [← Document.find?_overlay_overlay_left hfiles hvariables hoverrides] at hentries'
  have hdistinct := hfiles.overlay layers.document
  have hdistinct' := (hfiles.overlay layers.variableDocument).overlay layers.overrideDocument
  refine ⟨probe key hdistinct, fun strict heq => ?_⟩
  -- the files only have keys that the probe declares, so nothing fails before merging
  have hadmits : ∀ doc ∈ docs, (probe key hdistinct).Admits strict doc := by
    refine fun doc hdoc => admits_probe strict hdistinct fun name hname => ?_
    have hbinds : (Document.ofLayers docs).binds name = true :=
      (Document.binds_ofLayers (fun doc hdoc => (hwellFormed doc hdoc).distinct) name).mpr
        ⟨doc, hdoc, Document.binds_iff.mpr hname⟩
    rw [← Document.binds_iff, Document.binds_overlay hfiles layers.distinct_document, hbinds,
      Bool.true_or]
  obtain ⟨data, hdata, hheld⟩ := exists_data_probe environment strict hdistinct hdistinct
    (fun name hname => Document.binds_iff.mp hname) hentries
  obtain ⟨data', hdata', hheld'⟩ := exists_data_probe environment strict hdistinct hdistinct'
    (fun name hname => Document.binds_iff.mp (binds_inTurn docs layers name ▸ hname)) hentries'
  rw [resolve_eq_ok_iff.mpr ⟨docs, hdocs, hadmits, hdata⟩,
    resolveInTurn_eq_ok_iff.mpr ⟨docs, hdocs, hadmits, hdata'⟩] at heq
  obtain rfl : data = data' := Option.some.inj heq
  rw [hheld, Option.some.injEq, Held.mk.injEq, Value.table.injEq] at hheld'
  exact hne hheld'.2.2

/-! ## When the two are the same -/

/-- Resolution is the layering in turn under every schema for which the layers
    regroup, and under all schemas exactly if every key regroups. -/
theorem resolve_eq_resolveInTurn_iff (environment : Environment) (files : List ConfigFile)
    {layers : RuntimeLayers} (hoverrides : layers.WellFormed) :
    (∀ (schema : Schema) (strict : Bool),
        (∀ merged, schema.mergeFiles strict files = .ok merged →
          schema.Regroups merged layers.variableDocument layers.overrideDocument) →
        (schema.resolve environment strict files layers).toOption
          = (schema.resolveInTurn environment strict files layers).toOption)
      ∧ ((∀ (schema : Schema) (strict : Bool),
          (schema.resolve environment strict files layers).toOption
            = (schema.resolveInTurn environment strict files layers).toOption) ↔
        ∀ docs, files.mapM ConfigFile.document = .ok docs → ∀ key,
          Value.Regroups ((Document.ofLayers docs).find? key)
            (layers.variableDocument.find? key) (layers.overrideDocument.find? key)) := by
  refine ⟨fun schema strict h => toOption_resolve_eq_of_regroups hoverrides h,
    fun h docs hdocs key => ?_, fun h schema strict => ?_⟩
  · by_contra hplace
    obtain ⟨schema, hne⟩ := exists_toOption_ne environment hdocs hplace
    exact hne true (h schema true)
  · refine toOption_resolve_eq_of_regroups hoverrides fun merged hmerged => ?_
    obtain ⟨docs, hdocs, -, rfl⟩ := mergeFiles_eq_ok_iff.mp hmerged
    exact regroups_of_forall
      (Document.wellFormed_ofLayers (ConfigFile.wellFormed_of_mapM hdocs))
      layers.wellFormed_variableDocument hoverrides.overrideDocument (h docs hdocs)

/-- A section of which the environment and an override set the same key. -/
theorem resolve_eq_resolveInTurn_iff_server :
    let files : List ConfigFile := [⟨"a.toml", "[edge]\nhost = \"a\"\n"⟩]
    let layers : RuntimeLayers :=
      ⟨some "APP", [("APP__EDGE__PORT", "81")], [("edge.port", .int 90)]⟩
    layers.WellFormed
      ∧ (∀ (schema : Schema) (strict : Bool),
        (∀ merged, schema.mergeFiles strict files = .ok merged →
          schema.Regroups merged layers.variableDocument layers.overrideDocument) →
        (schema.resolve .empty strict files layers).toOption
          = (schema.resolveInTurn .empty strict files layers).toOption)
      ∧ ((∀ (schema : Schema) (strict : Bool),
          (schema.resolve .empty strict files layers).toOption
            = (schema.resolveInTurn .empty strict files layers).toOption) ↔
        ∀ docs, files.mapM ConfigFile.document = .ok docs → ∀ key,
          Value.Regroups ((Document.ofLayers docs).find? key)
            (layers.variableDocument.find? key) (layers.overrideDocument.find? key)) := by
  intro files layers
  have hoverrides : layers.WellFormed := by
    intro o ho
    obtain rfl := List.mem_singleton.mp ho
    exact .number (.int 90)
  exact ⟨hoverrides, resolve_eq_resolveInTurn_iff .empty files hoverrides⟩

/-- A variable named like a section hides the section of the file from the
    override in turn, but not in resolution. -/
theorem resolve_ne_resolveInTurn_server :
    (server.resolve .empty true [⟨"a.toml", "[edge]\nhost = \"a\"\n"⟩]
        ⟨some "APP", [("APP__EDGE", "x")], [("edge.port", .int 90)]⟩).toOption
      ≠ (server.resolveInTurn .empty true [⟨"a.toml", "[edge]\nhost = \"a\"\n"⟩]
        ⟨some "APP", [("APP__EDGE", "x")], [("edge.port", .int 90)]⟩).toOption := by
  intro heq
  have hresolve : (server.resolve .empty true [⟨"a.toml", "[edge]\nhost = \"a\"\n"⟩]
      ⟨some "APP", [("APP__EDGE", "x")], [("edge.port", .int 90)]⟩).toOption.bind
        (·.text? (some "edge") "host") = some "a" := by
    decide +kernel
  have hinTurn : (server.resolveInTurn .empty true [⟨"a.toml", "[edge]\nhost = \"a\"\n"⟩]
      ⟨some "APP", [("APP__EDGE", "x")], [("edge.port", .int 90)]⟩).toOption.bind
        (·.text? (some "edge") "host") = some "localhost" := by
    decide +kernel
  rw [heq, hinTurn] at hresolve
  simp at hresolve

end Schema

end LayeredConfig
