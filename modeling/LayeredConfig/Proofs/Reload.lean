/-
  LayeredConfig.Proofs.Reload

  Updating a configuration against loading it afresh.

  A load lays all of the runtime layers over the files, and an update only those
  keys of them that are settings or sections of the new file.  For these keys the
  two merged documents are bound to the same, and the others are left out of the
  update (`find?_overlay_layersFor`).  So what the update makes anew is what the
  load would make, and what it leaves alone are the sections that the file does
  not mention.
-/
import LayeredConfig.Proofs.Agreement
import LayeredConfig.Proofs.Conformance

namespace LayeredConfig

namespace Configuration

variable {environment : Environment} {schema : Schema} {strict : Bool} {config : Configuration}

/-! ## The layers of an update -/

/-- Whether an update by a document concerns a key. -/
def concerns (config : Configuration) (doc : Document) (key : String) : Bool :=
  config.schema.declares key || doc.binds key

theorem layersFor_eq (config : Configuration) (doc : Document) :
    config.layersFor doc = config.layers.filter fun e => config.concerns doc e.1 := rfl

/-- The keys that an update concerns are bound as if all layers were there, and
    the others are not bound. -/
theorem find?_overlay_layersFor {doc : Document} (hdoc : doc.Distinct)
    (hlayers : config.layers.Distinct) (key : String) :
    Document.find? key (Document.overlay doc (config.layersFor doc))
      = if config.concerns doc key then Document.find? key (Document.overlay doc config.layers)
        else none := by
  rw [layersFor_eq, Document.find?_overlay hdoc (hlayers.filter _),
    Document.find?_overlay hdoc hlayers,
    Document.find?_filter (config.concerns doc)]
  by_cases hkey : config.concerns doc key = true
  · rw [if_pos hkey, if_pos hkey]
  · have hnone : Document.find? key doc = none := by
      rw [concerns, Bool.or_eq_true, not_or] at hkey
      simpa [Document.binds] using hkey.2
    rw [if_neg hkey, if_neg hkey, hnone]
    rfl

/-- A section that an update concerns is opened as if all layers were there. -/
theorem sectionOf_overlay_layersFor {doc : Document} (hdoc : doc.Distinct)
    (hlayers : config.layers.Distinct) (name : String) :
    config.schema.sectionOf (Document.overlay doc (config.layersFor doc)) name
      = if doc.binds name then
          config.schema.sectionOf (Document.overlay doc config.layers) name
        else none := by
  by_cases hname : config.schema.declares name = true
  · rw [Schema.sectionOf_eq_none hname, Schema.sectionOf_eq_none hname, ite_self]
  · rw [Schema.sectionOf, find?_overlay_layersFor hdoc hlayers]
    rw [Bool.not_eq_true] at hname
    rw [concerns, hname, Bool.false_or]
    split
    · rfl
    · rfl

/-- Whatever resolves with all layers resolves with those that an update
    concerns. -/
theorem exists_data_layersFor {doc : Document} (hdoc : doc.Distinct)
    (hlayers : config.layers.Distinct) {fresh : ConfigData}
    (h : config.schema.buildData environment strict (Document.overlay doc config.layers)
      = .ok fresh) :
    ∃ data, config.schema.buildData environment strict
        (Document.overlay doc (config.layersFor doc)) = .ok data
      ∧ data.global = fresh.global
      ∧ ∀ name, data.named.find? name
          = if doc.binds name then fresh.named.find? name else none := by
  have hfull := hdoc.overlay config.layers
  have hpart := hdoc.overlay (config.layersFor doc)
  have hfind : ∀ key v,
      Document.find? key (Document.overlay doc (config.layersFor doc)) = some v →
        Document.find? key (Document.overlay doc config.layers) = some v := by
    intro key v hfind
    rw [find?_overlay_layersFor hdoc hlayers, Option.ite_none_right_eq_some] at hfind
    exact hfind.2
  -- every check that the smaller document has to pass was passed by the full one
  obtain ⟨hfits, haccepts, hsections⟩ := (Schema.isOk_buildData_iff hfull).mp ⟨fresh, h⟩
  have hok : ∃ data, config.schema.buildData environment strict
      (Document.overlay doc (config.layersFor doc)) = .ok data := by
    refine (Schema.isOk_buildData_iff hpart).mpr ⟨?_, ?_, ?_⟩
    · exact fun key v hkey => hfits key v (hfind key v hkey)
    · exact fun key v hkey => haccepts key v (hfind key v hkey)
    · intro name entries hsection
      rw [sectionOf_overlay_layersFor hdoc hlayers, Option.ite_none_right_eq_some] at hsection
      exact hsections name entries hsection.2
  obtain ⟨data, hdata⟩ := hok
  refine ⟨data, hdata, ?_, fun name => ?_⟩
  · refine Schema.global_eq_of_buildData hpart hfull hdata h fun key hkey => ?_
    rw [find?_overlay_layersFor hdoc hlayers, concerns, hkey, Bool.true_or, if_pos rfl]
  · rw [Schema.find?_named_of_buildData hpart hdata, Schema.find?_named_of_buildData hfull h,
      sectionOf_overlay_layersFor hdoc hlayers]
    split
    · rfl
    · rfl

/-! ## Updates and loads -/

/-- What resolves from one file. -/
theorem exists_document_of_resolve {file : ConfigFile} {layers : RuntimeLayers}
    {fresh : ConfigData} (h : schema.resolve environment strict [file] layers = .ok fresh) :
    ∃ doc, file.document = .ok doc ∧ schema.Admits strict doc
      ∧ schema.buildData environment strict (Document.overlay doc layers.document)
        = .ok fresh := by
  rw [Schema.resolve, bind_eq_ok_iff] at h
  obtain ⟨doc, hmerged, hbuild⟩ := h
  obtain ⟨hdoc, hadmits⟩ := Schema.mergeFiles_singleton_eq_ok_iff.mp hmerged
  exact ⟨doc, hdoc, hadmits, hbuild⟩

/-- A name that a document binds is a section of what the document makes, or a
    setting, and then no section that was there before. -/
theorem find?_or_of_binds {doc : Document} (hdoc : doc.Distinct)
    (hlayers : config.layers.Distinct) {fresh : ConfigData}
    (hfresh : config.schema.buildData environment strict (Document.overlay doc config.layers)
      = .ok fresh)
    (hconforms : config.data.Conforms [environment] config.schema) {name : String}
    (hname : doc.binds name = true) :
    (fresh.named.find? name).or (config.data.named.find? name) = fresh.named.find? name := by
  cases hfind : fresh.named.find? name with
  | some settings => rfl
  | none =>
    -- without a section of its own the name is that of a setting
    rw [Option.none_or, ← Option.not_isSome_iff_eq_none, ← NameMap.mem_names_iff]
    intro hmem
    have hfreshMem : name ∈ fresh.named.names := by
      rw [Schema.mem_names_of_buildData (hdoc.overlay config.layers) hfresh,
        Document.binds_overlay hdoc hlayers, hname]
      exact ⟨hconforms.named name hmem, rfl⟩
    rw [NameMap.mem_names_iff, hfind] at hfreshMem
    exact absurd hfreshMem (by simp)

/-- What an update by a document makes, where the document with all layers makes
    `fresh`. -/
theorem exists_update {file : ConfigFile} {doc : Document} (hdoc : file.document = .ok doc)
    (hadmits : config.schema.Admits config.strict doc) (hlayers : config.layers.Distinct)
    (hconforms : config.data.Conforms [environment] config.schema) {fresh : ConfigData}
    (hfresh : config.schema.buildData environment config.strict
      (Document.overlay doc config.layers) = .ok fresh) :
    ∃ data : ConfigData, config.update environment file = .ok { config with data := data }
      ∧ data.global = fresh.global
      ∧ (∀ name, doc.binds name = true → data.named.find? name = fresh.named.find? name)
      ∧ ∀ name, doc.binds name = false →
          data.named.find? name = config.data.named.find? name := by
  have hdistinct := (ConfigFile.wellFormed_of_document hdoc).distinct
  obtain ⟨data, hpart, hglobal, hnamed⟩ := exists_data_layersFor hdistinct hlayers hfresh
  have hfind := NameMap.find?_insertAll_entries config.data.named data.named
  refine ⟨⟨data.global, config.data.named.insertAll data.named.entries⟩,
    update_eq_ok_iff.mpr ⟨doc, data, hdoc, hadmits, hpart, rfl⟩, hglobal, ?_, ?_⟩
  · intro name hname
    rw [hfind, hnamed, if_pos hname]
    exact find?_or_of_binds hdistinct hlayers hfresh hconforms hname
  · intro name hname
    rw [hfind, hnamed, hname]
    rfl

/-- An update by a file that resolves by itself under the layers of the load:
    the global section and the sections that the file mentions are those of the
    file loaded by itself, and the other sections stay as they are.  The file
    that a configuration was loaded from changes nothing. -/
theorem update_agrees_with_load {files : List ConfigFile} {layers : RuntimeLayers}
    {file : ConfigFile} {fresh : ConfigData}
    (hload : Configuration.resolve environment schema strict files layers = .ok config)
    (hfresh : schema.resolve environment strict [file] layers = .ok fresh) :
    ∃ doc updated, file.document = .ok doc
      ∧ config.update environment file = .ok updated
      ∧ updated.data.global = fresh.global
      ∧ (∀ name, doc.binds name = true →
          updated.data.named.find? name = fresh.named.find? name)
      ∧ (∀ name, doc.binds name = false →
          updated.data.named.find? name = config.data.named.find? name)
      ∧ ∀ path, files = [⟨path, file.content⟩] → updated = config := by
  obtain ⟨hdata, rfl, hlayers, rfl⟩ := resolve_eq_ok_iff.mp hload
  obtain ⟨docs, -, -, hloaded⟩ := Schema.resolve_eq_ok_iff.mp hdata
  obtain ⟨doc, hdoc, hadmits, hbuild⟩ := exists_document_of_resolve hfresh
  have hdistinct : config.layers.Distinct := hlayers ▸ layers.distinct_document
  rw [← hlayers] at hbuild
  obtain ⟨data, hupdate, hglobal, hmentioned, hothers⟩ :=
    exists_update hdoc hadmits hdistinct (Schema.conforms_of_buildData hloaded) hbuild
  refine ⟨doc, { config with data := data }, hdoc, hupdate, hglobal, hmentioned, hothers, ?_⟩
  -- loaded from this file alone, the configuration holds what the file makes anew
  rintro path rfl
  obtain ⟨doc', hdoc', -, hbuild'⟩ := exists_document_of_resolve hdata
  rw [ConfigFile.document_eq_ok_iff] at hdoc hdoc'
  obtain rfl : doc' = doc := Option.some.inj (hdoc'.symm.trans hdoc)
  rw [← hlayers, hbuild, Except.ok.injEq] at hbuild'
  have hsame : data = config.data := by
    refine ConfigData.eq_of_find?_eq (hglobal.trans (congrArg ConfigData.global hbuild'))
      fun name => ?_
    cases hname : doc'.binds name with
    | true => rw [hmentioned name hname, hbuild']
    | false => exact hothers name hname
  rw [hsame]

/-- A server that is updated by a file for one of its two sections, while a
    variable is set for the other. -/
theorem update_agrees_with_load_server :
    let files : List ConfigFile := [⟨"a.toml", "[edge]\nhost = \"a\"\n[core]\nport = 8080\n"⟩]
    let layers : RuntimeLayers := ⟨some "APP", [("APP__CORE__HOST", "x")], [("port", .int 81)]⟩
    let file : ConfigFile := ⟨"b.toml", "[edge]\nport = 90\n"⟩
    ∃ config fresh, Configuration.resolve .empty .server true files layers = .ok config
      ∧ Schema.server.resolve .empty true [file] layers = .ok fresh
      ∧ ∃ doc updated, file.document = .ok doc
        ∧ config.update .empty file = .ok updated
        ∧ updated.data.global = fresh.global
        ∧ (∀ name, doc.binds name = true →
            updated.data.named.find? name = fresh.named.find? name)
        ∧ (∀ name, doc.binds name = false →
            updated.data.named.find? name = config.data.named.find? name)
        ∧ ∀ path, files = [⟨path, file.content⟩] → updated = config := by
  intro files layers file
  have hloads :
      (Configuration.resolve .empty .server true files layers).toOption.isSome = true := by
    decide +kernel
  have hresolves : (Schema.server.resolve .empty true [file] layers).toOption.isSome = true := by
    decide +kernel
  obtain ⟨config, hconfig⟩ := Option.isSome_iff_exists.mp hloads
  obtain ⟨fresh, hfresh⟩ := Option.isSome_iff_exists.mp hresolves
  rw [toOption_eq_some_iff] at hconfig hfresh
  exact ⟨config, fresh, hconfig, hfresh, update_agrees_with_load hconfig hfresh⟩

end Configuration

end LayeredConfig
