/-
  LayeredConfig.Proofs.Pinned

  What the runtime layers say stands for ever.

  A setting that they bind to something other than a table is bound to the same
  in every section that is made with them, whatever lies below
  (`find?_layeredKeys`).  A load makes all sections with them, and so does an
  update those that it replaces; so a setting that is pinned once stays pinned.
-/
import LayeredConfig.Proofs.LastWriter
import LayeredConfig.Proofs.Lookup

namespace LayeredConfig

/-- A section holds for a setting what a raw value is coerced into. -/
def SectionData.Pins (environment : Environment) (setting : Setting) (raw : Value)
    (settings : SectionData) : Prop :=
  ∃ held, settings.find? setting.name = some held
    ∧ setting.type.coerce environment raw = .ok held.value

/-! ## Places that a layer binds -/

theorem Document.exists_table_of_valueAt {doc : Document} {name key : String} {v : Value}
    (h : doc.valueAt ⟨some name, key⟩ = some v) :
    ∃ entries, doc.find? name = some (.table entries) := by
  rcases Value.isTable_or (doc.find? name) with htable | hother
  · exact htable
  · have hnone : (doc.tableAt name).find? key = none := by
      rw [tableAt_eq_nil hother, find?]
    exact absurd (hnone.symm.trans h) (by simp)

theorem Document.keepsSection_of_valueAt {doc : Document} {address : Address} {v : Value}
    (h : doc.valueAt address = some v) : doc.KeepsSection address := by
  intro name hname w hw
  obtain ⟨sectionName, key⟩ := address
  obtain rfl : sectionName = some name := hname
  obtain ⟨entries, hentries⟩ := exists_table_of_valueAt h
  obtain rfl : w = .table entries := Option.some.inj (hw.symm.trans hentries)
  rfl

namespace Schema

variable {environment : Environment} {schema : Schema} {strict : Bool}

/-! ## Sections with layers over them -/

theorem distinct_layeredKeys {doc : Document} (hdoc : doc.WellFormed) (layers : Document)
    (sectionName : Option String) : (schema.layeredKeys doc layers sectionName).Distinct := by
  cases sectionName with
  | none => exact (hdoc.distinct.overlay layers).filter _
  | some name => exact (hdoc.tableAt name).distinct.overlay _

theorem find?_layeredKeys {doc layers : Document} (hdoc : doc.WellFormed)
    (hlayers : layers.WellFormed) (sectionName : Option String) {key : String}
    (hkey : schema.declares key = true) :
    (schema.layeredKeys doc layers sectionName).find? key
      = Value.stack (doc.valueAt ⟨sectionName, key⟩) (layers.valueAt ⟨sectionName, key⟩) := by
  cases sectionName with
  | none =>
    rw [layeredKeys, Document.find?_filter schema.declares, if_pos hkey]
    exact Document.find?_overlay hdoc.distinct hlayers.distinct key
  | some name =>
    exact Document.find?_overlay (hdoc.tableAt name).distinct (hlayers.tableAt name).distinct key

theorem pins_of_sectionData {sectionName : Option String} {raw : Document} {settings : SectionData}
    (hraw : raw.Distinct) (h : schema.sectionData environment strict sectionName raw = .ok settings)
    {setting : Setting} (hsetting : setting ∈ schema.settings) {v : Value}
    (hv : raw.find? setting.name = some v) : settings.Pins environment setting v := by
  obtain ⟨held, hheld, -⟩ := (conforms_of_sectionData h).held setting hsetting
  have hfor : schema.heldFor environment setting.name (some v) = some held := by
    rw [← hheld, find?_of_sectionData hraw h, hv]
  exact ⟨held, hheld, comesFrom_of_heldFor hsetting hfor⟩

/-- A load has the section of every place that the runtime layers bind to
    something other than a table, and that pins its setting. -/
theorem pins_of_resolve {files : List ConfigFile} {layers : RuntimeLayers} {data : ConfigData}
    (hoverrides : layers.WellFormed)
    (h : schema.resolve environment strict files layers = .ok data) {sectionName : Option String}
    (hname : ∀ name ∈ sectionName, schema.declares name = false) {setting : Setting}
    (hsetting : setting ∈ schema.settings) {v : Value}
    (hv : layers.document.valueAt ⟨sectionName, setting.name⟩ = some v)
    (htable : v.isTable = false) :
    ∃ settings, data.find? sectionName = some settings
      ∧ settings.Pins environment setting v := by
  obtain ⟨docs, hdocs, -, hbuild⟩ := resolve_eq_ok_iff.mp h
  have hfiles := Document.wellFormed_ofLayers (ConfigFile.wellFormed_of_mapM hdocs)
  have hraw := hfiles.overlay hoverrides.document
  have hsection : ∃ settings, data.find? sectionName = some settings := by
    cases sectionName with
    | none => exact ⟨data.global, rfl⟩
    | some name =>
      obtain ⟨entries, hentries⟩ := Document.exists_table_of_valueAt hv
      have hbinds : layers.document.binds name = true := by
        rw [Document.binds, hentries]
        rfl
      have hmem : name ∈ data.named.names := by
        rw [mem_names_of_buildData hraw.distinct hbuild,
          Document.binds_overlay hfiles.distinct hoverrides.document.distinct, hbinds]
        exact ⟨hname name rfl, Bool.or_true _⟩
      exact Option.isSome_iff_exists.mp (NameMap.mem_names_iff.mp hmem)
  obtain ⟨settings, hsettings⟩ := hsection
  obtain ⟨held, hheld, hfrom⟩ := exists_held_of_buildData hraw hbuild hsettings hsetting
  rw [Document.valueAt_overlay hfiles hoverrides.document (Document.keepsSection_of_valueAt hv), hv,
    Value.stack_of_not_table htable] at hfrom
  exact ⟨settings, hsettings, held, hheld, hfrom⟩

end Schema

namespace Configuration

variable {environment : Environment} {schema : Schema} {strict : Bool} {config : Configuration}
  {sectionName : Option String} {setting : Setting} {v : Value}

theorem pins_of_written {now : Environment} {file : ConfigFile} {settings : SectionData}
    (hlayers : config.layers.WellFormed)
    (h : config.written now file sectionName = .ok settings)
    (hsetting : setting ∈ config.schema.settings)
    (hv : config.layers.valueAt ⟨sectionName, setting.name⟩ = some v)
    (htable : v.isTable = false) : settings.Pins now setting v := by
  obtain ⟨doc, hdoc, hdata⟩ := bind_eq_ok_iff.mp h
  have hwf := ConfigFile.wellFormed_of_document hdoc
  have hdeclared : config.schema.declares setting.name = true := by
    rw [Schema.declares, Schema.find?_of_mem hsetting]
    rfl
  refine Schema.pins_of_sectionData (Schema.distinct_layeredKeys hwf _ _) hdata hsetting ?_
  rw [Schema.find?_layeredKeys hwf hlayers sectionName hdeclared, hv,
    Value.stack_of_not_table htable]

theorem mem_of_lastWriter {calls : List (Environment × ConfigFile)}
    {call : Environment × ConfigFile} (h : config.lastWriter calls sectionName = some call) :
    call ∈ calls := by
  rw [lastWriter_eq_find?] at h
  exact List.mem_reverse.mp (List.mem_of_find?_eq_some h)

/-- What pinned a setting at the load pins it after every run of updates, in the
    process environment of the load or of one of the calls. -/
theorem pins_run {files : List ConfigFile} {layers : RuntimeLayers}
    (hoverrides : layers.WellFormed)
    (h : Configuration.resolve environment schema strict files layers = .ok config)
    (calls : List (Environment × ConfigFile))
    (hname : ∀ name ∈ sectionName, schema.declares name = false)
    (hsetting : setting ∈ schema.settings)
    (hv : layers.document.valueAt ⟨sectionName, setting.name⟩ = some v)
    (htable : v.isTable = false) :
    ∃ now ∈ environment :: calls.map Prod.fst, ∃ settings,
      (config.run calls).data.find? sectionName = some settings
        ∧ settings.Pins now setting v := by
  obtain ⟨hdata, rfl, hlayers, rfl⟩ := resolve_eq_ok_iff.mp h
  have hwf : config.layers.WellFormed := hlayers ▸ hoverrides.document
  have hfind := find?_run hwf.distinct calls sectionName
  cases hlast : config.lastWriter calls sectionName with
  | none =>
    -- no update has replaced the section since the load
    rw [hlast] at hfind
    obtain ⟨settings, hsettings, hpins⟩ :=
      Schema.pins_of_resolve hoverrides hdata hname hsetting hv htable
    exact ⟨environment, List.mem_cons_self, settings, hfind.trans hsettings, hpins⟩
  | some call =>
    rw [hlast] at hfind
    obtain ⟨settings, hwritten, hsettings⟩ := hfind
    have hmem := List.mem_map_of_mem (f := Prod.fst) (mem_of_lastWriter hlast)
    exact ⟨call.1, List.mem_cons_of_mem _ hmem, settings, hsettings,
      pins_of_written hwf hwritten hsetting (hlayers ▸ hv) htable⟩

theorem get_of_pins {settings : SectionData}
    (hsettings : config.data.find? sectionName = some settings)
    (h : settings.Pins environment setting v) :
    ∃ w, setting.type.coerce environment v = .ok w
      ∧ config.get setting.name sectionName = .ok w := by
  obtain ⟨held, hheld, hcoerce⟩ := h
  exact ⟨held.value, hcoerce, get_of_held (held_eq_ok_iff.mpr ⟨settings, hsettings, hheld⟩)⟩

/-- Runtime layers win for ever: where they bind a setting to something other
    than a table, its section is there and the setting holds what that is coerced
    into, after every run of updates, whatever these say and whichever of them
    fail. -/
theorem get_of_load_and_run {files : List ConfigFile} {layers : RuntimeLayers}
    (hoverrides : layers.WellFormed)
    (h : Configuration.resolve environment schema strict files layers = .ok config)
    (updates : List ConfigFile) (hname : ∀ name ∈ sectionName, schema.declares name = false)
    (hsetting : setting ∈ schema.settings)
    (hv : layers.document.valueAt ⟨sectionName, setting.name⟩ = some v)
    (htable : v.isTable = false) :
    let final := config.run (updates.map fun file => (environment, file))
    (final.data.find? sectionName).isSome = true
      ∧ ∃ w, setting.type.coerce environment v = .ok w
        ∧ final.get setting.name sectionName = .ok w := by
  intro final
  obtain ⟨now, hnow, settings, hsettings, hpins⟩ := pins_run hoverrides h
    (updates.map fun file => (environment, file)) hname hsetting hv htable
  have hfixed : now = environment := by
    rcases List.mem_cons.mp hnow with hload | hcall
    · exact hload
    · rw [List.map_map] at hcall
      obtain ⟨file, -, hfile⟩ := List.mem_map.mp hcall
      exact hfile.symm
  rw [hfixed] at hpins
  refine ⟨?_, get_of_pins hsettings hpins⟩
  rw [hsettings]
  rfl

/-- A server with a port of one section in the environment, and files that say
    something else about that or nothing, one of which the guard rejects. -/
theorem get_of_server_run :
    let layers : RuntimeLayers := ⟨some "APP", [("APP__EDGE__PORT", "81")], []⟩
    let updates : List ConfigFile :=
      [⟨"b.toml", "[edge]\nport = \"7\"\n"⟩, ⟨"c.toml", "[core]\nport = \"0\"\n"⟩, ⟨"d.toml", ""⟩]
    ∃ config, layers.WellFormed
      ∧ Configuration.resolve .empty .server true [⟨"a.toml", "[edge]\nhost = \"a\"\n"⟩] layers
        = .ok config
      ∧ layers.document.valueAt ⟨some "edge", "port"⟩ = some (.string "81")
      ∧ let final := config.run (updates.map fun file => (.empty, file))
        (final.data.find? (some "edge")).isSome = true
          ∧ final.get "port" (some "edge") = .ok (.int 81) := by
  intro layers updates
  have hoverrides : layers.WellFormed := by
    intro o ho
    exact absurd ho List.not_mem_nil
  have hloads : (Configuration.resolve .empty .server true [⟨"a.toml", "[edge]\nhost = \"a\"\n"⟩]
      layers).toOption.isSome = true := by
    decide +kernel
  obtain ⟨config, hconfig⟩ := Option.isSome_iff_exists.mp hloads
  rw [toOption_eq_some_iff] at hconfig
  have hv : layers.document.valueAt ⟨some "edge", "port"⟩ = some (.string "81") := by
    rfl
  have hcoerce : TypeDesc.int.coerce .empty (.string "81") = .ok (.int 81) := by
    rfl
  obtain ⟨hsome, w, hw, hget⟩ := get_of_load_and_run hoverrides hconfig updates
    (by rintro name ⟨⟩; decide) (List.mem_cons_self : _ ∈ Schema.server.settings)
    hv rfl
  rw [hcoerce, Except.ok.injEq] at hw
  exact ⟨config, hoverrides, hconfig, hv, hsome, hw ▸ hget⟩

end Configuration

end LayeredConfig
