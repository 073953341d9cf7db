/-
  LayeredConfig.Proofs.LastWriter

  What a run of updates leaves behind.

  A call that fails leaves no trace (`run_succeeding`), and the data that a
  configuration holds do not count for whether a call fails.  An update writes
  the global section and those that its file mentions, from the file and the
  layers alone (`find?_of_update`).  So every section in the end is what the
  last update that replaced it has written (`find?_run`).
-/
import LayeredConfig.Proofs.Precedence
import LayeredConfig.Proofs.Reload
import Mathlib.Data.List.Induction

namespace LayeredConfig

/-! ## What an update writes -/

/-- Whether the document of a file has a key at its top. -/
def ConfigFile.mentions (file : ConfigFile) (name : String) : Bool :=
  file.document.toOption.any fun doc => doc.binds name

theorem ConfigFile.mentions_of_document {file : ConfigFile} {doc : Document}
    (h : file.document = .ok doc) (name : String) : file.mentions name = doc.binds name := by
  rw [mentions, h]
  rfl

namespace Schema

/-- Whether an update by a file replaces a section: the global one always, and a
    named one if the file mentions it. -/
def replaces (schema : Schema) (file : ConfigFile) : (sectionName : Option String) → Bool
  | none => true
  | some name => !schema.declares name && file.mentions name

/-- The keys of a section of a document with layers over it: the settings at the
    top, or what the two say about the section of that name. -/
def layeredKeys (schema : Schema) (doc layers : Document) :
    (sectionName : Option String) → Document
  | none => (doc.overlay layers).filter fun e => schema.declares e.1
  | some name => (doc.tableAt name).overlay (layers.tableAt name)

theorem Fits.exists_table {schema : Schema} {doc : Document} (h : schema.Fits doc) {name : String}
    (hname : schema.declares name = false) {v : Value} (hv : doc.find? name = some v) :
    ∃ entries, v = .table entries := by
  rcases h _ (Document.mem_of_find?_eq_some hv) with hdeclared | htable
  · exact absurd (hname.symm.trans hdeclared) (by simp)
  · exact Value.isTable_iff.mp htable

end Schema

namespace Configuration

variable {environment : Environment} {config updated : Configuration} {file : ConfigFile}

/-- What a section holds after it has been replaced by what a file says. -/
def written (environment : Environment) (config : Configuration) (file : ConfigFile)
    (sectionName : Option String) : Except ConfigError SectionData := do
  let doc ← file.document
  config.schema.sectionData environment config.strict sectionName
    (config.schema.layeredKeys doc config.layers sectionName)

theorem written_eq_ok_iff {sectionName : Option String} {settings : SectionData} :
    config.written environment file sectionName = .ok settings ↔
      ∃ doc validated, file.document = .ok doc
        ∧ config.schema.validateKeys environment config.strict sectionName
            (config.schema.layeredKeys doc config.layers sectionName) = .ok validated
        ∧ settings = config.schema.defaults.insertAll validated := by
  rw [written, bind_eq_ok_iff]
  simp only [Schema.sectionData, bind_eq_ok_iff]
  constructor
  · rintro ⟨doc, hdoc, validated, hvalidated, heq⟩
    exact ⟨doc, validated, hdoc, hvalidated, (Except.ok.inj heq).symm⟩
  · rintro ⟨doc, validated, hdoc, hvalidated, rfl⟩
    exact ⟨doc, hdoc, validated, hvalidated, rfl⟩

/-- The layers that an update leaves out have no setting of the global section. -/
theorem written_global_of_buildData {doc : Document} (hdoc : file.document = .ok doc)
    (hlayers : config.layers.Distinct) {fresh : ConfigData}
    (h : config.schema.buildData environment config.strict
      (Document.overlay doc (config.layersFor doc)) = .ok fresh) :
    config.written environment file none = .ok fresh.global := by
  have hdistinct := (ConfigFile.wellFormed_of_document hdoc).distinct
  obtain ⟨-, hglobal, -⟩ := Schema.buildData_eq_ok_iff.mp h
  have hagree : config.schema.SectionsAgree config.strict
      ((Document.overlay doc (config.layersFor doc)).filter fun e => config.schema.declares e.1)
      ((Document.overlay doc config.layers).filter fun e => config.schema.declares e.1) := by
    constructor
    · intro key hkey
      rw [Document.find?_filter config.schema.declares,
        Document.find?_filter config.schema.declares, find?_overlay_layersFor hdistinct hlayers,
        concerns, hkey, Bool.true_or, if_pos rfl]
    · intro _ key hkey
      rw [Document.binds, Document.binds, Document.find?_filter config.schema.declares,
        Document.find?_filter config.schema.declares, hkey, if_neg Bool.false_ne_true,
        if_neg Bool.false_ne_true]
  rw [written, hdoc]
  exact hagree.sectionData_eq_ok ((hdistinct.overlay _).filter _) ((hdistinct.overlay _).filter _)
    hglobal

/-- A section that a file mentions is opened with the layers of its name over
    it. -/
theorem sectionOf_of_mentions {doc : Document} (hdoc : doc.Distinct)
    (hlayers : config.layers.Distinct) (hfits : config.schema.Fits doc)
    (hraw : config.schema.Fits (Document.overlay doc (config.layersFor doc))) {name : String}
    (hname : config.schema.declares name = false) (hbinds : doc.binds name = true) :
    config.schema.sectionOf (Document.overlay doc (config.layersFor doc)) name
      = some (config.schema.layeredKeys doc config.layers (some name)) := by
  obtain ⟨v, hv⟩ := Option.isSome_iff_exists.mp hbinds
  obtain ⟨below, rfl⟩ := hfits.exists_table hname hv
  have hfind := find?_overlay_layersFor hdoc hlayers name
  rw [concerns, hbinds, Bool.or_true, if_pos rfl, Document.find?_overlay hdoc hlayers, hv] at hfind
  rw [Schema.sectionOf, hfind, Schema.layeredKeys, Document.tableAt_of_find? hv]
  cases habove : config.layers.find? name with
  | none =>
    have hempty : config.layers.tableAt name = [] := Document.tableAt_eq_nil (by simp [habove])
    rw [Value.stack_none, hempty, Document.overlay_nil]
    exact Schema.opened?_eq_some_iff.mpr ⟨hname, rfl⟩
  | some w =>
    -- a layer that is no table here would show in the merged document
    have hw : ∃ above, w = .table above := by
      by_contra hnone
      have hbelow : w.isTable = false :=
        Value.isTable_eq_false fun entries heq => hnone ⟨entries, Option.some.inj heq⟩
      rw [habove, Value.stack_of_not_table hbelow] at hfind
      exact hnone (hraw.exists_table hname hfind)
    obtain ⟨above, rfl⟩ := hw
    rw [Value.stack_table_table, Document.tableAt_of_find? habove]
    exact Schema.opened?_eq_some_iff.mpr ⟨hname, rfl⟩

theorem written_named_of_buildData {doc : Document} (hdoc : file.document = .ok doc)
    (hlayers : config.layers.Distinct) (hfits : config.schema.Fits doc) {fresh : ConfigData}
    (h : config.schema.buildData environment config.strict
      (Document.overlay doc (config.layersFor doc)) = .ok fresh) {name : String}
    (hname : config.schema.declares name = false) (hbinds : doc.binds name = true) :
    ∃ settings, config.written environment file (some name) = .ok settings
      ∧ fresh.named.find? name = some settings := by
  have hdistinct := (ConfigFile.wellFormed_of_document hdoc).distinct
  have hraw := hdistinct.overlay (config.layersFor doc)
  obtain ⟨hrawFits, -, hsections⟩ := (Schema.isOk_buildData_iff hraw).mp ⟨fresh, h⟩
  have hsection := sectionOf_of_mentions hdistinct hlayers hfits
    (fun e he => hrawFits e.1 e.2 (hraw.find?_eq_some_iff.mpr he)) hname hbinds
  obtain ⟨settings, hsettings⟩ := hsections name _ hsection
  refine ⟨settings, ?_, ?_⟩
  · rw [written, hdoc]
    exact hsettings
  · rw [Schema.find?_named_of_buildData hraw h, hsection, Option.bind_some, hsettings]
    rfl

/-- An update makes no section that its file does not mention. -/
theorem find?_named_eq_none_of_buildData {doc : Document} (hdoc : doc.Distinct)
    (hlayers : config.layers.Distinct) {fresh : ConfigData}
    (h : config.schema.buildData environment config.strict
      (Document.overlay doc (config.layersFor doc)) = .ok fresh) {name : String}
    (hname : config.schema.declares name = true ∨ doc.binds name = false) :
    fresh.named.find? name = none := by
  rw [Schema.find?_named_of_buildData (hdoc.overlay _) h,
    sectionOf_overlay_layersFor hdoc hlayers]
  rcases hname with hdeclared | hbinds
  · rw [Schema.sectionOf_eq_none hdeclared, ite_self, Option.bind_none]
  · rw [hbinds]
    rfl

/-- An update replaces the sections that it is meant to replace by what the file
    and the layers make of them, whatever they held, and leaves the others. -/
theorem find?_of_update (hlayers : config.layers.Distinct)
    (h : config.update environment file = .ok updated) (sectionName : Option String) :
    if config.schema.replaces file sectionName then
      ∃ settings, config.written environment file sectionName = .ok settings
        ∧ updated.data.find? sectionName = some settings
    else updated.data.find? sectionName = config.data.find? sectionName := by
  obtain ⟨doc, fresh, hdoc, hadmits, hfresh, rfl⟩ := update_eq_ok_iff.mp h
  cases sectionName with
  | none =>
    exact ⟨fresh.global, written_global_of_buildData hdoc hlayers hfresh, rfl⟩
  | some name =>
    have hspliced : (config.data.named.insertAll fresh.named.entries).find? name
        = (fresh.named.find? name).or (config.data.named.find? name) :=
      NameMap.find?_insertAll_entries config.data.named fresh.named name
    rw [Schema.replaces, ConfigFile.mentions_of_document hdoc]
    cases hreplaces : !config.schema.declares name && doc.binds name with
    | true =>
      obtain ⟨hname, hbinds⟩ : config.schema.declares name = false ∧ doc.binds name = true := by
        simpa using hreplaces
      obtain ⟨settings, hwritten, hfind⟩ :=
        written_named_of_buildData hdoc hlayers hadmits.fits hfresh hname hbinds
      rw [hfind] at hspliced
      exact ⟨settings, hwritten, hspliced⟩
    | false =>
      have hdistinct := (ConfigFile.wellFormed_of_document hdoc).distinct
      have hkept : config.schema.declares name = true ∨ doc.binds name = false := by
        rwa [Bool.and_eq_false_iff, Bool.not_eq_false'] at hreplaces
      rw [find?_named_eq_none_of_buildData hdistinct hlayers hfresh hkept] at hspliced
      exact hspliced

/-! ## What an update looks at -/

/-- An update keeps everything but the data. -/
theorem exists_data_attempt (config : Configuration) (environment : Environment)
    (file : ConfigFile) :
    ∃ data, config.attempt environment file = { config with data := data } := by
  rcases attempt_cases environment config file with hupdate | hsame
  · obtain ⟨doc, fresh, -, -, -, heq⟩ := update_eq_ok_iff.mp hupdate
    exact ⟨_, heq⟩
  · exact ⟨config.data, hsame⟩

theorem exists_data_run (config : Configuration) (calls : List (Environment × ConfigFile)) :
    ∃ data, config.run calls = { config with data := data } := by
  induction calls generalizing config with
  | nil => exact ⟨config.data, rfl⟩
  | cons call calls ih =>
    obtain ⟨data, hdata⟩ := exists_data_attempt config call.1 call.2
    rw [run_cons, hdata]
    exact ih { config with data := data }

/-- Whether a call succeeds. -/
def accepts (config : Configuration) (call : Environment × ConfigFile) : Bool :=
  (config.update call.1 call.2).toOption.isSome

theorem accepts_iff {call : Environment × ConfigFile} :
    config.accepts call = true ↔
      config.update call.1 call.2 = .ok (config.attempt call.1 call.2) := by
  rw [accepts, attempt]
  cases config.update call.1 call.2 with
  | ok updated => simp [Except.toOption]
  | error e => simp [Except.toOption]

theorem attempt_of_not_accepts {call : Environment × ConfigFile}
    (h : config.accepts call = false) : config.attempt call.1 call.2 = config := by
  rcases attempt_cases call.1 config call.2 with hupdate | hsame
  · rw [accepts_iff.mpr hupdate] at h
    exact absurd h (by simp)
  · exact hsame

/-- The data that a configuration holds do not count for whether a call
    succeeds. -/
theorem accepts_with_data (config : Configuration) (data : ConfigData)
    (call : Environment × ConfigFile) :
    { config with data := data }.accepts call = config.accepts call := by
  have hok : ∀ first second : ConfigData, { config with data := first }.accepts call = true →
      { config with data := second }.accepts call = true := by
    intro first second h
    obtain ⟨updated, hupdated⟩ := Option.isSome_iff_exists.mp h
    obtain ⟨doc, fresh, hdoc, hadmits, hfresh, -⟩ :=
      update_eq_ok_iff.mp (toOption_eq_some_iff.mp hupdated)
    exact Option.isSome_iff_exists.mpr
      ⟨_, toOption_eq_some_iff.mpr (update_eq_ok_iff.mpr ⟨doc, fresh, hdoc, hadmits, hfresh, rfl⟩)⟩
  exact Bool.eq_iff_iff.mpr ⟨hok data config.data, hok config.data data⟩

/-- What a call does to a section, whatever data are there. -/
theorem find?_attempt (hlayers : config.layers.Distinct) (data : ConfigData)
    (call : Environment × ConfigFile) (sectionName : Option String) :
    if config.accepts call && config.schema.replaces call.2 sectionName then
      ∃ settings, config.written call.1 call.2 sectionName = .ok settings
        ∧ (attempt call.1 { config with data := data } call.2).data.find? sectionName
          = some settings
    else (attempt call.1 { config with data := data } call.2).data.find? sectionName
      = data.find? sectionName := by
  have haccepts := accepts_with_data config data call
  cases hcall : config.accepts call with
  | true =>
    have hupdate := accepts_iff.mp (haccepts.trans hcall)
    rw [Bool.true_and]
    exact find?_of_update (by exact hlayers) hupdate sectionName
  | false =>
    rw [Bool.false_and, if_neg Bool.false_ne_true,
      attempt_of_not_accepts (haccepts.trans hcall)]

/-- A call that is made once more changes nothing. -/
theorem attempt_attempt (config : Configuration) (environment : Environment) (file : ConfigFile) :
    (config.attempt environment file).attempt environment file
      = config.attempt environment file := by
  rcases attempt_cases environment config file with hupdate | hsame
  · obtain ⟨doc, fresh, hdoc, hadmits, hfresh, heq⟩ := update_eq_ok_iff.mp hupdate
    -- the sections that are laid over the data are there already
    have hnamed : (config.data.named.insertAll fresh.named.entries).insertAll
        fresh.named.entries = config.data.named.insertAll fresh.named.entries := by
      refine NameMap.ext fun name => ?_
      rw [NameMap.find?_insertAll_entries, NameMap.find?_insertAll_entries]
      cases fresh.named.find? name with
      | none => rfl
      | some settings => rfl
    have hagain : (config.attempt environment file).update environment file
        = .ok (config.attempt environment file) := by
      rw [heq]
      refine update_eq_ok_iff.mpr ⟨doc, fresh, hdoc, hadmits, hfresh, ?_⟩
      rw [hnamed]
    rw [attempt, hagain]
  · rw [hsame, hsame]

/-! ## Runs -/

/-- The calls of a run that succeed when their turn comes. -/
def succeeding (config : Configuration) :
    List (Environment × ConfigFile) → List (Environment × ConfigFile)
  | [] => []
  | call :: calls =>
    let later := (config.attempt call.1 call.2).succeeding calls
    if config.accepts call then call :: later else later

/-- The last call of a run that replaces a section. -/
def lastWriter (config : Configuration) (calls : List (Environment × ConfigFile))
    (sectionName : Option String) : Option (Environment × ConfigFile) :=
  (config.succeeding calls).reverse.find? fun call => config.schema.replaces call.2 sectionName

/-- A run is the same without the calls that fail. -/
theorem run_succeeding (config : Configuration) (calls : List (Environment × ConfigFile)) :
    config.run (config.succeeding calls) = config.run calls := by
  induction calls generalizing config with
  | nil => rfl
  | cons call calls ih =>
    rw [succeeding]
    by_cases haccepts : config.accepts call = true
    · rw [if_pos haccepts, run_cons, run_cons, ih]
    · rw [Bool.not_eq_true] at haccepts
      rw [haccepts, if_neg Bool.false_ne_true, run_cons, attempt_of_not_accepts haccepts, ih]

/-- The calls that succeed are those that would succeed in the beginning. -/
theorem succeeding_eq_filter (config : Configuration)
    (calls : List (Environment × ConfigFile)) :
    config.succeeding calls = calls.filter config.accepts := by
  induction calls generalizing config with
  | nil => rfl
  | cons call calls ih =>
    obtain ⟨data, hdata⟩ := exists_data_attempt config call.1 call.2
    have hlater : ∀ other, (config.attempt call.1 call.2).accepts other = config.accepts other :=
      fun other => hdata ▸ accepts_with_data config data other
    rw [succeeding, ih, List.filter_congr fun other _ => hlater other, List.filter_cons]

theorem lastWriter_eq_find? (config : Configuration) (calls : List (Environment × ConfigFile))
    (sectionName : Option String) :
    config.lastWriter calls sectionName = calls.reverse.find? fun call =>
      config.accepts call && config.schema.replaces call.2 sectionName := by
  rw [lastWriter, succeeding_eq_filter, ← List.filter_reverse, List.find?_filter]
  simp

theorem lastWriter_append (config : Configuration)
    (earlier later : List (Environment × ConfigFile)) (sectionName : Option String) :
    config.lastWriter (earlier ++ later) sectionName
      = (config.lastWriter later sectionName).or (config.lastWriter earlier sectionName) := by
  rw [lastWriter_eq_find?, List.reverse_append, List.find?_append, ← lastWriter_eq_find?,
    ← lastWriter_eq_find?]

theorem lastWriter_singleton (config : Configuration) (call : Environment × ConfigFile)
    (sectionName : Option String) : config.lastWriter [call] sectionName
      = if config.accepts call && config.schema.replaces call.2 sectionName then some call
        else none := by
  rw [lastWriter_eq_find?, List.reverse_singleton, List.find?_singleton]

theorem lastWriter_pair_comm {first second : Environment × ConfigFile}
    {sectionName : Option String}
    (h : ¬(config.schema.replaces first.2 sectionName = true
      ∧ config.schema.replaces second.2 sectionName = true)) :
    config.lastWriter [first, second] sectionName
      = config.lastWriter [second, first] sectionName := by
  have hpair : ∀ call other, config.lastWriter [call, other] sectionName
      = (config.lastWriter [other] sectionName).or (config.lastWriter [call] sectionName) :=
    fun call other => lastWriter_append config [call] [other] sectionName
  rw [hpair, hpair, lastWriter_singleton, lastWriter_singleton]
  by_cases hfirst : config.schema.replaces first.2 sectionName = true
  · have hsecond : config.schema.replaces second.2 sectionName = false := by
      simpa [hfirst] using h
    simp [hsecond]
  · simp [hfirst]

/-- A section in the end is what its last writer wrote, and without one it is
    what it was. -/
theorem find?_run (hlayers : config.layers.Distinct) (calls : List (Environment × ConfigFile))
    (sectionName : Option String) :
    match config.lastWriter calls sectionName with
    | none => (config.run calls).data.find? sectionName = config.data.find? sectionName
    | some (now, file) => ∃ settings, config.written now file sectionName = .ok settings
        ∧ (config.run calls).data.find? sectionName = some settings := by
  -- on the last call: it is the last writer, or leaves the section to the one before
  induction calls using List.reverseRecOn with
  | nil => rfl
  | append_singleton calls call ih =>
    obtain ⟨data, hdata⟩ := exists_data_run config calls
    have hstep := find?_attempt hlayers data call sectionName
    rw [lastWriter_append, lastWriter_singleton, run_append, hdata]
    rw [hdata] at ih
    cases hwrites : config.accepts call && config.schema.replaces call.2 sectionName with
    | true =>
      rw [hwrites, if_pos rfl] at hstep
      exact hstep
    | false =>
      rw [hwrites, if_neg Bool.false_ne_true] at hstep
      rw [if_neg Bool.false_ne_true, Option.none_or]
      cases hlast : config.lastWriter calls sectionName with
      | none =>
        rw [hlast] at ih
        exact hstep.trans ih
      | some other =>
        rw [hlast] at ih
        obtain ⟨settings, hwritten, hsettings⟩ := ih
        exact ⟨settings, hwritten, hstep.trans hsettings⟩

/-- Updates that mention no section both leave the same named sections in either
    order. -/
theorem named_run_comm (hlayers : config.layers.Distinct)
    (calls : List (Environment × ConfigFile)) {first second : Environment × ConfigFile}
    (h : ∀ name, config.schema.declares name = false →
      ¬(first.2.mentions name = true ∧ second.2.mentions name = true)) :
    (config.run (calls ++ [first, second])).data.named
      = (config.run (calls ++ [second, first])).data.named := by
  refine NameMap.ext fun name => ?_
  have hwriter : config.lastWriter (calls ++ [first, second]) (some name)
      = config.lastWriter (calls ++ [second, first]) (some name) := by
    rw [lastWriter_append, lastWriter_append, lastWriter_pair_comm]
    rintro ⟨hfirst, hsecond⟩
    simp only [Schema.replaces, Bool.and_eq_true, Bool.not_eq_true'] at hfirst hsecond
    exact h name hfirst.1 ⟨hfirst.2, hsecond.2⟩
  have hone := find?_run hlayers (calls ++ [first, second]) (some name)
  have hother := find?_run hlayers (calls ++ [second, first]) (some name)
  rw [hwriter] at hone
  show ConfigData.find? _ (some name) = ConfigData.find? _ (some name)
  cases hlast : config.lastWriter (calls ++ [second, first]) (some name) with
  | none =>
    rw [hlast] at hone hother
    exact hone.trans hother.symm
  | some call =>
    rw [hlast] at hone hother
    obtain ⟨settings, hwritten, hfind⟩ := hone
    obtain ⟨settings', hwritten', hfind'⟩ := hother
    rw [hwritten, Except.ok.injEq] at hwritten'
    rw [hfind, hfind', hwritten']

/-- What a run of updates leaves behind: the same as without those that fail; in
    every section what the last update that replaced it says, with the layers
    over it, put in place of the defaults, or what was loaded; the same if the
    last update is repeated, and the same named sections if the last two, where
    these mention no section both, change places. -/
theorem sections_of_load_and_run {schema : Schema} {strict : Bool} {files : List ConfigFile}
    {layers : RuntimeLayers}
    (h : Configuration.resolve environment schema strict files layers = .ok config)
    (calls : List (Environment × ConfigFile)) :
    config.run (config.succeeding calls) = config.run calls
      ∧ (∀ sectionName, match config.lastWriter calls sectionName with
        | none => (config.run calls).data.find? sectionName = config.data.find? sectionName
        | some (now, file) => ∃ doc validated, file.document = .ok doc
            ∧ schema.validateKeys now strict sectionName
                (schema.layeredKeys doc layers.document sectionName) = .ok validated
            ∧ (config.run calls).data.find? sectionName
              = some (schema.defaults.insertAll validated))
      ∧ (∀ call, config.run (calls ++ [call, call]) = config.run (calls ++ [call]))
      ∧ ∀ first second : Environment × ConfigFile, (∀ name, schema.declares name = false →
          ¬(first.2.mentions name = true ∧ second.2.mentions name = true)) →
        (config.run (calls ++ [first, second])).data.named
          = (config.run (calls ++ [second, first])).data.named := by
  obtain ⟨-, rfl, hlayers, rfl⟩ := resolve_eq_ok_iff.mp h
  have hdistinct : config.layers.Distinct := hlayers ▸ layers.distinct_document
  refine ⟨run_succeeding config calls, fun sectionName => ?_, fun call => ?_,
    fun first second hdisjoint => named_run_comm hdistinct calls hdisjoint⟩
  · have hfind := find?_run hdistinct calls sectionName
    cases hlast : config.lastWriter calls sectionName with
    | none =>
      rw [hlast] at hfind
      exact hfind
    | some call =>
      rw [hlast] at hfind
      obtain ⟨settings, hwritten, hsettings⟩ := hfind
      obtain ⟨doc, validated, hdoc, hvalidated, rfl⟩ := written_eq_ok_iff.mp hwritten
      exact ⟨doc, validated, hdoc, hlayers ▸ hvalidated, hsettings⟩
  · rw [run_append, run_append]
    exact attempt_attempt (config.run calls) call.1 call.2

/-- A server that is updated by files for one section each, and by one that the
    guard rejects.  The host of the section is that of the last file that was not. -/
theorem sections_of_server_run :
    let layers : RuntimeLayers := ⟨some "APP", [("APP__CORE__PORT", "81")], []⟩
    let edge : Environment × ConfigFile := (.empty, ⟨"b.toml", "[edge]\nhost = \"b\"\n"⟩)
    let rejected : Environment × ConfigFile :=
      (.empty, ⟨"c.toml", "[edge]\nhost = \"c\"\nport = \"0\"\n"⟩)
    let core : Environment × ConfigFile := (.empty, ⟨"d.toml", "[core]\nhost = \"d\"\n"⟩)
    let calls := [edge, rejected]
    let host : Held := ⟨"host", .string, .string "b"⟩
    ∃ config, Configuration.resolve .empty .server true
        [⟨"a.toml", "[edge]\nhost = \"a\"\n"⟩] layers
        = .ok config
      ∧ config.run [edge] = config.run calls
      ∧ (∃ settings, (config.run calls).data.find? (some "edge") = some settings
          ∧ settings = Schema.server.defaults.insertAll [("host", host)]
          ∧ settings.find? "host" = some host)
      ∧ (config.run calls).data.find? (some "core") = config.data.find? (some "core")
      ∧ config.run (calls ++ [core, core]) = config.run (calls ++ [core])
      ∧ (config.run (calls ++ [edge, core])).data.named
        = (config.run (calls ++ [core, edge])).data.named := by
  intro layers edge rejected core calls host
  have hloads : (Configuration.resolve .empty .server true [⟨"a.toml", "[edge]\nhost = \"a\"\n"⟩]
      layers).toOption.isSome = true := by decide +kernel
  obtain ⟨config, hconfig⟩ := Option.isSome_iff_exists.mp hloads
  rw [toOption_eq_some_iff] at hconfig
  obtain ⟨hsame, hsections, hagain, hswap⟩ := sections_of_load_and_run hconfig calls
  have hedgeDoc : edge.2.document = .ok [("edge", .table [("host", .string "b")])] :=
    toOption_eq_some_iff.mp (by decide +kernel)
  have hcoreDoc : core.2.document = .ok [("core", .table [("host", .string "d")])] :=
    toOption_eq_some_iff.mp (by decide +kernel)
  have hlayers : layers.document = [("core", .table [("port", .string "81")])] := rfl
  have hdisjoint : ∀ name, Schema.server.declares name = false →
      ¬(edge.2.mentions name = true ∧ core.2.mentions name = true) := by
    rintro name -
    rw [ConfigFile.mentions_of_document hedgeDoc, ConfigFile.mentions_of_document hcoreDoc,
      Document.binds_iff, Document.binds_iff]
    rintro ⟨hedge, hcore⟩
    obtain rfl := List.mem_singleton.mp hedge
    exact absurd (List.mem_singleton.mp hcore) (by decide)
  have haccepts : config.accepts edge = true ∧ config.accepts rejected = false := by
    obtain ⟨schema, data, document, strict⟩ := config
    obtain ⟨-, rfl, rfl, rfl⟩ := resolve_eq_ok_iff.mp hconfig
    -- the data do not count, so let there be none
    let config : Configuration := ⟨.server, ⟨.empty, .empty⟩, layers.document, true⟩
    have hedge : config.accepts edge = true := by decide +kernel
    have hrejected : config.accepts rejected = false := by decide +kernel
    exact ⟨(accepts_with_data config data edge).trans hedge,
      (accepts_with_data config data rejected).trans hrejected⟩
  have hsucceeding : config.succeeding calls = [edge] := by
    rw [succeeding_eq_filter, List.filter_cons_of_pos haccepts.1,
      List.filter_cons_of_neg (by rw [haccepts.2]; decide), List.filter_nil]
  have hwriter : ∀ name, config.lastWriter calls (some name)
      = if Schema.server.replaces edge.2 (some name) then some edge else none := by
    intro name
    rw [lastWriter, hsucceeding, List.reverse_singleton, List.find?_singleton,
      (resolve_eq_ok_iff.mp hconfig).2.1]
  have hreplaces : Schema.server.replaces edge.2 (some "edge") = true
      ∧ Schema.server.replaces edge.2 (some "core") = false := by
    rw [Schema.replaces, Schema.replaces, ConfigFile.mentions_of_document hedgeDoc,
      ConfigFile.mentions_of_document hedgeDoc]
    decide
  refine ⟨config, hconfig, ?_, ?_, ?_, hagain core, hswap edge core hdisjoint⟩
  · rw [← hsucceeding]
    exact hsame
  · have hsection := hsections (some "edge")
    rw [hwriter, if_pos hreplaces.1] at hsection
    obtain ⟨doc, validated, hdoc, hvalidated, hfind⟩ := hsection
    obtain rfl : [("edge", .table [("host", .string "b")])] = doc :=
      Except.ok.inj (hedgeDoc.symm.trans hdoc)
    have hhost : Schema.server.validateKeys .empty true (some "edge") [("host", .string "b")]
        = .ok [("host", host)] := rfl
    rw [hlayers] at hvalidated
    obtain rfl : [("host", host)] = validated := Except.ok.inj (hhost.symm.trans hvalidated)
    exact ⟨_, hfind, rfl, rfl⟩
  · have hsection := hsections (some "core")
    rw [hwriter, hreplaces.2, if_neg Bool.false_ne_true] at hsection
    exact hsection

end Configuration

end LayeredConfig
