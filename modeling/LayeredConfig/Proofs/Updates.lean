/-
  LayeredConfig.Proofs.Updates

  What an update of a configuration does, and runs of updates.

  An update that succeeds replaces the global section and lays its named
  sections over the old ones (`find?_named_of_update`); one that fails leaves
  everything as it was.  A run goes on after either.
-/
import LayeredConfig.Configuration
import LayeredConfig.Proofs.Layers

namespace LayeredConfig

namespace Configuration

variable {environment : Environment} {config updated : Configuration} {file : ConfigFile}

/-! ## Loading -/

theorem resolve_eq_ok_iff {schema : Schema} {strict : Bool} {files : List ConfigFile}
    {layers : RuntimeLayers} :
    Configuration.resolve environment schema strict files layers = .ok config ↔
      schema.resolve environment strict files layers = .ok config.data
        ∧ config.schema = schema ∧ config.layers = layers.document ∧ config.strict = strict := by
  rw [Configuration.resolve, bind_eq_ok_iff]
  constructor
  · rintro ⟨data, hdata, heq⟩
    obtain rfl := Except.ok.inj heq
    exact ⟨hdata, rfl, rfl, rfl⟩
  · rintro ⟨hdata, rfl, hlayers, rfl⟩
    refine ⟨config.data, hdata, ?_⟩
    rw [← hlayers]
    rfl

/-! ## Single updates -/

/-- An update succeeds if the document of the file is admitted by itself, and
    makes data together with the layers that concern it. -/
theorem update_eq_ok_iff :
    config.update environment file = .ok updated ↔
      ∃ doc fresh, file.document = .ok doc ∧ config.schema.Admits config.strict doc
        ∧ config.schema.buildData environment config.strict
            (Document.overlay doc (config.layersFor doc)) = .ok fresh
        ∧ updated = { config with
            data := ⟨fresh.global, config.data.named.insertAll fresh.named.entries⟩ } := by
  rw [update, bind_eq_ok_iff]
  simp only [Schema.mergeFiles_singleton_eq_ok_iff, bind_eq_ok_iff]
  constructor
  · rintro ⟨doc, ⟨hdoc, hadmits⟩, fresh, hfresh, heq⟩
    exact ⟨doc, fresh, hdoc, hadmits, hfresh, (Except.ok.inj heq).symm⟩
  · rintro ⟨doc, fresh, hdoc, hadmits, hfresh, rfl⟩
    exact ⟨doc, ⟨hdoc, hadmits⟩, fresh, hfresh, rfl⟩

/-- An update keeps everything but the data. -/
theorem schema_of_update (h : config.update environment file = .ok updated) :
    updated.schema = config.schema := by
  obtain ⟨doc, fresh, -, -, -, rfl⟩ := update_eq_ok_iff.mp h
  rfl

/-- No section goes away by an update. -/
theorem hasSection_of_update (h : config.update environment file = .ok updated) {name : String}
    (hname : config.hasSection name = true) : updated.hasSection name = true := by
  obtain ⟨doc, fresh, -, -, -, rfl⟩ := update_eq_ok_iff.mp h
  exact NameMap.isSome_find?_insertAll.mpr (Or.inr hname)

/-! ## Runs -/

/-- What is there after a call for an update: the updated configuration, or the
    old one where the update fails. -/
def attempt (environment : Environment) (config : Configuration) (file : ConfigFile) :
    Configuration :=
  match config.update environment file with
  | .ok updated => updated
  | .error _ => config

/-- What is there after calls for updates, each in the process environment of
    its time. -/
def run (config : Configuration) (calls : List (Environment × ConfigFile)) : Configuration :=
  calls.foldl (fun config (environment, file) => config.attempt environment file) config

theorem run_cons (config : Configuration) (call : Environment × ConfigFile)
    (calls : List (Environment × ConfigFile)) :
    config.run (call :: calls) = (config.attempt call.1 call.2).run calls := rfl

theorem run_append (config : Configuration) (earlier later : List (Environment × ConfigFile)) :
    config.run (earlier ++ later) = (config.run earlier).run later :=
  List.foldl_append

/-- A call for an update is an update, or changes nothing. -/
theorem attempt_cases (environment : Environment) (config : Configuration) (file : ConfigFile) :
    config.update environment file = .ok (config.attempt environment file)
      ∨ config.attempt environment file = config := by
  rw [attempt]
  cases config.update environment file with
  | ok updated => exact Or.inl rfl
  | error e => exact Or.inr rfl

theorem schema_attempt (environment : Environment) (config : Configuration) (file : ConfigFile) :
    (config.attempt environment file).schema = config.schema := by
  rcases attempt_cases environment config file with hupdate | hsame
  · exact schema_of_update hupdate
  · rw [hsame]

theorem hasSection_run {name : String} (h : config.hasSection name = true)
    (calls : List (Environment × ConfigFile)) : (config.run calls).hasSection name = true := by
  induction calls generalizing config with
  | nil => exact h
  | cons call calls ih =>
    rw [run_cons]
    refine ih ?_
    rcases attempt_cases call.1 config call.2 with hupdate | hsame
    · exact hasSection_of_update hupdate h
    · rw [hsame]
      exact h

end Configuration

end LayeredConfig
