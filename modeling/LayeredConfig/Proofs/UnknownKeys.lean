/-
  LayeredConfig.Proofs.UnknownKeys

  Two ways to find a key that no setting has.

  A file is searched for such keys before it is merged, and the merged document
  meets them again while it is taken apart and its sections are validated.  The
  search of a document lists the keys of its sections that are no settings, in
  their order (`unknownKeys_eq`).  Where it finds none, and the top of the
  document has passed, validation finds none either
  (`buildData_ne_unknownSetting`); where one of the two fails, so does strict
  validation.  What both let through is closed under merging (`Passes.overlay`),
  so that nothing new is found in merged files (`unknownKeys_agree`).
-/
import LayeredConfig.Proofs.Diagnosis

namespace LayeredConfig

/-! ## The keys of sections -/

/-- The keys of all tables at the top of a document, each behind the name of its
    table, in the order of the document. -/
def Document.tableKeys (doc : Document) : List (String × String) :=
  doc.flatMap fun (name, v) =>
    match v with
    | .table entries => (Document.keys entries).map (name, ·)
    | _ => []

/-! ## Faults of settings -/

theorem Guard.fault?_ne_unknownSetting {environment : Environment} (guard : Guard)
    (address : Address) (v : Value) (key : String) (sectionName : Option String) :
    guard.fault? environment address v ≠ some (.unknownSetting key sectionName) := by
  rw [Guard.fault?]
  split <;> simp

/-- Whatever is wrong with the value of a setting, the setting itself is known. -/
theorem Setting.fault?_ne_unknownSetting {environment : Environment} (setting : Setting)
    (address : Address) (raw : Value) (key : String) (sectionName : Option String) :
    setting.fault? environment address raw ≠ some (.unknownSetting key sectionName) := by
  rw [Setting.fault?]
  split
  · simp
  · intro h
    obtain ⟨guard, -, hguard⟩ := List.exists_of_findSome?_eq_some h
    exact Guard.fault?_ne_unknownSetting guard address _ key sectionName hguard

namespace Schema

variable {environment : Environment} {schema : Schema} {strict : Bool}

/-- The keys of the sections of a document that no setting has. -/
def strayKeys (schema : Schema) (doc : Document) : List (String × String) :=
  doc.tableKeys.filter fun (name, key) => !schema.declares name && !schema.declares key

/-- A key of a section as it is listed. -/
def dotted (stray : String × String) : String :=
  stray.1 ++ "." ++ stray.2

theorem unknownKeys_eq (schema : Schema) (doc : Document) :
    schema.unknownKeys doc = (schema.strayKeys doc).map dotted := by
  rw [unknownKeys, strayKeys, Document.tableKeys, List.filter_flatMap, List.map_flatMap]
  congr 1
  funext entry
  obtain ⟨name, v⟩ := entry
  cases v with
  | table entries =>
    by_cases hname : schema.declares name = true
    · simp [hname, List.filter_map, Function.comp_def]
    · simp [hname, unknownKeysOf, List.filter_map, Function.comp_def, dotted]
  | _ => simp [unknownKeysOf]

theorem mem_strayKeys_iff {doc : Document} {name key : String} :
    (name, key) ∈ schema.strayKeys doc ↔
      schema.declares name = false ∧ schema.declares key = false
        ∧ ∃ entries, (name, Value.table entries) ∈ doc ∧ key ∈ Document.keys entries := by
  have hmem : (name, key) ∈ doc.tableKeys ↔
      ∃ entries, (name, Value.table entries) ∈ doc ∧ key ∈ Document.keys entries := by
    rw [Document.tableKeys, List.mem_flatMap]
    constructor
    · rintro ⟨⟨other, v⟩, he, hkey⟩
      cases v with
      | table entries =>
        obtain ⟨k, hk, heq⟩ := List.mem_map.mp hkey
        obtain ⟨rfl, rfl⟩ := Prod.mk.inj heq
        exact ⟨entries, he, hk⟩
      | _ => exact absurd hkey (by simp)
    · rintro ⟨entries, he, hkey⟩
      exact ⟨_, he, List.mem_map_of_mem hkey⟩
  rw [strayKeys, List.mem_filter, hmem]
  simp only [Bool.and_eq_true, Bool.not_eq_true']
  tauto

/-- A key stands once in its section, and a section once in its document. -/
theorem nodup_tableKeys {doc : Document} (h : doc.WellFormed) : doc.tableKeys.Nodup := by
  rw [Document.tableKeys, List.nodup_flatMap]
  refine ⟨?_, (List.pairwise_map.mp h.distinct).imp ?_⟩
  · rintro ⟨name, v⟩ he
    cases v with
    | table entries =>
      have hentries : Document.Distinct entries :=
        h.distinct_of_find? (h.distinct.find?_eq_some_iff.mpr he)
      exact List.Nodup.map (fun _ _ heq => (Prod.mk.inj heq).2) hentries
    | _ => exact List.nodup_nil
  · -- the keys of two tables are told apart by the names of these
    rintro ⟨name, v⟩ ⟨other, w⟩ hne ⟨first, key⟩ hfirst hsecond
    have hname {name : String} {v : Value} (hmem : (first, key) ∈ (match v with
        | .table entries => (Document.keys entries).map (name, ·)
        | _ => [] : List (String × String))) : first = name := by
      cases v with
      | table entries =>
        obtain ⟨k, -, heq⟩ := List.mem_map.mp hmem
        exact (Prod.mk.inj heq).1.symm
      | _ => exact absurd hmem (by simp)
    exact hne ((hname hfirst).symm.trans (hname hsecond))

/-! ## Validation without unknown keys -/

/-- All keys that are visited are settings, if the sections have no others. -/
theorem declares_of_mem_visits {raw : Document} (hknown : schema.unknownKeys raw = [])
    {visit : Visit} (h : visit ∈ schema.visits raw) :
    schema.declares visit.address.key = true := by
  rcases List.mem_append.mp h with htop | hsection
  · obtain ⟨-, hmem⟩ := Document.mem_visits_iff.mp htop
    exact (List.mem_filter.mp hmem).2
  · obtain ⟨⟨name, entries⟩, hopened, hvisit⟩ := List.mem_flatMap.mp hsection
    obtain ⟨hmem, hname⟩ := mem_sections_iff.mp hopened
    obtain ⟨-, hkey⟩ := Document.mem_visits_iff.mp hvisit
    exact unknownKeys_eq_nil_iff.mp hknown name entries hmem hname _ hkey

theorem buildData_ne_unknownSetting {raw : Document} (hfits : schema.Fits raw)
    (hknown : schema.unknownKeys raw = []) (key : String) (sectionName : Option String) :
    schema.buildData environment strict raw ≠ .error (.unknownSetting key sectionName) := by
  intro h
  rw [← reported_eq_some_iff, reported_buildData, find?_misfits_eq_none_iff.mpr hfits,
    Option.map_none, Option.none_or] at h
  obtain ⟨visit, hvisit, hfault⟩ := List.exists_of_findSome?_eq_some h
  obtain ⟨setting, hsetting⟩ := Option.isSome_iff_exists.mp (declares_of_mem_visits hknown hvisit)
  rw [fault?, hsetting] at hfault
  exact Setting.fault?_ne_unknownSetting setting _ _ key sectionName hfault

/-! ## Both checks -/

/-- What both checks of a document let through. -/
structure Passes (schema : Schema) (doc : Document) : Prop where
  top : schema.checkTopLevel doc = .ok ()
  sections : schema.unknownKeys doc = []

theorem passes_iff_admits {doc : Document} : schema.Passes doc ↔ schema.Admits true doc :=
  ⟨fun h => ⟨checkTopLevel_eq_ok_iff.mp h.top, fun _ => h.sections⟩,
    fun h => ⟨checkTopLevel_eq_ok_iff.mpr h.fits, h.known rfl⟩⟩

theorem exists_error_of_not_passes {doc : Document} (h : ¬ schema.Passes doc) :
    ∃ e, schema.buildData environment true doc = .error e := by
  rw [exists_error_iff]
  rintro ⟨data, hdata⟩
  obtain ⟨hlenient, hknown⟩ := buildData_strict_eq_ok_iff.mp hdata
  exact h ⟨checkTopLevel_eq_ok_iff.mpr (buildData_eq_ok_iff.mp hlenient).1, hknown⟩

/-- What lies on top is a table or a setting if both documents only have these. -/
theorem Fits.overlay {lower upper : Document} (hlower : lower.Distinct) (hupper : upper.Distinct)
    (hbelow : schema.Fits lower) (habove : schema.Fits upper) :
    schema.Fits (Document.overlay lower upper) := by
  refine (fits_iff (hlower.overlay upper)).mpr fun key v hfind => ?_
  rw [Document.find?_overlay hlower hupper] at hfind
  cases hup : upper.find? key with
  | none =>
    rw [hup, Value.stack_none] at hfind
    exact (fits_iff hlower).mp hbelow key v hfind
  | some w =>
    rw [hup, Value.stack, Option.some.injEq] at hfind
    rw [← hfind, Value.isTable_overlay]
    exact (fits_iff hupper).mp habove key w hup

theorem Passes.overlay {lower upper : Document} (hlower : lower.WellFormed)
    (hupper : upper.WellFormed) (hbelow : schema.Passes lower) (habove : schema.Passes upper) :
    schema.Passes (Document.overlay lower upper) := by
  rw [passes_iff_admits] at hbelow habove ⊢
  refine ⟨hbelow.fits.overlay hlower.distinct hupper.distinct habove.fits, fun _ => ?_⟩
  rw [← knowsSections_iff (hlower.distinct.overlay upper)]
  exact hbelow.knowsSections.overlay hlower hupper habove.knowsSections

theorem passes_ofLayers {docs : List Document} (hdocs : ∀ doc ∈ docs, doc.WellFormed)
    (h : ∀ doc ∈ docs, schema.Passes doc) : schema.Passes (Document.ofLayers docs) := by
  -- what is merged so far has to be well-formed for the next document to be laid over it
  have hfold : (Document.ofLayers docs).WellFormed ∧ schema.Passes (Document.ofLayers docs) := by
    refine List.foldlRecOn (motive := fun merged : Document =>
      merged.WellFormed ∧ schema.Passes merged) docs _ ⟨Document.wellFormed_nil, rfl, rfl⟩ ?_
    rintro merged ⟨hmerged, hpasses⟩ doc hdoc
    exact ⟨hmerged.overlay (hdocs doc hdoc), hpasses.overlay hmerged (hdocs doc hdoc) (h doc hdoc)⟩
  exact hfold.2

theorem passes_of_mergeFiles {files : List ConfigFile} {merged : Document}
    (h : schema.mergeFiles true files = .ok merged) : schema.Passes merged := by
  obtain ⟨docs, hdocs, hadmits, rfl⟩ := mergeFiles_eq_ok_iff.mp h
  exact passes_ofLayers (ConfigFile.wellFormed_of_mapM hdocs)
    fun doc hdoc => passes_iff_admits.mpr (hadmits doc hdoc)

/-- The checks of a document and its validation agree on what is unknown.  The
    search lists the keys of sections that are no settings, each once and in
    order.  What passes the checks has no unknown setting in either mode, and what
    does not pass fails in strict mode.  Merging keeps what passes, so files that
    merge in strict mode have no unknown setting together. -/
theorem unknownKeys_agree (environment : Environment) (schema : Schema) :
    (∀ doc : Document, doc.WellFormed →
        schema.unknownKeys doc = (schema.strayKeys doc).map dotted
          ∧ (schema.strayKeys doc).Nodup
          ∧ (schema.strayKeys doc).Sublist doc.tableKeys
          ∧ ∀ name key, (name, key) ∈ schema.strayKeys doc ↔
            schema.declares name = false ∧ schema.declares key = false
              ∧ ∃ entries, (name, Value.table entries) ∈ doc ∧ key ∈ Document.keys entries)
      ∧ (∀ doc, schema.checkTopLevel doc = .ok () → schema.unknownKeys doc = [] →
        ∀ strict key sectionName,
          schema.buildData environment strict doc ≠ .error (.unknownSetting key sectionName))
      ∧ (∀ doc, schema.checkTopLevel doc ≠ .ok () ∨ schema.unknownKeys doc ≠ [] →
        ∃ e, schema.buildData environment true doc = .error e)
      ∧ (∀ lower upper : Document, lower.WellFormed → upper.WellFormed → schema.Passes lower →
        schema.Passes upper → schema.Passes (Document.overlay lower upper))
      ∧ ∀ files merged, schema.mergeFiles true files = .ok merged →
        ∀ strict key sectionName,
          schema.buildData environment strict merged
            ≠ .error (.unknownSetting key sectionName) := by
  refine ⟨fun doc hdoc => ⟨unknownKeys_eq schema doc, (nodup_tableKeys hdoc).filter _,
    List.filter_sublist, fun name key => mem_strayKeys_iff⟩, ?_, ?_, ?_, ?_⟩
  · intro doc htop hknown strict key sectionName
    exact buildData_ne_unknownSetting (checkTopLevel_eq_ok_iff.mp htop) hknown key sectionName
  · intro doc hreports
    refine exists_error_of_not_passes fun h => ?_
    exact hreports.elim (fun htop => htop h.top) fun hknown => hknown h.sections
  · exact fun lower upper hlower hupper hbelow habove => hbelow.overlay hlower hupper habove
  · intro files merged hmerged strict key sectionName
    have hpasses := passes_of_mergeFiles hmerged
    exact buildData_ne_unknownSetting (checkTopLevel_eq_ok_iff.mp hpasses.top) hpasses.sections
      key sectionName

/-- Two unknown keys in sections of different names, and a file in which a table
    lies over another. -/
theorem unknownKeys_agree_server :
    let faulty : Document := [("edge", .table [("port", .int 1), ("path", .null)]),
      ("host", .table [("path", .null)]), ("core", .table [("path", .null)])]
    let files : List ConfigFile := [⟨"a.toml", "[edge]\nport = 8080\n"⟩,
      ⟨"b.toml", "host = \"b\"\n[edge]\nport = \"none\"\n"⟩]
    faulty.WellFormed ∧ server.unknownKeys faulty = ["edge.path", "core.path"]
      ∧ (∃ e, server.buildData .empty true faulty = .error e)
      ∧ ∃ merged, server.mergeFiles true files = .ok merged
        ∧ ∀ strict key sectionName,
          server.buildData .empty strict merged ≠ .error (.unknownSetting key sectionName) := by
  intro faulty files
  obtain ⟨hlists, -, hfails, -, hmerges⟩ := unknownKeys_agree .empty server
  have hfaulty : faulty.WellFormed := by
    simp [faulty, Document.wellFormed_cons, Document.wellFormed_nil,
      Value.wellFormed_table_iff, Value.WellFormed.null, Value.WellFormed.number]
  have hstrays : server.unknownKeys faulty = ["edge.path", "core.path"] :=
    (hlists faulty hfaulty).1.trans (by decide +kernel)
  have hmerged : (server.mergeFiles true files).toOption.isSome = true := by decide +kernel
  obtain ⟨merged, hok⟩ := Option.isSome_iff_exists.mp hmerged
  rw [toOption_eq_some_iff] at hok
  exact ⟨hfaulty, hstrays, hfails faulty (Or.inr (by simp [hstrays])), merged, hok,
    hmerges files merged hok⟩

end Schema

end LayeredConfig
