/-
  LayeredConfig.Proofs.Strictness

  What strict mode adds to lenient mode.

  For one merged document it asks that the sections have no key but settings
  (`buildData_strict_eq_ok_iff`).  A section of a merged document has the keys of
  all layers, unless something that is no table lies over it, and that fails in
  both modes; so the question about the merged document is one about every layer
  on its own.  What strict mode does not see is a text in the place of a section:
  it gives way to a table without being looked at, and only the variables of the
  environment meet a layer above them before they are checked.
-/
import LayeredConfig.Proofs.Regrouping

namespace LayeredConfig

namespace Schema

variable {environment : Environment} {schema : Schema} {strict : Bool}

/-! ## One merged document -/

theorem accepts_strict_iff {key : String} {raw : Value} :
    schema.Accepts environment true key raw ↔
      schema.Accepts environment false key raw ∧ schema.declares key = true := by
  by_cases hkey : schema.declares key = true
  · simp [Accepts, hkey]
  · rw [Bool.not_eq_true] at hkey
    simp [Accepts, hkey, validated?_eq_none environment hkey]

theorem sectionData_strict_eq_ok_iff {sectionName : Option String} {raw : Document}
    {data : SectionData} :
    schema.sectionData environment true sectionName raw = .ok data ↔
      schema.sectionData environment false sectionName raw = .ok data
        ∧ ∀ e ∈ raw, schema.declares e.1 = true := by
  rw [sectionData_eq_ok_iff, sectionData_eq_ok_iff]
  simp only [accepts_strict_iff, forall_and]
  tauto

theorem namedSections_strict_eq_ok_iff {sections : List (String × Document)}
    {named : List (String × SectionData)} :
    schema.namedSections environment true sections = .ok named ↔
      schema.namedSections environment false sections = .ok named
        ∧ ∀ e ∈ sections, ∀ f ∈ e.2, schema.declares f.1 = true := by
  induction sections generalizing named with
  | nil => simp [namedSections]
  | cons entry rest ih =>
    obtain ⟨name, raw⟩ := entry
    simp only [namedSections, bind_eq_ok_iff, sectionData_strict_eq_ok_iff, ih,
      List.forall_mem_cons]
    constructor
    · rintro ⟨data, ⟨hdata, hraw⟩, others, ⟨hothers, hrest⟩, heq⟩
      exact ⟨⟨data, hdata, others, hothers, heq⟩, hraw, hrest⟩
    · rintro ⟨⟨data, hdata, others, hothers, heq⟩, hraw, hrest⟩
      exact ⟨data, ⟨hdata, hraw⟩, others, ⟨hothers, hrest⟩, heq⟩

/-- The sections of a document are its tables under keys that are no settings. -/
theorem mem_sections_iff {doc : Document} {entry : String × Document} :
    entry ∈ doc.filterMap (fun e => (schema.opened? e.1 e.2).map (e.1, ·)) ↔
      (entry.1, Value.table entry.2) ∈ doc ∧ schema.declares entry.1 = false := by
  obtain ⟨name, entries⟩ := entry
  rw [List.mem_filterMap]
  constructor
  · rintro ⟨⟨key, v⟩, hmem, hopened⟩
    obtain ⟨opened, hsome, heq⟩ := Option.map_eq_some_iff.mp hopened
    obtain ⟨rfl, rfl⟩ := Prod.mk.inj heq
    obtain ⟨hkey, rfl⟩ := opened?_eq_some_iff.mp hsome
    exact ⟨hmem, hkey⟩
  · rintro ⟨hmem, hname⟩
    refine ⟨_, hmem, ?_⟩
    rw [opened?_eq_some_iff.mpr ⟨hname, rfl⟩]
    rfl

theorem unknownKeys_eq_nil_iff {doc : Document} :
    schema.unknownKeys doc = [] ↔
      ∀ name entries, (name, Value.table entries) ∈ doc → schema.declares name = false →
        ∀ e ∈ entries, schema.declares e.1 = true := by
  induction doc with
  | nil => simp [unknownKeys]
  | cons entry rest ih =>
    obtain ⟨key, v⟩ := entry
    have hsplit : schema.unknownKeys ((key, v) :: rest) = [] ↔
        (if schema.declares key then [] else schema.unknownKeysOf key v) = []
          ∧ schema.unknownKeys rest = [] := by
      simp [unknownKeys]
    rw [hsplit, ih]
    have hhead : (if schema.declares key then [] else schema.unknownKeysOf key v) = [] ↔
        ∀ entries, v = .table entries → schema.declares key = false →
          ∀ e ∈ entries, schema.declares e.1 = true := by
      by_cases hkey : schema.declares key = true
      · simp [hkey]
      · cases v <;> simp [hkey, unknownKeysOf, Document.keys]
    rw [hhead]
    constructor
    · rintro ⟨hfirst, hrest⟩ name entries hmem hname
      rcases List.mem_cons.mp hmem with heq | hmem
      · obtain ⟨rfl, rfl⟩ := Prod.mk.inj heq
        exact hfirst entries rfl hname
      · exact hrest name entries hmem hname
    · intro h
      refine ⟨fun entries hv => ?_, fun name entries hmem => ?_⟩
      · subst hv
        exact h key entries List.mem_cons_self
      · exact h name entries (List.mem_cons_of_mem _ hmem)

/-- Of a merged document strict mode asks no more than lenient mode but that the
    sections have no key besides the settings. -/
theorem buildData_strict_eq_ok_iff {raw : Document} {data : ConfigData} :
    schema.buildData environment true raw = .ok data ↔
      schema.buildData environment false raw = .ok data ∧ schema.unknownKeys raw = [] := by
  have hglobal : ∀ e ∈ raw.filter (fun e => schema.declares e.1),
      schema.declares e.1 = true :=
    fun e he => (List.mem_filter.mp he).2
  have hsections : schema.unknownKeys raw = [] ↔
      ∀ e ∈ raw.filterMap (fun e => (schema.opened? e.1 e.2).map (e.1, ·)),
        ∀ f ∈ e.2, schema.declares f.1 = true := by
    simp only [unknownKeys_eq_nil_iff, mem_sections_iff, and_imp, Prod.forall]
  rw [buildData_eq_ok_iff, buildData_eq_ok_iff, hsections]
  simp only [sectionData_strict_eq_ok_iff, namedSections_strict_eq_ok_iff]
  constructor
  · rintro ⟨hfits, ⟨hsettings, -⟩, named, ⟨hnamed, hknown⟩, heq⟩
    exact ⟨⟨hfits, hsettings, named, hnamed, heq⟩, hknown⟩
  · rintro ⟨⟨hfits, hsettings, named, hnamed, heq⟩, hknown⟩
    exact ⟨hfits, ⟨hsettings, hglobal⟩, named, ⟨hnamed, hknown⟩, heq⟩

/-! ## Sections of layers -/

/-- Where no key stands twice, the entries of a document are what it binds. -/
theorem knowsSections_iff {doc : Document} (h : doc.Distinct) :
    schema.KnowsSections true doc ↔ schema.unknownKeys doc = [] := by
  rw [unknownKeys_eq_nil_iff]
  constructor
  · intro hknows name entries hmem hname e he
    exact hknows rfl name entries hname (h.find?_eq_some_iff.mpr hmem) e.1 (List.mem_map_of_mem he)
  · intro hknown _ name entries hname hfind key hkey
    obtain ⟨e, he, rfl⟩ := List.mem_map.mp hkey
    exact hknown name entries (Document.mem_of_find?_eq_some hfind) hname e he

theorem fits_iff {doc : Document} (h : doc.Distinct) :
    schema.Fits doc ↔ ∀ key v, doc.find? key = some v →
      schema.declares key = true ∨ v.isTable = true := by
  constructor
  · exact fun hfits key v hfind => hfits _ (Document.mem_of_find?_eq_some hfind)
  · exact fun hfits e he => hfits e.1 e.2 (h.find?_eq_some_iff.mpr he)

/-- What lies on top of a document that fits shows, so it fits itself. -/
theorem fits_of_overlay {lower upper : Document} (hlower : lower.Distinct)
    (hupper : upper.Distinct) (h : schema.Fits (Document.overlay lower upper)) :
    schema.Fits upper := by
  rw [fits_iff (hlower.overlay upper)] at h
  refine (fits_iff hupper).mpr fun key v hfind => ?_
  have hmerged : (Document.overlay lower upper).find? key
      = some (Value.overlay (lower.find? key) v) := by
    rw [Document.find?_overlay hlower hupper, hfind, Value.stack]
  have hkey := h key _ hmerged
  rwa [Value.isTable_overlay] at hkey

/-- In a merged document that fits every section has the keys that either layer
    gives it. -/
theorem knowsSections_of_overlay {lower upper : Document} (hlower : lower.WellFormed)
    (hupper : upper.WellFormed) (hfits : schema.Fits (Document.overlay lower upper))
    (hknows : schema.KnowsSections strict (Document.overlay lower upper)) :
    schema.KnowsSections strict lower ∧ schema.KnowsSections strict upper := by
  have hmerged := Document.find?_overlay hlower.distinct hupper.distinct
  refine ⟨fun hstrict name entries hname hfind key hkey => ?_,
    fun hstrict name entries hname hfind key hkey => ?_⟩
  · -- the section of the lower layer is still there, since nothing else may lie over it
    have hbinds : entries.binds key = true := Document.binds_iff.mpr hkey
    rcases Value.isTable_or (upper.find? name) with ⟨above, habove⟩ | habove
    · have hsection := hmerged name
      rw [hfind, habove, Value.stack_table_table] at hsection
      refine hknows hstrict name _ hname hsection key ?_
      rw [← Document.binds_iff, Document.binds_overlay (hlower.distinct_of_find? hfind)
        (hupper.distinct_of_find? habove), Bool.or_eq_true]
      exact Or.inl hbinds
    · cases hup : upper.find? name with
      | none =>
        have hsection := hmerged name
        rw [hfind, hup, Value.stack_none] at hsection
        exact hknows hstrict name entries hname hsection key hkey
      | some v =>
        have htop := (fits_iff hupper.distinct).mp
          (fits_of_overlay hlower.distinct hupper.distinct hfits) name v hup
        rw [hname] at htop
        obtain ⟨above, rfl⟩ := Value.isTable_iff.mp (by simpa using htop)
        exact absurd hup (habove above)
  · -- the section of the upper layer shows, with what the lower one adds
    have hsection := hmerged name
    rcases Value.isTable_or (lower.find? name) with ⟨below, hbelow⟩ | hbelow
    · rw [hfind, hbelow, Value.stack_table_table] at hsection
      refine hknows hstrict name _ hname hsection key ?_
      rw [← Document.binds_iff, Document.binds_overlay (hlower.distinct_of_find? hbelow)
        (hupper.distinct_of_find? hfind), Bool.or_eq_true]
      exact Or.inr (Document.binds_iff.mpr hkey)
    · rw [hfind, Value.stack_of_below hbelow] at hsection
      exact hknows hstrict name entries hname hsection key hkey

/-! ## All layers -/

/-- Strict resolution is lenient resolution of layers whose sections have no key
    but settings. -/
theorem resolve_strict_iff_exists {files : List ConfigFile} {layers : RuntimeLayers}
    {data : ConfigData} (hoverrides : layers.WellFormed) :
    schema.resolve environment true files layers = .ok data ↔
      ∃ docs, files.mapM ConfigFile.document = .ok docs
        ∧ (∀ doc ∈ docs, schema.Fits doc)
        ∧ (∀ doc ∈ docs ++ [layers.variableDocument, layers.overrideDocument],
            schema.unknownKeys doc = [])
        ∧ schema.buildData environment false
            (Document.overlay (Document.ofLayers docs) layers.document) = .ok data := by
  have hvariables := layers.wellFormed_variableDocument
  have htop := hoverrides.overrideDocument
  rw [resolve_eq_ok_iff]
  simp only [buildData_strict_eq_ok_iff, List.forall_mem_append, List.forall_mem_cons,
    List.not_mem_nil, false_implies, implies_true, and_true]
  refine exists_congr fun docs => and_congr_right fun hdocs => ?_
  have hfiles := ConfigFile.wellFormed_of_mapM hdocs
  have hmerged := Document.wellFormed_ofLayers hfiles
  have hall := hmerged.overlay hoverrides.document
  constructor
  · rintro ⟨hadmits, hbuild, hknown⟩
    -- from the merged document down to the two layers above the files
    have hfits := (buildData_eq_ok_iff.mp hbuild).1
    have hknows := (knowsSections_iff hall.distinct).mpr hknown
    have habove := (knowsSections_of_overlay hmerged hoverrides.document hfits hknows).2
    have hfitsAbove := fits_of_overlay hmerged.distinct layers.distinct_document hfits
    have hparts := knowsSections_of_overlay hvariables htop hfitsAbove habove
    exact ⟨fun doc hdoc => (hadmits doc hdoc).fits,
      ⟨fun doc hdoc => (hadmits doc hdoc).known rfl,
        (knowsSections_iff hvariables.distinct).mp hparts.1,
        (knowsSections_iff htop.distinct).mp hparts.2⟩, hbuild⟩
  · rintro ⟨hfits, ⟨hknown, hknownVariables, hknownTop⟩, hbuild⟩
    have hadmits : ∀ doc ∈ docs, schema.Admits true doc :=
      fun doc hdoc => ⟨hfits doc hdoc, fun _ => hknown doc hdoc⟩
    have habove : schema.KnowsSections true layers.document :=
      KnowsSections.overlay hvariables htop
        ((knowsSections_iff hvariables.distinct).mpr hknownVariables)
        ((knowsSections_iff htop.distinct).mpr hknownTop)
    have hknows := KnowsSections.overlay hmerged hoverrides.document
      (knowsSections_ofLayers hfiles hadmits) habove
    exact ⟨hadmits, hbuild, (knowsSections_iff hall.distinct).mp hknows⟩

/-- Strict resolution makes the data that lenient resolution makes, and makes
    them exactly if no layer has a section with a key that is no setting. -/
theorem resolve_strict_eq_ok_iff {files : List ConfigFile} {layers : RuntimeLayers}
    {data : ConfigData} (hoverrides : layers.WellFormed) :
    schema.resolve environment true files layers = .ok data ↔
      schema.resolve environment false files layers = .ok data
        ∧ (∀ file ∈ files, ∀ doc, file.document = .ok doc → schema.unknownKeys doc = [])
        ∧ schema.unknownKeys layers.variableDocument = []
        ∧ schema.unknownKeys layers.overrideDocument = [] := by
  rw [resolve_strict_iff_exists hoverrides, resolve_eq_ok_iff]
  simp only [List.forall_mem_append, List.forall_mem_cons, List.not_mem_nil, false_implies,
    implies_true, and_true]
  constructor
  · rintro ⟨docs, hdocs, hfits, ⟨hknown, hvariables, htop⟩, hbuild⟩
    refine ⟨⟨docs, hdocs, fun doc hdoc => ⟨hfits doc hdoc, by simp⟩, hbuild⟩, ?_, hvariables, htop⟩
    exact fun file hfile doc hdoc =>
      hknown doc ((ConfigFile.mem_iff_of_mapM hdocs).mpr ⟨file, hfile, hdoc⟩)
  · rintro ⟨⟨docs, hdocs, hadmits, hbuild⟩, hknown, hvariables, htop⟩
    refine ⟨docs, hdocs, fun doc hdoc => (hadmits doc hdoc).fits, ⟨fun doc hdoc => ?_,
      hvariables, htop⟩, hbuild⟩
    obtain ⟨file, hfile, hdocument⟩ := (ConfigFile.mem_iff_of_mapM hdocs).mp hdoc
    exact hknown file hfile doc hdocument

/-- Two sections, one of them in two layers, without unknown keys. -/
theorem resolve_strict_eq_ok_iff_server :
    let files : List ConfigFile := [⟨"a.toml", "host = \"a\"\n[edge]\nport = 8080\n"⟩]
    let layers : RuntimeLayers := ⟨some "APP", [("APP__EDGE__PORT", "81")],
      [("core.host", .string "b")]⟩
    layers.WellFormed
      ∧ ∃ data, server.resolve .empty true files layers = .ok data
        ∧ server.resolve .empty false files layers = .ok data
        ∧ (∀ file ∈ files, ∀ doc, file.document = .ok doc → server.unknownKeys doc = [])
        ∧ server.unknownKeys layers.variableDocument = []
        ∧ server.unknownKeys layers.overrideDocument = [] := by
  intro files layers
  have hoverrides : layers.WellFormed := by
    intro o ho
    obtain rfl := List.mem_singleton.mp ho
    exact .string "b"
  have hresolves : (server.resolve .empty true files layers).toOption.isSome = true := by
    decide +kernel
  obtain ⟨data, hdata⟩ := Option.isSome_iff_exists.mp hresolves
  rw [toOption_eq_some_iff] at hdata
  exact ⟨hoverrides, data, hdata, (resolve_strict_eq_ok_iff hoverrides).mp hdata⟩

/-! ## Offences -/

/-- A key at the top of a document is no setting, and it is bound to something
    that is no table, or to a section with a key that is no setting. -/
def OffendsAt (schema : Schema) (key : String) (v : Value) : Prop :=
  schema.declares key = false
    ∧ ∀ entries, v = .table entries → ∃ e ∈ entries, schema.declares e.1 = false

theorem offendsAt_table_iff {key : String} {entries : Document} :
    schema.OffendsAt key (.table entries) ↔
      schema.declares key = false ∧ ∃ e ∈ entries, schema.declares e.1 = false := by
  simp [OffendsAt]

/-- A document has a key that no setting has, at its top or in a section. -/
def Offends (schema : Schema) (doc : Document) : Prop :=
  ∃ e ∈ doc, schema.OffendsAt e.1 e.2

/-- A table offends by its keys, and anything else by itself. -/
theorem not_offends_iff {doc : Document} :
    ¬schema.Offends doc ↔ schema.Fits doc ∧ schema.unknownKeys doc = [] := by
  rw [unknownKeys_eq_nil_iff]
  constructor
  · intro h
    refine ⟨fun e he => ?_, fun name entries hmem hname e he => ?_⟩
    · by_contra hfits
      rw [not_or, Bool.not_eq_true, Bool.not_eq_true] at hfits
      refine h ⟨e, he, hfits.1, fun entries hentries => ?_⟩
      rw [hentries] at hfits
      exact absurd hfits.2 (by simp [Value.isTable])
    · by_contra hunknown
      rw [Bool.not_eq_true] at hunknown
      exact h ⟨_, hmem, offendsAt_table_iff.mpr ⟨hname, e, he, hunknown⟩⟩
  · rintro ⟨hfits, hknown⟩ ⟨⟨name, v⟩, hmem, hname, hoffends⟩
    have htable := hfits _ hmem
    rw [hname] at htable
    obtain ⟨entries, rfl⟩ := Value.isTable_iff.mp (by simpa using htable)
    obtain ⟨e, he, hunknown⟩ := hoffends entries rfl
    exact absurd (hunknown.symm.trans (hknown name entries hmem hname e he)) (by simp)

end Schema

/-- The environment gives a key a text where the overrides have a section. -/
def RuntimeLayers.Hides (layers : RuntimeLayers) (key : String) : Prop :=
  (∃ v, layers.variableDocument.find? key = some v ∧ v.isTable = false)
    ∧ ∃ entries, layers.overrideDocument.find? key = some (.table entries)

namespace Schema

variable {environment : Environment} {schema : Schema} {strict : Bool}

/-- Where the layers above the files fit together, only a text of the environment
    that an override hides does not fit by itself. -/
theorem hides_of_fits {layers : RuntimeLayers} (hfits : schema.Fits layers.document)
    {key : String} {v : Value} (hmem : (key, v) ∈ layers.variableDocument)
    (hkey : schema.declares key = false) (hv : v.isTable = false) : layers.Hides key := by
  have hvariables := layers.wellFormed_variableDocument.distinct
  have hfind := hvariables.find?_eq_some_iff.mpr hmem
  refine ⟨⟨v, hfind, hv⟩, ?_⟩
  have hmerged := Document.find?_overlay hvariables layers.distinct_overrideDocument key
  rw [← RuntimeLayers.document_eq, hfind] at hmerged
  rw [fits_iff layers.distinct_document] at hfits
  cases htop : layers.overrideDocument.find? key with
  | none =>
    rw [htop, Value.stack_none] at hmerged
    have hshown := hfits key v hmerged
    simp [hkey, hv] at hshown
  | some w =>
    rw [htop, Value.stack] at hmerged
    have hshown := hfits key _ hmerged
    rw [Value.isTable_overlay, hkey] at hshown
    obtain ⟨entries, rfl⟩ := Value.isTable_iff.mp (by simpa using hshown)
    exact ⟨entries, rfl⟩

/-- Strict resolution fails where lenient resolution does, and where a layer has
    a key that no setting has, and nowhere else.  The one such key that does not
    count is a variable's with a section of the overrides in its place. -/
theorem resolve_strict_fails_iff {files : List ConfigFile} {layers : RuntimeLayers}
    (hoverrides : layers.WellFormed) :
    (∃ e, schema.resolve environment true files layers = .error e) ↔
      (∃ e, schema.resolve environment false files layers = .error e)
        ∨ (∃ file ∈ files, ∃ doc, file.document = .ok doc ∧ schema.Offends doc)
        ∨ (∃ e ∈ layers.variableDocument, schema.OffendsAt e.1 e.2 ∧ ¬layers.Hides e.1)
        ∨ schema.Offends layers.overrideDocument := by
  rw [exists_error_iff, exists_error_iff, not_iff_comm, not_or, not_not, not_or, not_or,
    not_offends_iff]
  constructor
  · rintro ⟨⟨data, hdata⟩, hfiles, hvariables, htop⟩
    obtain ⟨docs, hdocs, hadmits, hbuild⟩ := resolve_eq_ok_iff.mp hdata
    have hknown : ∀ doc ∈ docs, schema.unknownKeys doc = [] := by
      intro doc hdoc
      obtain ⟨file, hfile, hdocument⟩ := (ConfigFile.mem_iff_of_mapM hdocs).mp hdoc
      have hclean : ¬schema.Offends doc := fun h => hfiles ⟨file, hfile, doc, hdocument, h⟩
      exact (not_offends_iff.mp hclean).2
    -- what is hidden is no table, so every section of the environment is looked at
    have hknownVariables : schema.unknownKeys layers.variableDocument = [] := by
      refine unknownKeys_eq_nil_iff.mpr fun name entries hmem hname e he => ?_
      by_contra hunknown
      rw [Bool.not_eq_true] at hunknown
      refine hvariables ⟨_, hmem, offendsAt_table_iff.mpr ⟨hname, e, he, hunknown⟩, ?_⟩
      rintro ⟨⟨w, hfind, hw⟩, -⟩
      rw [layers.wellFormed_variableDocument.distinct.find?_eq_some_iff.mpr hmem] at hfind
      obtain rfl := Option.some.inj hfind
      exact absurd hw (by simp [Value.isTable])
    refine ⟨data, (resolve_strict_iff_exists hoverrides).mpr ⟨docs, hdocs, ?_, ?_, hbuild⟩⟩
    · exact fun doc hdoc => (hadmits doc hdoc).fits
    · rw [List.forall_mem_append]
      exact ⟨hknown, by simpa using ⟨hknownVariables, htop.2⟩⟩
  · rintro ⟨data, hdata⟩
    obtain ⟨docs, hdocs, hfits, hknown, hbuild⟩ := (resolve_strict_iff_exists hoverrides).mp hdata
    obtain ⟨hknownFiles, hknownAbove⟩ := List.forall_mem_append.mp hknown
    have hmerged := Document.wellFormed_ofLayers (ConfigFile.wellFormed_of_mapM hdocs)
    have hfitsAbove := fits_of_overlay hmerged.distinct layers.distinct_document
      (buildData_eq_ok_iff.mp hbuild).1
    refine ⟨⟨data, resolve_eq_ok_iff.mpr ⟨docs, hdocs, fun doc hdoc => ⟨hfits doc hdoc, by simp⟩,
      hbuild⟩⟩, ?_, ?_, ?_, hknownAbove _ (by simp)⟩
    · rintro ⟨file, hfile, doc, hdocument, hoffends⟩
      have hdoc := (ConfigFile.mem_iff_of_mapM hdocs).mpr ⟨file, hfile, hdocument⟩
      exact not_offends_iff.mpr ⟨hfits doc hdoc, hknownFiles doc hdoc⟩ hoffends
    · rintro ⟨⟨name, v⟩, hmem, hoffends, hshown⟩
      cases hv : v.isTable with
      | false => exact hshown (hides_of_fits hfitsAbove hmem hoffends.1 hv)
      | true =>
        obtain ⟨entries, rfl⟩ := Value.isTable_iff.mp hv
        obtain ⟨hname, e, he, hunknown⟩ := offendsAt_table_iff.mp hoffends
        have hkey := unknownKeys_eq_nil_iff.mp (hknownAbove layers.variableDocument (by simp))
          name entries hmem hname e he
        exact absurd (hunknown.symm.trans hkey) (by simp)
    · exact fits_of_overlay layers.wellFormed_variableDocument.distinct
        layers.distinct_overrideDocument hfitsAbove

/-- A key of a section that the environment sets and an override does not hide. -/
theorem resolve_strict_fails_iff_server :
    let layers : RuntimeLayers :=
      ⟨some "APP", [("APP__EDGE__TYPO", "1")], [("edge.port", .int 90)]⟩
    layers.WellFormed
      ∧ (∃ e ∈ layers.variableDocument, server.OffendsAt e.1 e.2 ∧ ¬layers.Hides e.1)
      ∧ ∃ e, server.resolve .empty true [] layers = .error e := by
  intro layers
  have hoverrides : layers.WellFormed := by
    intro o ho
    obtain rfl := List.mem_singleton.mp ho
    exact .number (.int 90)
  have hvariables : layers.variableDocument = [("edge", .table [("typo", .string "1")])] := by
    rfl
  have hoffends : ∃ e ∈ layers.variableDocument, server.OffendsAt e.1 e.2 ∧ ¬layers.Hides e.1 := by
    rw [hvariables]
    refine ⟨_, List.mem_singleton_self _, offendsAt_table_iff.mpr ⟨by decide, _,
      List.mem_singleton_self _, by decide⟩, ?_⟩
    rintro ⟨⟨v, hfind, hv⟩, -⟩
    rw [hvariables] at hfind
    obtain rfl := Option.some.inj hfind
    exact absurd hv (by simp [Value.isTable])
  exact ⟨hoverrides, hoffends,
    (resolve_strict_fails_iff hoverrides).mpr (.inr (.inr (.inl hoffends)))⟩

/-- A variable named like a section is no setting, and strict resolution does not
    fail where an override sets a key of the section. -/
theorem resolve_strict_of_hidden_server :
    let layers : RuntimeLayers := ⟨some "APP", [("APP__EDGE", "x")], [("edge.port", .int 90)]⟩
    server.Offends layers.variableDocument
      ∧ (server.resolve .empty true [] layers).toOption.isSome = true := by
  intro layers
  have hvariables : layers.variableDocument = [("edge", .string "x")] := by
    rfl
  refine ⟨?_, by decide +kernel⟩
  rw [hvariables]
  refine ⟨_, List.mem_singleton_self _, by decide, ?_⟩
  simp

end Schema

end LayeredConfig
