/-
  LayeredConfig.Proofs.Diagnosis

  What is reported about a document.

  A key at the top that is no setting and opens no section comes before all
  else.  Then the settings at the top are visited in their order and after them
  the sections in theirs, each key by key, and the first visit with a fault
  decides (`reported_buildData`).  A document without a fault makes data, and
  these hold what was visited and the defaults (`buildData_diagnosis`).
-/
import LayeredConfig.Proofs.Pinned
import LayeredConfig.Proofs.Strictness

namespace LayeredConfig

/-! ## Visits -/

/-- A place that resolution comes to, with what the document binds it to. -/
structure Visit where
  address : Address
  raw : Value

/-- The visits to the keys of one section in their order. -/
def Document.visits (sectionName : Option String) (doc : Document) : List Visit :=
  doc.map fun (key, v) => ⟨⟨sectionName, key⟩, v⟩

/-- The visits to a document: the settings at its top, then the sections. -/
def Schema.visits (schema : Schema) (raw : Document) : List Visit :=
  Document.visits none (raw.filter fun e => schema.declares e.1)
    ++ (raw.filterMap fun e => (schema.opened? e.1 e.2).map (e.1, ·)).flatMap fun e =>
      Document.visits (some e.1) e.2

/-! ## Faults -/

/-- What is wrong with the coerced value of a place by one guard. -/
def Guard.fault? (environment : Environment) (address : Address) (v : Value) (guard : Guard) :
    Option ConfigError :=
  match guard.passes environment v with
  | .ok true => none
  | .ok false => some (.guardViolation address.key address.sectionName guard.message v)
  | .error cause => some (.guardError address.key guard.message cause)

/-- What is wrong with the raw value of a place as a value of a setting: it is
    not coerced, or the first guard that does not let it pass. -/
def Setting.fault? (environment : Environment) (address : Address) (raw : Value)
    (setting : Setting) : Option ConfigError :=
  match setting.type.coerce environment raw with
  | .error cause => some (.invalidValue address.key address.sectionName cause)
  | .ok v => setting.guards.findSome? (Guard.fault? environment address v)

/-- What is wrong at a visit.  A key that no setting has is a fault in strict mode
    only. -/
def Schema.fault? (environment : Environment) (schema : Schema) (strict : Bool) (visit : Visit) :
    Option ConfigError :=
  match schema.find? visit.address.key with
  | some setting => setting.fault? environment visit.address visit.raw
  | none =>
    if strict then some (.unknownSetting visit.address.key visit.address.sectionName) else none

/-- Whether a top-level entry is neither a setting nor a table. -/
def Schema.misfits (schema : Schema) (entry : String × Value) : Bool :=
  !schema.declares entry.1 && !entry.2.isTable

/-! ## Single settings -/

theorem Guard.reported_checkAll (environment : Environment) (key : String) (v : Value)
    (guards : List Guard) :
    reported (checkAll environment key v guards)
      = guards.findSome? (Guard.fault? environment ⟨none, key⟩ v) := by
  induction guards with
  | nil => rfl
  | cons guard guards ih =>
    rw [checkAll, List.findSome?_cons, Guard.fault?]
    cases guard.passes environment v with
    | error cause => rfl
    | ok passed =>
      cases passed with
      | false => rfl
      | true => exact ih

theorem Setting.reported_validate (environment : Environment) (setting : Setting) (raw : Value) :
    reported (setting.validate environment raw)
      = setting.fault? environment ⟨none, setting.name⟩ raw := by
  rw [Setting.validate, Setting.fault?]
  cases setting.type.coerce environment raw with
  | error cause => rfl
  | ok v =>
    simp only
    rw [← Guard.reported_checkAll]
    cases Guard.checkAll environment setting.name v setting.guards <;> rfl

/-- A fault that is found without a section is placed in it afterwards. -/
theorem Guard.map_fault? (environment : Environment) (sectionName : Option String) (key : String)
    (v : Value) (guard : Guard) :
    (guard.fault? environment ⟨none, key⟩ v).map (.inSection sectionName)
      = guard.fault? environment ⟨sectionName, key⟩ v := by
  rw [fault?, fault?]
  cases guard.passes environment v with
  | error cause => rfl
  | ok passed => cases passed <;> rfl

theorem Setting.map_fault? (environment : Environment) (sectionName : Option String) (key : String)
    (raw : Value) (setting : Setting) :
    (setting.fault? environment ⟨none, key⟩ raw).map (.inSection sectionName)
      = setting.fault? environment ⟨sectionName, key⟩ raw := by
  rw [fault?, fault?]
  cases setting.type.coerce environment raw with
  | error cause => rfl
  | ok v =>
    have hguards : Option.map (.inSection sectionName) ∘ Guard.fault? environment ⟨none, key⟩ v
        = Guard.fault? environment ⟨sectionName, key⟩ v :=
      funext (Guard.map_fault? environment sectionName key v)
    simp only
    rw [List.map_findSome?, hguards]

namespace Schema

variable {environment : Environment} {schema : Schema} {strict : Bool}

/-! ## Sections -/

/-- The first key of a section with a fault is reported. -/
theorem reported_validateKeys (environment : Environment) (schema : Schema) (strict : Bool)
    (sectionName : Option String) (raw : Document) :
    reported (schema.validateKeys environment strict sectionName raw)
      = (raw.visits sectionName).findSome? (schema.fault? environment strict) := by
  induction raw with
  | nil => rfl
  | cons entry rest ih =>
    obtain ⟨key, v⟩ := entry
    have hvisits : Document.visits sectionName ((key, v) :: rest)
        = ⟨⟨sectionName, key⟩, v⟩ :: Document.visits sectionName rest := rfl
    rw [validateKeys, hvisits, List.findSome?_cons, fault?]
    cases hfind : schema.find? key with
    | none =>
      cases strict with
      | true => simp [reported]
      | false => simpa using ih
    | some setting =>
      obtain rfl := name_of_find? hfind
      have hfault := Setting.map_fault? environment sectionName setting.name v setting
      have hrest : ∀ held : Held, reported (do
          let others ← schema.validateKeys environment strict sectionName rest
          return (setting.name, held) :: others)
            = (Document.visits sectionName rest).findSome? (schema.fault? environment strict) := by
        intro held
        rw [reported_bind_of_none fun _ => rfl, ih]
      simp only
      rw [reported_bind fun held _ => hrest held, reported_mapError,
        Setting.reported_validate, hfault]
      cases setting.fault? environment ⟨sectionName, setting.name⟩ v <;> rfl

theorem reported_sectionData (environment : Environment) (schema : Schema) (strict : Bool)
    (sectionName : Option String) (raw : Document) :
    reported (schema.sectionData environment strict sectionName raw)
      = (raw.visits sectionName).findSome? (schema.fault? environment strict) := by
  rw [sectionData, reported_bind_of_none fun _ => rfl, reported_validateKeys]

/-- The sections report in their order. -/
theorem reported_namedSections (environment : Environment) (schema : Schema) (strict : Bool)
    (sections : List (String × Document)) :
    reported (schema.namedSections environment strict sections)
      = (sections.flatMap fun e => Document.visits (some e.1) e.2).findSome?
          (schema.fault? environment strict) := by
  induction sections with
  | nil => rfl
  | cons entry rest ih =>
    obtain ⟨name, raw⟩ := entry
    have hrest : ∀ data : SectionData, reported (do
        let others ← schema.namedSections environment strict rest
        return (name, data) :: others)
          = (rest.flatMap fun e => Document.visits (some e.1) e.2).findSome?
              (schema.fault? environment strict) := by
      intro data
      rw [reported_bind_of_none fun _ => rfl, ih]
    rw [namedSections, reported_bind fun data _ => hrest data, reported_sectionData,
      List.flatMap_cons, List.findSome?_append]

/-! ## Documents -/

/-- The first entry that is neither a setting nor a table is reported. -/
theorem reported_split (schema : Schema) (raw : Document) :
    reported (schema.split raw)
      = (List.find? schema.misfits raw).map fun e => .unknownSetting e.1 none := by
  induction raw with
  | nil => rfl
  | cons entry rest ih =>
    obtain ⟨key, v⟩ := entry
    rw [List.find?_cons, misfits]
    -- as `split` does it: a setting first, whatever it is bound to
    by_cases hkey : schema.declares key = true
    · simp only [Schema.split, hkey, if_true]
      rw [reported_bind_of_none fun _ => rfl, ih]
      rfl
    · cases v with
      | table entries =>
        simp only [Schema.split, hkey, Bool.false_eq_true, if_false]
        rw [reported_bind_of_none fun _ => rfl, ih]
        simp [Value.isTable]
      | _ => simp [Schema.split, hkey, Value.isTable, reported]

/-- What is reported about a document. -/
theorem reported_buildData (environment : Environment) (schema : Schema) (strict : Bool)
    (raw : Document) :
    reported (schema.buildData environment strict raw)
      = ((List.find? schema.misfits raw).map fun e => .unknownSetting e.1 none).or
          ((schema.visits raw).findSome? (schema.fault? environment strict)) := by
  have hsections : ∀ parts : SplitDocument, schema.split raw = .ok parts →
      reported (do
        let global ← schema.sectionData environment strict none parts.global
        let named ← schema.namedSections environment strict parts.sections
        return (⟨global, .ofList named⟩ : ConfigData))
        = (schema.visits raw).findSome? (schema.fault? environment strict) := by
    intro parts hparts
    obtain ⟨-, hglobal, hnamed⟩ := split_eq_ok_iff.mp hparts
    have hlater : ∀ global : SectionData, reported (do
        let named ← schema.namedSections environment strict parts.sections
        return (⟨global, .ofList named⟩ : ConfigData))
          = (parts.sections.flatMap fun e => Document.visits (some e.1) e.2).findSome?
              (schema.fault? environment strict) := by
      intro global
      rw [reported_bind_of_none fun _ => rfl, reported_namedSections]
    rw [reported_bind fun global _ => hlater global, reported_sectionData, hglobal, hnamed,
      visits, List.findSome?_append]
  rw [buildData, reported_bind hsections, reported_split]

theorem misfits_eq_false_iff {entry : String × Value} :
    schema.misfits entry = false ↔ schema.declares entry.1 = true ∨ entry.2.isTable = true := by
  rw [misfits, Bool.and_eq_false_iff, Bool.not_eq_false', Bool.not_eq_false']

theorem find?_misfits_eq_none_iff {raw : Document} :
    List.find? schema.misfits raw = none ↔ schema.Fits raw := by
  simp only [List.find?_eq_none, Bool.not_eq_true, misfits_eq_false_iff, Fits]

theorem find?_misfits_eq_some_iff {raw : Document} {e : ConfigError} :
    ((List.find? schema.misfits raw).map fun e => .unknownSetting e.1 none) = some e ↔
      ∃ before key v after, raw = before ++ (key, v) :: after ∧ schema.Fits before
        ∧ schema.declares key = false ∧ v.isTable = false ∧ e = .unknownSetting key none := by
  simp only [Option.map_eq_some_iff, List.find?_eq_some_iff_append, Bool.not_eq_true',
    misfits_eq_false_iff]
  constructor
  · rintro ⟨⟨key, v⟩, ⟨hmisfits, before, after, hraw, hbefore⟩, rfl⟩
    simp only [misfits, Bool.and_eq_true, Bool.not_eq_true'] at hmisfits
    exact ⟨before, key, v, after, hraw, hbefore, hmisfits.1, hmisfits.2, rfl⟩
  · rintro ⟨before, key, v, after, hraw, hbefore, hkey, hv, rfl⟩
    exact ⟨(key, v), ⟨by simp [misfits, hkey, hv], before, after, hraw, hbefore⟩, rfl⟩

end Schema

/-! ## Data without faults -/

theorem Document.mem_visits_iff {sectionName : Option String} {doc : Document} {visit : Visit} :
    visit ∈ doc.visits sectionName ↔
      visit.address.sectionName = sectionName ∧ (visit.address.key, visit.raw) ∈ doc := by
  obtain ⟨⟨name, key⟩, v⟩ := visit
  rw [Document.visits, List.mem_map]
  constructor
  · rintro ⟨⟨k, w⟩, hmem, heq⟩
    obtain ⟨⟨rfl, rfl⟩, rfl⟩ : (sectionName = name ∧ k = key) ∧ w = v := by simpa using heq
    exact ⟨rfl, hmem⟩
  · rintro ⟨rfl, hmem⟩
    exact ⟨_, hmem, rfl⟩

namespace Schema

variable {environment : Environment} {schema : Schema} {strict : Bool}

/-- A setting is visited in a section with what the document binds its place
    to. -/
theorem mem_visits_iff {raw : Document} (hraw : raw.WellFormed) {address : Address}
    (hname : ∀ name ∈ address.sectionName, schema.declares name = false)
    (hkey : schema.declares address.key = true) {v : Value} :
    ⟨address, v⟩ ∈ schema.visits raw ↔ raw.valueAt address = some v := by
  rw [visits, List.mem_append, List.mem_flatMap]
  simp only [Document.mem_visits_iff, mem_sections_iff, List.mem_filter]
  obtain ⟨_ | name, key⟩ := address
  · have hfind : raw.find? key = some v ↔ (key, v) ∈ raw := hraw.distinct.find?_eq_some_iff
    simp [Document.valueAt, hfind, hkey]
  · constructor
    · rintro (⟨hnone, -⟩ | ⟨⟨top, entries⟩, ⟨hmem, -⟩, hsection, hentry⟩)
      · exact absurd hnone (by simp)
      · obtain rfl : name = top := Option.some.inj hsection
        have hfind := hraw.distinct.find?_eq_some_iff.mpr hmem
        show (raw.tableAt name).find? key = some v
        rw [Document.tableAt_of_find? hfind]
        exact (hraw.distinct_of_find? hfind).find?_eq_some_iff.mpr hentry
    · intro hv
      obtain ⟨entries, hfind⟩ := Document.exists_table_of_valueAt hv
      have hentry : (raw.tableAt name).find? key = some v := hv
      rw [Document.tableAt_of_find? hfind] at hentry
      exact Or.inr ⟨(name, entries), ⟨Document.mem_of_find?_eq_some hfind, hname name rfl⟩, rfl,
        Document.mem_of_find?_eq_some hentry⟩

end Schema

/-- Data with the global section and the tables of a document as its sections,
    in which every setting holds the coerced value of its visit, or its default
    where there is no visit. -/
structure ConfigData.Answers (environment : Environment) (schema : Schema) (raw : Document)
    (data : ConfigData) : Prop where
  sections : ∀ sectionName, (data.find? sectionName).isSome = true ↔
    sectionName = none ∨ ∃ name entries, sectionName = some name
      ∧ schema.declares name = false ∧ (name, Value.table entries) ∈ raw
  names : ∀ sectionName settings, data.find? sectionName = some settings →
    settings.names.Perm (schema.settings.map Setting.name)
  visited : ∀ sectionName settings, data.find? sectionName = some settings →
    ∀ setting ∈ schema.settings, ∀ v, ⟨⟨sectionName, setting.name⟩, v⟩ ∈ schema.visits raw →
      ∃ w, setting.type.coerce environment v = .ok w
        ∧ settings.find? setting.name = some ⟨setting.name, setting.type, w⟩
  unvisited : ∀ sectionName settings, data.find? sectionName = some settings →
    ∀ setting ∈ schema.settings, (∀ v, ⟨⟨sectionName, setting.name⟩, v⟩ ∉ schema.visits raw) →
      settings.find? setting.name = some setting.held

namespace Schema

variable {environment : Environment} {schema : Schema} {strict : Bool}

theorem answers_of_buildData {raw : Document} (hraw : raw.WellFormed) {data : ConfigData}
    (h : schema.buildData environment strict raw = .ok data) :
    data.Answers environment schema raw := by
  have hconforms := conforms_of_buildData h
  have hfits := (buildData_eq_ok_iff.mp h).1
  have hnames := mem_names_of_buildData hraw.distinct h
  -- the place of a setting in a section is visited if the document binds it
  have hvisits : ∀ sectionName settings, data.find? sectionName = some settings →
      ∀ setting ∈ schema.settings, ∀ v, ⟨⟨sectionName, setting.name⟩, v⟩ ∈ schema.visits raw ↔
        raw.valueAt ⟨sectionName, setting.name⟩ = some v := by
    intro sectionName settings hsection setting hsetting v
    refine mem_visits_iff hraw (fun name hname => ?_) (declares_of_mem hsetting)
    obtain rfl : sectionName = some name := hname
    exact hconforms.named name
      (NameMap.mem_names_iff.mpr (Option.isSome_iff_exists.mpr ⟨settings, hsection⟩))
  refine ⟨fun sectionName => ?_, fun sectionName settings hsection =>
    (hconforms.sections sectionName settings hsection).names, ?_, ?_⟩
  · cases sectionName with
    | none => simp [ConfigData.find?]
    | some name =>
      show (data.named.find? name).isSome = true ↔ _
      rw [← NameMap.mem_names_iff, hnames]
      constructor
      · rintro ⟨hname, hbinds⟩
        obtain ⟨v, hfind⟩ := Option.isSome_iff_exists.mp hbinds
        have hmem := Document.mem_of_find?_eq_some hfind
        have htable := hfits _ hmem
        rw [hname] at htable
        obtain ⟨entries, rfl⟩ := Value.isTable_iff.mp (by simpa using htable)
        exact Or.inr ⟨name, entries, rfl, hname, hmem⟩
      · rintro (hnone | ⟨other, entries, heq, hname, hmem⟩)
        · exact absurd hnone (by simp)
        · obtain rfl := Option.some.inj heq
          exact ⟨hname, Document.binds_iff.mpr (Document.mem_keys_of_mem hmem)⟩
  · intro sectionName settings hsection setting hsetting v hvisit
    have hplace := (hvisits sectionName settings hsection setting hsetting v).mp hvisit
    obtain ⟨held, hheld, -⟩ :=
      (hconforms.sections sectionName settings hsection).held setting hsetting
    have hfor := find?_of_buildData hraw h hsection setting.name
    rw [hheld, hplace, heldFor] at hfor
    obtain ⟨other, hother, hvalidate⟩ := validated?_eq_some_iff.mp hfor.symm
    obtain rfl : setting = other := by simpa [find?_of_mem hsetting] using hother
    obtain ⟨w, hcoerce, -, rfl⟩ := Setting.validate_eq_ok_iff.mp hvalidate
    exact ⟨w, hcoerce, hheld⟩
  · intro sectionName settings hsection setting hsetting hunvisited
    have hplace : raw.valueAt ⟨sectionName, setting.name⟩ = none := by
      refine Option.eq_none_iff_forall_not_mem.mpr fun v hv => hunvisited v ?_
      exact (hvisits sectionName settings hsection setting hsetting v).mpr hv
    rw [find?_of_buildData hraw h hsection, hplace, heldFor, find?_of_mem hsetting]
    rfl

/-- What comes of a document.  An entry at the top that is neither a setting nor a
    table is reported first, whatever else is wrong, and the first of them.
    Otherwise the first visit with a fault decides what is reported, and without
    one there are data that answer the document. -/
theorem buildData_diagnosis (environment : Environment) (schema : Schema) (strict : Bool)
    {raw : Document} (hraw : raw.WellFormed) :
    (∀ e, schema.buildData environment strict raw = .error e ↔
        (∃ before key v after, raw = before ++ (key, v) :: after ∧ schema.Fits before
          ∧ schema.declares key = false ∧ v.isTable = false ∧ e = .unknownSetting key none)
        ∨ schema.Fits raw ∧ ∃ before visit after, schema.visits raw = before ++ visit :: after
          ∧ schema.fault? environment strict visit = some e
          ∧ ∀ earlier ∈ before, schema.fault? environment strict earlier = none)
      ∧ ((∃ data, schema.buildData environment strict raw = .ok data) ↔
        schema.Fits raw ∧ ∀ visit ∈ schema.visits raw,
          schema.fault? environment strict visit = none)
      ∧ ∀ data, schema.buildData environment strict raw = .ok data →
        data.Answers environment schema raw := by
  refine ⟨fun e => ?_, ?_, fun data h => answers_of_buildData hraw h⟩
  · rw [← reported_eq_some_iff, reported_buildData, Option.or_eq_some_iff,
      find?_misfits_eq_some_iff, Option.map_eq_none_iff, find?_misfits_eq_none_iff,
      List.findSome?_eq_some_iff]
  · rw [← reported_eq_none_iff, reported_buildData, Option.or_eq_none_iff, Option.map_eq_none_iff,
      find?_misfits_eq_none_iff, List.findSome?_eq_none_iff]

/-- A server with a port that the guard rejects behind a section with an unknown
    key, and one without a fault. -/
theorem buildData_diagnosis_server :
    let faulty : Document := [("edge", .table [("path", .int 1)]), ("port", .int (-1))]
    let sound : Document := [("edge", .table [("port", .string "81")]), ("host", .string "a")]
    faulty.WellFormed ∧ sound.WellFormed
      ∧ server.buildData .empty true faulty
        = .error (.guardViolation "port" none "must be positive" (.int (-1)))
      ∧ ∃ data, server.buildData .empty true sound = .ok data
        ∧ data.Answers .empty server sound := by
  intro faulty sound
  obtain ⟨hfaulty, hsound⟩ : faulty.WellFormed ∧ sound.WellFormed := by
    simp [faulty, sound, Document.wellFormed_cons, Document.wellFormed_nil,
      Value.wellFormed_table_iff, Value.WellFormed.string, Value.WellFormed.number]
  have hfits : server.Fits faulty ∧ server.Fits sound := by
    simp [faulty, sound, Fits, declares, find?, server, Value.isTable]
  obtain ⟨hreports, -, -⟩ := buildData_diagnosis .empty server true hfaulty
  obtain ⟨-, hbuilds, hanswers⟩ := buildData_diagnosis .empty server true hsound
  refine ⟨hfaulty, hsound, (hreports _).mpr (.inr ⟨hfits.1, [], ⟨⟨none, "port"⟩, .int (-1)⟩,
    [⟨⟨some "edge", "path"⟩, .int 1⟩], rfl, rfl, by simp⟩), ?_⟩
  -- the host is a text, and the port is coerced to a number that the guard lets pass
  have hvisits : server.visits sound
      = [⟨⟨none, "host"⟩, .string "a"⟩, ⟨⟨some "edge", "port"⟩, .string "81"⟩] := rfl
  have hnone : ∀ visit ∈ server.visits sound, server.fault? .empty true visit = none := by
    rw [hvisits, List.forall_mem_cons, List.forall_mem_singleton]
    exact ⟨by decide +kernel, by decide +kernel⟩
  obtain ⟨data, hdata⟩ := hbuilds.mpr ⟨hfits.2, hnone⟩
  exact ⟨data, hdata, hanswers data hdata⟩

end Schema

end LayeredConfig
