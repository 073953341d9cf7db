/-
  LayeredConfig.Proofs.Sections

  What the settings hold in the sections of one merged document.

  A section fails if one of its keys does, and otherwise every setting holds
  what `heldFor` says: the validated value of its key, or its default.  So the
  order of the keys and the name of the section decide which error is reported,
  but not whether there is one, nor what the settings hold (`isOk_buildData_iff`,
  `find?_global_of_buildData`, `find?_named_of_buildData`).
-/
import LayeredConfig.Proofs.Document.Lookup
import LayeredConfig.Proofs.Results
import LayeredConfig.Resolution

namespace LayeredConfig

/-! ## Look-ups among results -/

theorem Document.findEntry_eq_find? (doc : Document) (key : String) :
    NameMap.findEntry key doc = doc.find? key := by
  induction doc with
  | nil => rfl
  | cons entry rest ih =>
    obtain ⟨n, v⟩ := entry
    simp [NameMap.findEntry, Document.find?, ih]

/-- A look-up among the entries for which `f` has a result. -/
theorem NameMap.findEntry_filterMap {α β : Type} (f : String → α → Option β)
    {entries : List (String × α)} (h : (entries.map Prod.fst).Nodup) (name : String) :
    findEntry name (entries.filterMap fun e => (f e.1 e.2).map (e.1, ·))
      = (findEntry name entries).bind (f name) := by
  induction entries with
  | nil => rfl
  | cons entry rest ih =>
    obtain ⟨n, a⟩ := entry
    obtain ⟨hhead, hrest⟩ := List.nodup_cons.mp h
    by_cases hn : n = name
    · subst hn
      have hnone : findEntry n rest = none := findEntry_eq_none_iff.mpr hhead
      cases hf : f n a with
      | none => simp [hf, findEntry, ih hrest, hnone]
      | some b => simp [hf, findEntry]
    · cases hf : f n a with
      | none => simp [hf, findEntry, hn, ih hrest]
      | some b => simp [hf, findEntry, hn, ih hrest]

theorem NameMap.nodup_filterMap {α β : Type} (f : String → α → Option β)
    {entries : List (String × α)} (h : (entries.map Prod.fst).Nodup) :
    ((entries.filterMap fun e => (f e.1 e.2).map (e.1, ·)).map Prod.fst).Nodup := by
  have hsub : ((entries.filterMap fun e => (f e.1 e.2).map (e.1, ·)).map Prod.fst).Sublist
      (entries.map Prod.fst) := by
    induction entries with
    | nil => simp
    | cons entry rest ih =>
      obtain ⟨n, a⟩ := entry
      have hrest := ih (List.nodup_cons.mp h).2
      cases hf : f n a with
      | none => simpa [hf] using hrest.cons n
      | some b => simpa [hf] using hrest
  exact h.sublist hsub

/-- Data that have the same sections are the same. -/
theorem ConfigData.eq_of_find?_eq {data other : ConfigData} (hglobal : data.global = other.global)
    (hnamed : ∀ name, data.named.find? name = other.named.find? name) : data = other := by
  obtain ⟨global, named⟩ := data
  obtain ⟨global', named'⟩ := other
  obtain rfl : global = global' := hglobal
  obtain rfl : named = named' := NameMap.ext hnamed
  rfl

/-! ## Values of settings -/

/-- A setting holds the coerced value, and that has passed every guard. -/
theorem Guard.checkAll_eq_ok_iff {environment : Environment} (key : String) {v : Value}
    {guards : List Guard} :
    checkAll environment key v guards = .ok () ↔
      ∀ guard ∈ guards, guard.passes environment v = .ok true := by
  induction guards with
  | nil => simp [checkAll]
  | cons guard guards ih =>
    rw [checkAll, List.forall_mem_cons]
    cases guard.passes environment v with
    | error cause => simp
    | ok passed =>
      cases passed with
      | false => simp
      | true => simpa using ih

theorem Setting.validate_eq_ok_iff {environment : Environment} {setting : Setting}
    {raw : Value} {held : Held} :
    setting.validate environment raw = .ok held ↔
      ∃ v, setting.type.coerce environment raw = .ok v
        ∧ (∀ guard ∈ setting.guards, guard.passes environment v = .ok true)
        ∧ held = ⟨setting.name, setting.type, v⟩ := by
  rw [Setting.validate]
  cases setting.type.coerce environment raw with
  | error cause => simp
  | ok v =>
    simp only [Except.ok.injEq, exists_eq_left']
    rw [← Guard.checkAll_eq_ok_iff setting.name]
    cases Guard.checkAll environment setting.name v setting.guards with
    | error e => simp
    | ok u => simp [eq_comm]

namespace Schema

variable {environment : Environment} {schema : Schema} {strict : Bool}

theorem find?_of_mem {setting : Setting} (h : setting ∈ schema.settings) :
    schema.find? setting.name = some setting := by
  rw [find?, List.find?_eq_some_iff_append]
  refine ⟨by simp, ?_⟩
  obtain ⟨before, after, heq⟩ := List.append_of_mem h
  refine ⟨before, after, heq, fun other hother => ?_⟩
  have hnodup := schema.nodup
  rw [heq, List.map_append, List.nodup_append] at hnodup
  have hne := hnodup.2.2 other.name (List.mem_map_of_mem hother) setting.name (by simp)
  simpa using hne

theorem name_of_find? {key : String} {setting : Setting} (h : schema.find? key = some setting) :
    setting.name = key := by
  simpa using List.find?_some h

theorem declares_of_mem {setting : Setting} (h : setting ∈ schema.settings) :
    schema.declares setting.name = true :=
  declares_iff.mpr (List.mem_map_of_mem h)

theorem ne_of_declares {key name : String} (hkey : schema.declares key = true)
    (hname : schema.declares name = false) : key ≠ name := by
  rintro rfl
  rw [hkey] at hname
  cases hname

/-! ## Single keys -/

/-- What the setting `key` holds where it is set to `raw`, if it accepts
    that. -/
def validated? (environment : Environment) (schema : Schema) (key : String) (raw : Value) :
    Option Held :=
  (schema.find? key).bind fun setting => (setting.validate environment raw).toOption

/-- What the setting `name` holds in a section that binds it to `raw`, or does
    not bind it. -/
def heldFor (environment : Environment) (schema : Schema) (name : String) :
    (raw : Option Value) → Option Held
  | none => (schema.find? name).map Setting.held
  | some raw => schema.validated? environment name raw

/-- Whether a key of a section passes: its setting accepts the value, or there
    is no such setting and the mode is lenient. -/
def Accepts (environment : Environment) (schema : Schema) (strict : Bool) (key : String)
    (raw : Value) : Prop :=
  (schema.declares key = false ∧ strict = false)
    ∨ (schema.validated? environment key raw).isSome = true

theorem validated?_eq_some_iff {key : String} {raw : Value} {held : Held} :
    schema.validated? environment key raw = some held ↔
      ∃ setting, schema.find? key = some setting
        ∧ setting.validate environment raw = .ok held := by
  simp only [validated?, Option.bind_eq_some_iff, toOption_eq_some_iff]

theorem validated?_eq_none (environment : Environment) {key : String}
    (h : schema.declares key = false) (raw : Value) :
    schema.validated? environment key raw = none := by
  have hnone : schema.find? key = none := by
    simpa [declares] using h
  simp [validated?, hnone]

theorem heldFor_eq_none {name : String} (h : schema.declares name = false)
    (raw : Option Value) : schema.heldFor environment name raw = none := by
  cases raw with
  | none =>
    have hnone : schema.find? name = none := by
      simpa [declares] using h
    rw [heldFor, hnone, Option.map_none]
  | some v => exact validated?_eq_none environment h v

/-- What keys that are no settings are bound to does not count. -/
theorem heldFor_congr {name : String} {raw other : Option Value}
    (h : schema.declares name = true → raw = other) :
    schema.heldFor environment name raw = schema.heldFor environment name other := by
  cases hname : schema.declares name with
  | true => rw [h hname]
  | false => rw [heldFor_eq_none hname, heldFor_eq_none hname]

/-! ## Sections -/

theorem validateKeys_eq_ok_iff {sectionName : Option String} {raw : Document}
    {held : List (String × Held)} :
    schema.validateKeys environment strict sectionName raw = .ok held ↔
      (∀ e ∈ raw, schema.Accepts environment strict e.1 e.2)
        ∧ held = raw.filterMap fun e =>
          (schema.validated? environment e.1 e.2).map (e.1, ·) := by
  induction raw generalizing held with
  | nil => simp [validateKeys, eq_comm]
  | cons entry rest ih =>
    obtain ⟨key, v⟩ := entry
    rw [validateKeys, List.forall_mem_cons]
    cases hfind : schema.find? key with
    | none =>
      have hundeclared : schema.declares key = false := by simp [declares, hfind]
      have hnone := validated?_eq_none environment hundeclared v
      cases strict with
      | true => simp [Accepts, hundeclared, hnone]
      | false => simp [Accepts, hundeclared, hnone, ih]
    | some setting =>
      -- the key fails if its value does, and else the other keys decide
      have hdeclared : schema.declares key = true := by simp [declares, hfind]
      have hvalidated : schema.validated? environment key v
          = (setting.validate environment v).toOption := by
        simp [validated?, hfind]
      cases hv : setting.validate environment v with
      | error e =>
        simp [Accepts, hdeclared, hvalidated, hv, Except.toOption, mapError_error, bind,
          Except.bind]
      | ok h =>
        rw [bind_eq_ok_iff]
        simp only [Accepts, hdeclared, hvalidated, hv, mapError_ok, Except.ok.injEq,
          exists_eq_left', Except.toOption, bind_eq_ok_iff, ih, List.filterMap_cons,
          Option.map_some, Option.isSome_some, or_true, true_and]
        constructor
        · rintro ⟨others, ⟨hrest, rfl⟩, heq⟩
          exact ⟨hrest, (Except.ok.inj heq).symm⟩
        · rintro ⟨hrest, rfl⟩
          exact ⟨_, ⟨hrest, rfl⟩, rfl⟩

theorem find?_defaults (schema : Schema) (name : String) :
    schema.defaults.find? name = (schema.find? name).map Setting.held := by
  have hnodup : ((schema.settings.map fun setting => (setting.name, setting.held)).map
      Prod.fst).Nodup := by
    simpa [List.map_map, Function.comp_def] using schema.nodup
  have hentry : ∀ settings : List Setting,
      NameMap.findEntry name (settings.map fun setting => (setting.name, setting.held))
        = (settings.find? fun setting => setting.name = name).map Setting.held := by
    intro settings
    induction settings with
    | nil => rfl
    | cons setting rest ih =>
      by_cases hname : setting.name = name
      · simp [NameMap.findEntry, hname]
      · simp [NameMap.findEntry, hname, ih]
  rw [defaults, NameMap.ofList, NameMap.find?_insertAll _ hnodup, hentry, NameMap.find?_empty,
    Option.or_none]
  rfl

/-- Whether a section fails does not depend on its name. -/
theorem sectionData_eq_ok_iff {sectionName : Option String} {raw : Document}
    {data : SectionData} :
    schema.sectionData environment strict sectionName raw = .ok data ↔
      (∀ e ∈ raw, schema.Accepts environment strict e.1 e.2)
        ∧ data = schema.defaults.insertAll (raw.filterMap fun e =>
          (schema.validated? environment e.1 e.2).map (e.1, ·)) := by
  rw [sectionData, bind_eq_ok_iff]
  constructor
  · rintro ⟨held, hheld, heq⟩
    obtain ⟨haccepts, rfl⟩ := validateKeys_eq_ok_iff.mp hheld
    exact ⟨haccepts, (Except.ok.inj heq).symm⟩
  · rintro ⟨haccepts, rfl⟩
    exact ⟨_, validateKeys_eq_ok_iff.mpr ⟨haccepts, rfl⟩, rfl⟩

/-- Every setting holds the validated value of its key, or its default. -/
theorem find?_of_sectionData {sectionName : Option String} {raw : Document}
    {data : SectionData} (hraw : raw.Distinct)
    (h : schema.sectionData environment strict sectionName raw = .ok data) (name : String) :
    data.find? name = schema.heldFor environment name (raw.find? name) := by
  obtain ⟨haccepts, rfl⟩ := sectionData_eq_ok_iff.mp h
  rw [NameMap.find?_insertAll _ (NameMap.nodup_filterMap _ hraw),
    NameMap.findEntry_filterMap _ hraw, Document.findEntry_eq_find?, find?_defaults]
  cases hfind : raw.find? name with
  | none => simp [heldFor]
  | some v =>
    rcases haccepts _ (Document.mem_of_find?_eq_some hfind) with ⟨hundeclared, -⟩ | hsome
    · have hnone : schema.find? name = none := by
        simpa [declares] using hundeclared
      simp [heldFor, validated?, hnone]
    · obtain ⟨held, hheld⟩ := Option.isSome_iff_exists.mp hsome
      simp [heldFor, hheld]

/-- Whether a section fails depends on what its keys are bound to, and not on
    their order. -/
theorem isOk_sectionData_iff {sectionName : Option String} {raw : Document}
    (hraw : raw.Distinct) :
    (∃ data, schema.sectionData environment strict sectionName raw = .ok data) ↔
      ∀ key v, raw.find? key = some v → schema.Accepts environment strict key v := by
  simp only [sectionData_eq_ok_iff, exists_and_left, exists_eq, and_true]
  constructor
  · exact fun h key v hfind => h (key, v) (Document.mem_of_find?_eq_some hfind)
  · exact fun h e he => h e.1 e.2 (hraw.find?_eq_some_iff.mpr he)

/-! ## Whole documents -/

/-- The keys of the section that a top-level key opens with `v`.  A setting
    opens none, and neither does what is no table. -/
def opened? (schema : Schema) (key : String) (v : Value) : Option Document :=
  if schema.declares key then none
  else match v with
    | .table entries => some entries
    | _ => none

/-- The keys of the named section `name` of a raw document, if it has one. -/
def sectionOf (schema : Schema) (raw : Document) (name : String) : Option Document :=
  (raw.find? name).bind (schema.opened? name)

theorem opened?_eq_some_iff {key : String} {v : Value} {entries : Document} :
    schema.opened? key v = some entries ↔
      schema.declares key = false ∧ v = .table entries := by
  unfold opened?
  by_cases hkey : schema.declares key = true
  · simp [hkey]
  · cases v <;> simp [hkey]

theorem sectionOf_eq_none {name : String} (h : schema.declares name = true) (raw : Document) :
    schema.sectionOf raw name = none := by
  rw [sectionOf, Option.bind_eq_none_iff]
  intro v _
  simp [opened?, h]

/-- Every key at the top of a document is a setting or bound to a table. -/
def Fits (schema : Schema) (doc : Document) : Prop :=
  ∀ e ∈ doc, schema.declares e.1 = true ∨ e.2.isTable = true

theorem split_eq_ok_iff {raw : Document} {parts : SplitDocument} :
    schema.split raw = .ok parts ↔
      schema.Fits raw
        ∧ parts.global = raw.filter (fun e => schema.declares e.1)
        ∧ parts.sections = raw.filterMap fun e => (schema.opened? e.1 e.2).map (e.1, ·) := by
  induction raw generalizing parts with
  | nil =>
    obtain ⟨global, sections⟩ := parts
    constructor
    · rintro ⟨⟩
      simp [Fits]
    · rintro ⟨-, rfl, rfl⟩
      rfl
  | cons entry rest ih =>
    obtain ⟨key, v⟩ := entry
    obtain ⟨global, sections⟩ := parts
    rw [Fits, List.forall_mem_cons, List.filter_cons, List.filterMap_cons]
    -- as `split` does it: a setting first, whatever it is bound to
    by_cases hkey : schema.declares key = true
    · simp only [Schema.split, hkey, if_true, bind_eq_ok_iff, ih, opened?, true_or, true_and,
        Option.map_none]
      constructor
      · rintro ⟨⟨global', sections'⟩, ⟨hshape, rfl, rfl⟩, heq⟩
        obtain ⟨rfl, rfl⟩ := SplitDocument.mk.inj (Except.ok.inj heq)
        exact ⟨hshape, rfl, rfl⟩
      · rintro ⟨hshape, rfl, rfl⟩
        exact ⟨⟨_, _⟩, ⟨hshape, rfl, rfl⟩, rfl⟩
    · cases v with
      | table entries =>
        simp only [Schema.split, hkey, Bool.false_eq_true, if_false, bind_eq_ok_iff, ih, opened?,
          Value.isTable, or_true, true_and, Option.map_some]
        constructor
        · rintro ⟨⟨global', sections'⟩, ⟨hshape, rfl, rfl⟩, heq⟩
          obtain ⟨rfl, rfl⟩ := SplitDocument.mk.inj (Except.ok.inj heq)
          exact ⟨hshape, rfl, rfl⟩
        · rintro ⟨hshape, rfl, rfl⟩
          exact ⟨⟨_, _⟩, ⟨hshape, rfl, rfl⟩, rfl⟩
      | _ => simp [Schema.split, hkey, Value.isTable]

theorem namedSections_eq_ok_iff {sections : List (String × Document)}
    {named : List (String × SectionData)} :
    schema.namedSections environment strict sections = .ok named ↔
      (∀ e ∈ sections, ∃ data,
        schema.sectionData environment strict (some e.1) e.2 = .ok data)
        ∧ named = sections.filterMap fun e =>
          (schema.sectionData environment strict (some e.1) e.2).toOption.map (e.1, ·) := by
  induction sections generalizing named with
  | nil => simp [namedSections, eq_comm]
  | cons entry rest ih =>
    obtain ⟨name, raw⟩ := entry
    rw [namedSections, List.forall_mem_cons]
    cases hdata : schema.sectionData environment strict (some name) raw with
    | error e => simp [bind, Except.bind]
    | ok data =>
      simp only [bind_eq_ok_iff, ih, Except.ok.injEq, exists_eq_left', exists_eq', true_and,
        List.filterMap_cons, hdata, Except.toOption, Option.map_some]
      constructor
      · rintro ⟨others, ⟨hrest, rfl⟩, heq⟩
        exact ⟨hrest, (Except.ok.inj heq).symm⟩
      · rintro ⟨hrest, rfl⟩
        exact ⟨_, ⟨hrest, rfl⟩, rfl⟩

/-- The data of a document, by its global keys and its sections. -/
theorem buildData_eq_ok_iff {raw : Document} {data : ConfigData} :
    schema.buildData environment strict raw = .ok data ↔
      schema.Fits raw
        ∧ schema.sectionData environment strict none
            (raw.filter fun e => schema.declares e.1) = .ok data.global
        ∧ ∃ named, schema.namedSections environment strict
            (raw.filterMap fun e => (schema.opened? e.1 e.2).map (e.1, ·)) = .ok named
          ∧ data.named = .ofList named := by
  obtain ⟨global, names⟩ := data
  rw [buildData, bind_eq_ok_iff]
  simp only [bind_eq_ok_iff]
  constructor
  · rintro ⟨⟨g, s⟩, hsplit, global', hglobal, named, hnamed, heq⟩
    obtain ⟨hshape, rfl, rfl⟩ := split_eq_ok_iff.mp hsplit
    obtain ⟨rfl, rfl⟩ := ConfigData.mk.inj (Except.ok.inj heq)
    exact ⟨hshape, hglobal, named, hnamed, rfl⟩
  · rintro ⟨hshape, hglobal, named, hnamed, rfl⟩
    exact ⟨⟨_, _⟩, split_eq_ok_iff.mpr ⟨hshape, rfl, rfl⟩, global, hglobal, named, hnamed, rfl⟩

/-- Whether a document resolves depends on what its keys are bound to, and not
    on their order. -/
theorem isOk_buildData_iff {raw : Document} (hraw : raw.Distinct) :
    (∃ data, schema.buildData environment strict raw = .ok data) ↔
      (∀ key v, raw.find? key = some v → schema.declares key = true ∨ v.isTable = true)
        ∧ (∀ key v, raw.find? key = some v → schema.declares key = true →
            schema.Accepts environment strict key v)
        ∧ ∀ name entries, schema.sectionOf raw name = some entries →
            ∃ data, schema.sectionData environment strict (some name) entries = .ok data := by
  have hglobal : (∃ data, schema.sectionData environment strict none
      (raw.filter fun e => schema.declares e.1) = .ok data) ↔
        ∀ key v, schema.declares key = true ∧ raw.find? key = some v →
          schema.Accepts environment strict key v := by
    rw [isOk_sectionData_iff (hraw.filter fun e => schema.declares e.1)]
    simp only [Document.find?_filter schema.declares, Option.ite_none_right_eq_some]
  constructor
  · rintro ⟨data, hdata⟩
    obtain ⟨hshape, hdata, named, hnamed, -⟩ := buildData_eq_ok_iff.mp hdata
    refine ⟨fun key v hfind => hshape _ (Document.mem_of_find?_eq_some hfind), ?_, ?_⟩
    · exact fun key v hfind hkey => hglobal.mp ⟨_, hdata⟩ key v ⟨hkey, hfind⟩
    · intro name entries hsection
      obtain ⟨v, hfind, hopened⟩ := Option.bind_eq_some_iff.mp hsection
      refine (namedSections_eq_ok_iff.mp hnamed).1 (name, entries) ?_
      refine List.mem_filterMap.mpr ⟨_, Document.mem_of_find?_eq_some hfind, ?_⟩
      simp [hopened]
  · rintro ⟨hshape, haccepts, hsections⟩
    -- every opened section is the section of its name, since no key stands twice
    obtain ⟨global, hdata⟩ := hglobal.mpr fun key v h => haccepts key v h.2 h.1
    have hnamed : ∀ e ∈ raw.filterMap (fun e => (schema.opened? e.1 e.2).map (e.1, ·)),
        ∃ data, schema.sectionData environment strict (some e.1) e.2 = .ok data := by
      intro e he
      obtain ⟨⟨key, v⟩, hmem, hopened⟩ := List.mem_filterMap.mp he
      obtain ⟨entries, hentries, rfl⟩ := Option.map_eq_some_iff.mp hopened
      refine hsections key entries ?_
      rw [sectionOf, hraw.find?_eq_some_iff.mpr hmem]
      exact hentries
    refine ⟨⟨global, _⟩, buildData_eq_ok_iff.mpr
      ⟨?_, hdata, _, namedSections_eq_ok_iff.mpr ⟨hnamed, rfl⟩, rfl⟩⟩
    exact fun e he => hshape e.1 e.2 (hraw.find?_eq_some_iff.mpr he)

/-- A setting holds in the global section what the key of its name says. -/
theorem find?_global_of_buildData {raw : Document} (hraw : raw.Distinct) {data : ConfigData}
    (h : schema.buildData environment strict raw = .ok data) (name : String) :
    data.global.find? name = schema.heldFor environment name (raw.find? name) := by
  obtain ⟨-, hglobal, -⟩ := buildData_eq_ok_iff.mp h
  -- the keys that `split` keeps away from the global section are no settings
  rw [find?_of_sectionData (hraw.filter _) hglobal, Document.find?_filter schema.declares]
  exact heldFor_congr fun hname => if_pos hname

/-- The named sections are those of the document. -/
theorem find?_named_of_buildData {raw : Document} (hraw : raw.Distinct) {data : ConfigData}
    (h : schema.buildData environment strict raw = .ok data) (name : String) :
    data.named.find? name = (schema.sectionOf raw name).bind fun entries =>
      (schema.sectionData environment strict (some name) entries).toOption := by
  obtain ⟨-, -, named, hnamed, heq⟩ := buildData_eq_ok_iff.mp h
  obtain ⟨-, rfl⟩ := namedSections_eq_ok_iff.mp hnamed
  let resolved (name : String) (entries : Document) : Option SectionData :=
    (schema.sectionData environment strict (some name) entries).toOption
  have hsections := NameMap.nodup_filterMap schema.opened? hraw
  rw [heq, NameMap.ofList, NameMap.find?_insertAll _ (NameMap.nodup_filterMap resolved hsections),
    NameMap.findEntry_filterMap resolved hsections, NameMap.findEntry_filterMap _ hraw,
    Document.findEntry_eq_find?, NameMap.find?_empty, Option.or_none]
  rfl

/-- The named sections are the keys at the top that are no settings. -/
theorem mem_names_of_buildData {raw : Document} (hraw : raw.Distinct) {data : ConfigData}
    (h : schema.buildData environment strict raw = .ok data) (name : String) :
    name ∈ data.named.names ↔ schema.declares name = false ∧ raw.binds name = true := by
  obtain ⟨hfits, -, hsections⟩ := (isOk_buildData_iff hraw).mp ⟨data, h⟩
  rw [NameMap.mem_names_iff, find?_named_of_buildData hraw h]
  constructor
  · intro hsome
    obtain ⟨settings, hsettings⟩ := Option.isSome_iff_exists.mp hsome
    obtain ⟨entries, hsection, -⟩ := Option.bind_eq_some_iff.mp hsettings
    obtain ⟨v, hfind, hopened⟩ := Option.bind_eq_some_iff.mp hsection
    exact ⟨(opened?_eq_some_iff.mp hopened).1, by simp [Document.binds, hfind]⟩
  · rintro ⟨hdeclared, hbinds⟩
    obtain ⟨v, hfind⟩ := Option.isSome_iff_exists.mp hbinds
    have htable : v.isTable = true := by
      have hkey := hfits name v hfind
      simpa [hdeclared] using hkey
    obtain ⟨entries, rfl⟩ := Value.isTable_iff.mp htable
    have hsection : schema.sectionOf raw name = some entries := by
      rw [sectionOf, hfind]
      exact opened?_eq_some_iff.mpr ⟨hdeclared, rfl⟩
    obtain ⟨settings, hsettings⟩ := hsections name entries hsection
    rw [hsection, Option.bind_some, hsettings]
    rfl

end Schema

end LayeredConfig
