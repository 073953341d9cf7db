/-
  LayeredConfig.Proofs.Template.Defaults

  Templates without the comment signs, loaded as files.

  The assignments of a template are a document of their own, in which every
  setting is bound to its default (`ofString_uncommented`).  Loading it gives the
  defaults back exactly if they keep what they are when they are coerced once
  more and nest no deeper than the reader goes (`resolve_uncommented_iff`).  Types
  without unions keep their values; a union may take a value of its second
  alternative for one of its first (`resolve_uncommented_flag`).  This is about
  defaults that have a literal: one in which a value is missing is written as a
  string (`assignment_of_missing`).
-/
import LayeredConfig.Proofs.Recoercion
import LayeredConfig.Proofs.Template.Inert
import LayeredConfig.Proofs.Toml.Assignments

namespace LayeredConfig

/-! ## Uncommenting -/

/-- The assignment on a line of a template: what stands right behind a comment
    sign, while a space comes before everything else. -/
def assignment? : List Char → Option (List Char)
  | '#' :: ' ' :: _ => none
  | '#' :: s => some s
  | _ => none

theorem assignment?_chopReturn_space (text : List Char) :
    assignment? (Text.chopReturn ('#' :: ' ' :: text)) = none := by
  rw [Text.chopReturn]
  split
  · rename_i chopped hchopped
    have heq : '#' :: ' ' :: text = chopped ++ ['\r'] := Text.stripEnd?_eq_some_iff.mp hchopped
    -- neither the sign nor the space is a carriage return
    obtain ⟨rest, rfl⟩ : ∃ rest, chopped = '#' :: ' ' :: rest := by
      cases chopped with
      | nil => exact absurd (List.cons.inj heq).1 (by decide)
      | cons c chopped =>
        obtain ⟨rfl, htail⟩ := List.cons.inj heq
        cases chopped with
        | nil => exact absurd (List.cons.inj htail).1 (by decide)
        | cons d rest =>
          obtain ⟨rfl, -⟩ := List.cons.inj htail
          exact ⟨rest, rfl⟩
    rfl
  · rfl

/-- The assignments of a template, each on a line, and nothing else. -/
def uncommented (template : String) : String :=
  String.ofList (((Text.lines template.toList).filterMap assignment?).flatMap (· ++ ['\n']))

/-! ## Defaults -/

/-- A value that is another one or stands in it, however deep. -/
inductive Value.Within : Value → Value → Prop where
  | refl (v : Value) : Within v v
  | item {u v : Value} {items : List Value} (hv : v ∈ items) (hu : Within u v) :
      Within u (.array items)
  | entry {u : Value} {e : String × Value} {entries : Document} (he : e ∈ entries)
      (hu : Within u e.2) : Within u (.table entries)

theorem Value.within_number_iff {u : Value} {n : Number} :
    Within u (.number n) ↔ u = .number n := by
  constructor
  · rintro ⟨⟩
    rfl
  · rintro rfl
    exact .refl _

theorem Value.within_array_iff {u : Value} {items : List Value} :
    Within u (.array items) ↔ u = .array items ∨ ∃ v ∈ items, Within u v := by
  constructor
  · rintro (_ | ⟨hv, hu⟩)
    · exact Or.inl rfl
    · exact Or.inr ⟨_, hv, hu⟩
  · rintro (rfl | ⟨v, hv, hu⟩)
    · exact .refl _
    · exact .item hv hu

namespace Toml

/-- The value that a template has for a default: no value is written as its
    name. -/
def written : Value → Value
  | .null => .string "None"
  | v => v

theorem written_of_ne {v : Value} (h : v ≠ .null) : written v = v := by
  cases v with
  | null => exact absurd rfl h
  | _ => rfl

theorem nesting_written (v : Value) : nesting (written v) = nesting v := by
  cases v <;> rfl

/-- What a type without expressions gives can be written if its strings are plain
    and no value is missing in its arrays. -/
theorem writable_of_isPlainResult {v : Value} (h : IsPlainResult v) (hne : v ≠ .null)
    (hstrings : ∀ s, Value.Within (.string s) v → Plain s.toList)
    (harrays : ∀ items, Value.Within (.array items) v → .null ∉ items) : Writable v := by
  induction h with
  | null => exact absurd rfl hne
  | bool b => exact .bool b
  | int hn => exact .int hn
  | float x => exact .float x
  | string s => exact .string (hstrings s (.refl _))
  | @array items _ ih =>
    have hfull : .null ∉ items := harrays items (.refl _)
    refine .array fun item hitem => ih item hitem ?_ ?_ ?_
    · rintro rfl
      exact hfull hitem
    · exact fun s hs => hstrings s (.item hitem hs)
    · exact fun inner hinner => harrays inner (.item hitem hinner)

theorem writable_written {v : Value} (h : v ≠ .null → Writable v) : Writable (written v) := by
  by_cases hv : v = .null
  · rw [hv]
    exact .string (by decide)
  · rw [written_of_ne hv]
    exact h hv

/-- The literal in a template is that of what it has for the default. -/
theorem spells_defaultLiteral {v : Value} (h : v ≠ .null → Writable v) :
    Spells (written v) (defaultLiteral v).toList := by
  by_cases hv : v = .null
  · have hnone : (defaultLiteral .null).toList = stringLiteral "None" := by decide
    rw [hv, hnone]
    exact spells_string (by decide)
  · obtain ⟨text, htext⟩ := exists_spells (h hv)
    have hliteral : (defaultLiteral v).toList = text := by
      rw [defaultLiteral]
      · rw [htext.literal, String.toList_ofList]
      · exact hv
    rw [written_of_ne hv, hliteral]
    exact htext

end Toml

/-- A setting whose assignment in a template can be taken for itself: its name is
    a bare key, its texts keep to their lines, and its default is a value of its
    type, without an array in which a value is missing, that passes its guards.
    The environment is the one that the guards see. -/
structure Setting.Restorable (environment : Environment) (setting : Setting) : Prop where
  name : Toml.IsBareKey setting.name
  type : setting.type.expressionFree = true
  default : ∃ declared raw, setting.type.coerce declared raw = .ok setting.default
  strings : ∀ s, Value.Within (.string s) setting.default → Toml.Plain s.toList
  arrays : ∀ items, Value.Within (.array items) setting.default → .null ∉ items
  messages : ∀ guard ∈ setting.guards, '\n' ∉ guard.message.toList
  passes : ∀ guard ∈ setting.guards, guard.passes environment setting.default = .ok true

namespace Setting

variable {environment : Environment} {setting : Setting}

theorem Restorable.writable (h : setting.Restorable environment) (hne : setting.default ≠ .null) :
    Toml.Writable setting.default := by
  obtain ⟨_, raw, hcoerce⟩ := h.default
  exact Toml.writable_of_isPlainResult (TypeDesc.isPlainResult_of_coerce h.type hcoerce) hne
    h.strings h.arrays

theorem Restorable.assigns (h : setting.Restorable environment) :
    Toml.Assigns (setting.name, Toml.written setting.default) setting.assignment where
  key := h.name
  writable := Toml.writable_written h.writable
  line := ⟨_, Toml.spells_defaultLiteral h.writable, rfl⟩

theorem exists_of_mem_notes {note : List Char} (h : note ∈ setting.notes) :
    ∃ text, note = ' ' :: text := by
  rw [notes, List.mem_append, List.mem_cons] at h
  rcases h with hdoc | rfl | hguard
  · obtain ⟨line, -, rfl⟩ := List.mem_map.mp hdoc
    exact ⟨line, rfl⟩
  · exact ⟨_, rfl⟩
  · obtain ⟨guard, -, rfl⟩ := List.mem_map.mp hguard
    exact ⟨_, rfl⟩

/-- No text about the setting goes over lines. -/
theorem Restorable.newline_notMem (h : setting.Restorable environment) :
    ∀ part ∈ setting.templateParts, '\n' ∉ part := by
  have hdoc : ∀ line ∈ Text.lines setting.doc.toList, '\n' ∉ ' ' :: line := fun line hline => by
    simpa using Text.notMem_of_mem_lines hline
  have htype : '\n' ∉ " type: ".toList ++ setting.type.nameChars := by
    simpa using setting.type.plain_nameChars.newline_notMem
  have hguards : ∀ guard ∈ setting.guards, '\n' ∉ " guard: ".toList ++ guard.message.toList :=
    fun guard hguard => by simpa using h.messages guard hguard
  have htexts : ∀ text ∈ setting.notes ++ [setting.assignment], '\n' ∉ text := by
    rw [List.forall_mem_append, List.forall_mem_singleton, notes, List.forall_mem_append,
      List.forall_mem_cons, List.forall_mem_map, List.forall_mem_map]
    exact ⟨⟨hdoc, htype, hguards⟩, h.assigns.plain.newline_notMem⟩
  rw [templateParts, List.forall_mem_map]
  exact fun text htext => by simpa using htexts text htext

/-- Of what a template says about a setting, the assignment is left. -/
theorem Restorable.filterMap_templateParts (h : setting.Restorable environment) :
    setting.templateParts.filterMap (fun part => assignment? (Text.chopReturn part))
      = [setting.assignment] := by
  have hnotes : (setting.notes.map ('#' :: ·)).filterMap
      (fun part => assignment? (Text.chopReturn part)) = [] := by
    rw [List.filterMap_eq_nil_iff, List.forall_mem_map]
    intro note hnote
    obtain ⟨text, rfl⟩ := exists_of_mem_notes hnote
    exact assignment?_chopReturn_space text
  have hreturn : '\r' ∉ '#' :: setting.assignment := by
    have hplain := h.assigns.plain
    intro hmem
    exact absurd (hplain '\r' ((List.mem_cons.mp hmem).resolve_left (by decide))) (by decide)
  have hassignment : assignment? (Text.chopReturn ('#' :: setting.assignment))
      = some setting.assignment := by
    rw [Text.chopReturn_of_notMem hreturn]
    obtain ⟨c, s, heq, hc⟩ := h.assigns.exists_cons
    have hne : c ≠ ' ' := Text.ne_of_class hc (by decide)
    rw [heq, assignment?]
    intro t ht
    exact hne (List.cons.inj ht).1
  rw [templateParts, List.map_append, List.filterMap_append, hnotes, List.nil_append]
  simp only [List.map_cons, List.map_nil, List.filterMap_cons, hassignment, List.filterMap_nil]

end Setting

namespace Schema

variable {environment : Environment} {schema : Schema}

/-- What is picked out of the parts about the settings one by one. -/
theorem filterMap_intercalate {α : Type} {f : List Char → Option α} (hf : f [] = none)
    (groups : List (List (List Char))) :
    ([[]].intercalate groups).filterMap f = groups.flatMap (·.filterMap f) := by
  induction groups with
  | nil => rfl
  | cons parts groups ih =>
    cases groups with
    | nil => simp
    | cons next groups =>
      rw [List.intercalate_cons_cons, List.filterMap_append, List.filterMap_append, ih,
        List.filterMap_cons_none hf, List.filterMap_nil, List.append_nil]
      rfl

theorem toList_uncommented (h : ∀ setting ∈ schema.settings, setting.Restorable environment) :
    (uncommented schema.template).toList
      = (schema.settings.map Setting.assignment).flatMap (· ++ ['\n']) := by
  have hparts : ∀ part ∈ schema.templateParts, '\n' ∉ part := by
    rw [templateParts, forall_mem_intercalate_iff (by simp), List.forall_mem_map]
    exact fun setting hsetting => (h setting hsetting).newline_notMem
  have hassignments : (schema.templateParts.map Text.chopReturn).filterMap assignment?
      = schema.settings.map Setting.assignment := by
    rw [List.filterMap_map, templateParts, filterMap_intercalate rfl, List.flatMap_map]
    calc schema.settings.flatMap (fun setting =>
          setting.templateParts.filterMap (assignment? ∘ Text.chopReturn))
        = schema.settings.flatMap fun setting => [setting.assignment] :=
          List.flatMap_congr fun setting hsetting => (h setting hsetting).filterMap_templateParts
      _ = schema.settings.map Setting.assignment := List.flatMap_pure_eq_map _ _
  rw [uncommented, String.toList_ofList, toList_template, Text.lines_flatMap_newline hparts,
    hassignments]

/-- What an uncommented template denotes: every setting with its default. -/
def writtenDefaults (schema : Schema) : Document :=
  schema.settings.map fun setting => (setting.name, Toml.written setting.default)

theorem distinct_writtenDefaults (schema : Schema) : schema.writtenDefaults.Distinct := by
  have hkeys : schema.writtenDefaults.keys = schema.settings.map Setting.name := by
    rw [writtenDefaults, Document.keys, List.map_map]
    rfl
  rw [Document.Distinct, hkeys]
  exact schema.nodup

theorem mem_writtenDefaults_iff {key : String} {v : Value} :
    (key, v) ∈ schema.writtenDefaults
      ↔ ∃ setting ∈ schema.settings, setting.name = key ∧ Toml.written setting.default = v := by
  simp only [writtenDefaults, List.mem_map, Prod.mk.injEq]

theorem declares_of_find?_writtenDefaults {key : String} {v : Value}
    (h : schema.writtenDefaults.find? key = some v) : schema.declares key = true := by
  obtain ⟨setting, hmem, rfl, -⟩ := mem_writtenDefaults_iff.mp (Document.mem_of_find?_eq_some h)
  exact declares_of_mem hmem

/-- An uncommented template binds every setting to its default, unless one of
    these nests too deeply for the reader. -/
theorem ofString_uncommented (h : ∀ setting ∈ schema.settings, setting.Restorable environment) :
    Toml.ofString (uncommented schema.template)
      = if ∀ setting ∈ schema.settings, Toml.nesting setting.default ≤ Toml.nestingLimit then
          some schema.writtenDefaults
        else none := by
  have hassigns : List.Forall₂ Toml.Assigns schema.writtenDefaults
      (schema.settings.map Setting.assignment) := by
    rw [writtenDefaults, List.forall₂_map_left_iff, List.forall₂_map_right_iff, List.forall₂_same]
    exact fun setting hsetting => (h setting hsetting).assigns
  have hnesting : (∀ e ∈ schema.writtenDefaults, Toml.nesting e.2 ≤ Toml.nestingLimit)
      ↔ ∀ setting ∈ schema.settings, Toml.nesting setting.default ≤ Toml.nestingLimit := by
    simp only [writtenDefaults, List.forall_mem_map, Toml.nesting_written]
  rw [Toml.ofString, toList_uncommented h,
    Toml.read_assignments hassigns schema.distinct_writtenDefaults]
  simp only [hnesting]

/-! ## Loading -/

theorem find?_writtenDefaults {setting : Setting} (h : setting ∈ schema.settings) :
    schema.writtenDefaults.find? setting.name = some (Toml.written setting.default) :=
  schema.distinct_writtenDefaults.find?_eq_some_iff.mpr
    (mem_writtenDefaults_iff.mpr ⟨setting, h, rfl, rfl⟩)

theorem admits_writtenDefaults (schema : Schema) (strict : Bool) :
    schema.Admits strict schema.writtenDefaults := by
  have hdeclares : ∀ e ∈ schema.writtenDefaults, schema.declares e.1 = true := fun e he =>
    declares_of_find?_writtenDefaults (schema.distinct_writtenDefaults.find?_eq_some_iff.mpr he)
  refine ⟨fun e he => Or.inl (hdeclares e he), fun _ => ?_⟩
  rw [unknownKeys, List.flatMap_eq_nil_iff]
  intro e he
  exact if_pos (hdeclares e he)

/-- A setting takes its written default for its default exactly if coercion
    does, since the guards let the default pass. -/
theorem validated?_written_iff {setting : Setting} (hmem : setting ∈ schema.settings)
    (h : setting.Restorable environment) :
    schema.validated? environment setting.name (Toml.written setting.default)
        = some setting.held
      ↔ setting.type.coerce environment (Toml.written setting.default) = .ok setting.default := by
  rw [validated?, find?_of_mem hmem, Option.bind_some, toOption_eq_some_iff,
    Setting.validate_eq_ok_iff]
  constructor
  · rintro ⟨v, hcoerce, -, heq⟩
    obtain rfl : setting.default = v := (Held.mk.inj heq).2.2
    exact hcoerce
  · exact fun hcoerce => ⟨setting.default, hcoerce, h.passes, rfl⟩

/-- The data of the defaults as a document. -/
theorem exists_buildData_writtenDefaults_iff
    (h : ∀ setting ∈ schema.settings, setting.Restorable environment) (strict : Bool) :
    (∃ data, schema.buildData environment strict schema.writtenDefaults = .ok data
        ∧ ∀ setting ∈ schema.settings, data.global.find? setting.name = some setting.held)
      ↔ ∀ setting ∈ schema.settings,
        setting.type.coerce environment (Toml.written setting.default) = .ok setting.default := by
  have hglobal {data : ConfigData}
      (hdata : schema.buildData environment strict schema.writtenDefaults = .ok data)
      {setting : Setting} (hmem : setting ∈ schema.settings) :
      data.global.find? setting.name
        = schema.validated? environment setting.name (Toml.written setting.default) := by
    rw [find?_global_of_buildData schema.distinct_writtenDefaults hdata,
      find?_writtenDefaults hmem]
    rfl
  constructor
  · rintro ⟨data, hdata, hheld⟩ setting hmem
    rw [← validated?_written_iff hmem (h setting hmem), ← hglobal hdata hmem]
    exact hheld setting hmem
  · intro hcoerce
    have hvalidated : ∀ setting ∈ schema.settings,
        schema.validated? environment setting.name (Toml.written setting.default)
          = some setting.held := fun setting hmem =>
      (validated?_written_iff hmem (h setting hmem)).mpr (hcoerce setting hmem)
    have hbuilt :
        ∃ data, schema.buildData environment strict schema.writtenDefaults = .ok data := by
      -- only settings stand at the top, so there are no sections to fail
      refine (isOk_buildData_iff schema.distinct_writtenDefaults).mpr ⟨?_, ?_, ?_⟩
      · exact fun key v hfind => Or.inl (declares_of_find?_writtenDefaults hfind)
      · intro key v hfind _
        obtain ⟨setting, hmem, rfl, rfl⟩ :=
          mem_writtenDefaults_iff.mp (Document.mem_of_find?_eq_some hfind)
        exact Or.inr (by rw [hvalidated setting hmem]; rfl)
      · intro name entries hsection
        obtain ⟨v, hfind, hopened⟩ := Option.bind_eq_some_iff.mp hsection
        have hname := (opened?_eq_some_iff.mp hopened).1
        rw [declares_of_find?_writtenDefaults hfind] at hname
        exact absurd hname (by decide)
    obtain ⟨data, hdata⟩ := hbuilt
    exact ⟨data, hdata, fun setting hmem => (hglobal hdata hmem).trans (hvalidated setting hmem)⟩

/-- Loading an uncommented template as the only file. -/
theorem resolve_uncommented_eq_ok_iff
    (h : ∀ setting ∈ schema.settings, setting.Restorable environment)
    (strict : Bool) (path : String) (processVariables : Variables) {data : ConfigData} :
    schema.resolve environment strict [⟨path, uncommented schema.template⟩]
        ⟨none, processVariables, []⟩ = .ok data
      ↔ (∀ setting ∈ schema.settings, Toml.nesting setting.default ≤ Toml.nestingLimit)
        ∧ schema.buildData environment strict schema.writtenDefaults = .ok data := by
  have hread := ofString_uncommented h
  have hmerged {doc : Document} : schema.mergeFiles strict [⟨path, uncommented schema.template⟩]
      = .ok doc ↔ Toml.ofString (uncommented schema.template) = some doc
        ∧ schema.Admits strict doc := by
    rw [mergeFiles_singleton_eq_ok_iff, ConfigFile.document_eq_ok_iff]
  rw [resolve, bind_eq_ok_iff]
  constructor
  · rintro ⟨merged, hfiles, hdata⟩
    obtain ⟨hdoc, -⟩ := hmerged.mp hfiles
    rw [hread] at hdoc
    split at hdoc
    · rename_i hnesting
      obtain rfl := Option.some.inj hdoc
      exact ⟨hnesting, hdata⟩
    · exact absurd hdoc (by simp)
  · rintro ⟨hnesting, hdata⟩
    rw [if_pos hnesting] at hread
    exact ⟨schema.writtenDefaults,
      hmerged.mpr ⟨hread, schema.admits_writtenDefaults strict⟩, hdata⟩

/-- Loaded as the only file, an uncommented template gives every setting its
    default exactly if no default nests too deeply and each stays what it is when
    it is coerced once more, which holds for all types without unions. -/
theorem resolve_uncommented_iff
    (h : ∀ setting ∈ schema.settings, setting.Restorable environment) (strict : Bool)
    (path : String) (processVariables : Variables) :
    ((∃ data, schema.resolve environment strict [⟨path, uncommented schema.template⟩]
          ⟨none, processVariables, []⟩ = .ok data
        ∧ ∀ setting ∈ schema.settings, data.global.find? setting.name = some setting.held)
      ↔ ∀ setting ∈ schema.settings, Toml.nesting setting.default ≤ Toml.nestingLimit
        ∧ setting.type.coerce environment (Toml.written setting.default) = .ok setting.default)
    ∧ ∀ setting ∈ schema.settings, setting.type.unionFree = true →
      setting.type.coerce environment (Toml.written setting.default) = .ok setting.default := by
  constructor
  · simp only [resolve_uncommented_eq_ok_iff h, and_assoc, exists_and_left,
      exists_buildData_writtenDefaults_iff h]
    exact ⟨fun hall setting hmem => ⟨hall.1 setting hmem, hall.2 setting hmem⟩,
      fun hall => ⟨fun setting hmem => (hall setting hmem).1,
        fun setting hmem => (hall setting hmem).2⟩⟩
  · intro setting hmem hunion
    obtain ⟨declared, raw, hcoerce⟩ := (h setting hmem).default
    have htype := (h setting hmem).type
    by_cases hnull : setting.default = .null
    · rw [hnull] at hcoerce ⊢
      exact TypeDesc.coerce_none htype hunion hcoerce
    · rw [Toml.written_of_ne hnull]
      exact TypeDesc.coerce_coerce htype hunion hcoerce

end Schema

/-! ## Defaults without a literal -/

namespace Toml

theorem itemLiterals_eq_none {item : Value} {items : List Value} (hmem : item ∈ items)
    (hitem : literal item = none) : itemLiterals items = none := by
  induction items with
  | nil => cases hmem
  | cons first rest ih =>
    rw [itemLiterals]
    rcases List.mem_cons.mp hmem with rfl | hrest
    · rw [hitem]
      rfl
    · rw [ih hrest]
      cases literal first <;> rfl

theorem entryLiterals_eq_none {e : String × Value} {entries : Document} (hmem : e ∈ entries)
    (hentry : literal e.2 = none) : entryLiterals entries = none := by
  induction entries with
  | nil => cases hmem
  | cons first rest ih =>
    rw [entryLiterals]
    rcases List.mem_cons.mp hmem with rfl | hrest
    · rw [hentry]
      rfl
    · rw [ih hrest]
      cases literal first.2 <;> rfl

/-- Nothing in which a value is missing, however deep, has a literal. -/
theorem literal_eq_none_of_within {v : Value} (h : Value.Within .null v) :
    literal v = none := by
  induction h with
  | refl => rfl
  | item hv _ ih =>
    rw [literal, itemLiterals_eq_none hv ih]
    rfl
  | entry he _ ih =>
    rw [literal, entryLiterals_eq_none he ih]
    rfl

end Toml

/-- A default in which a value is missing, as long as it is not missing itself, is
    written as its JSON text in quotes.  For a file that is a string, and no array. -/
theorem Setting.assignment_of_missing {setting : Setting}
    (h : Value.Within .null setting.default) (hne : setting.default ≠ .null) :
    setting.assignment
      = setting.name.toList ++ " = ".toList ++ (Text.quoted setting.default.text).toList := by
  have hliteral : Toml.defaultLiteral setting.default = Text.quoted setting.default.text := by
    rw [Toml.defaultLiteral]
    · rw [Toml.literal_eq_none_of_within h]
    · exact hne
  rw [assignment, hliteral]

namespace Schema

variable {environment : Environment} {schema : Schema}

/-- A schema with a default that is no value, one that is an array, and a guard. -/
def store : Schema :=
  ⟨[⟨"backup", .optional .string, "Where copies go.", .null, []⟩,
    ⟨"sizes", .list .int, "Sizes of the shelves.", .array [.int 1, .int 2],
      [.ofPredicate "sizes must not be empty" fun v =>
        match v with
        | .array items => !items.isEmpty
        | _ => false]⟩], by decide⟩

/-- The uncommented template of a small store gives its defaults back. -/
theorem resolve_uncommented_store :
    ∃ data, store.resolve .empty true [⟨"store.toml", uncommented store.template⟩] ⟨none, [], []⟩
        = .ok data
      ∧ ∀ setting ∈ store.settings, data.global.find? setting.name = some setting.held := by
  have hrestorable : ∀ setting ∈ store.settings, setting.Restorable .empty := by
    intro setting hmem
    rw [store] at hmem
    rcases List.mem_cons.mp hmem with rfl | hmem
    · exact {
        name := by decide
        type := rfl
        default := ⟨.empty, .null, rfl⟩
        strings := fun s hs => by cases hs
        arrays := fun items hitems => by cases hitems
        messages := by simp
        passes := by simp }
    · obtain rfl := List.mem_singleton.mp hmem
      exact {
        name := by decide
        type := rfl
        default := ⟨.empty, .array [.int 1, .int 2], rfl⟩
        strings := by simp [Value.within_array_iff, Value.within_number_iff]
        arrays := by simp [Value.within_array_iff, Value.within_number_iff]
        messages := by decide
        passes := by simp [Guard.ofPredicate, Guard.passes] }
  obtain ⟨hiff, hstable⟩ := resolve_uncommented_iff hrestorable true "store.toml" []
  refine hiff.mpr fun setting hmem => ⟨?_, hstable setting hmem ?_⟩
  · revert setting
    decide
  · revert setting
    decide

/-- A setting that is a truth value unless it is an integer. -/
def flag : Setting :=
  ⟨"flag", .union .int .bool, "A flag.", .bool true, []⟩

/-- The schema with that setting alone. -/
def flagged : Schema :=
  ⟨[flag], by decide⟩

/-- The default came from a text, which is no integer; what the template has for
    it is a truth value, which is one. -/
theorem resolve_uncommented_flag :
    (Setting.declare .empty "flag" (.union .int .bool) "A flag." (.string "true") >>= empty.add)
        = .ok flagged
      ∧ flagged.template = "# A flag.\n# type: Union[Int,Bool]\n#flag = true\n"
      ∧ flag.Restorable .empty
      ∧ ∃ data, flagged.resolve .empty true [⟨"t.toml", uncommented flagged.template⟩]
            ⟨none, [], []⟩
            = .ok data
          ∧ (data.global.find? "flag").map Held.value = some (.int 1)
          ∧ flag.default = .bool true := by
  have hflag : flag.Restorable .empty := {
    name := by decide
    type := rfl
    default := ⟨.empty, .string "true", rfl⟩
    strings := fun s hs => by cases hs
    arrays := fun items hitems => by cases hitems
    messages := by simp [flag]
    passes := by simp [flag] }
  have htemplate : flagged.template.toList
      = "# A flag.\n# type: Union[Int,Bool]\n#flag = true\n".toList := by
    rw [toList_template]
    decide
  have hrestorable : ∀ setting ∈ flagged.settings, setting.Restorable .empty := by
    simpa [flagged] using hflag
  obtain ⟨data, hdata, hvalue⟩ : ∃ data, flagged.buildData .empty true flagged.writtenDefaults
      = .ok data ∧ (data.global.find? "flag").map Held.value = some (.int 1) := ⟨_, rfl, rfl⟩
  have hresolve : flagged.resolve .empty true [⟨"t.toml", uncommented flagged.template⟩]
        ⟨none, [], []⟩
      = .ok data :=
    (resolve_uncommented_eq_ok_iff hrestorable true "t.toml" []).mpr ⟨by decide, hdata⟩
  exact ⟨rfl, String.toList_inj.mp htemplate, hflag, data, hresolve, hvalue, rfl⟩

end Schema

end LayeredConfig
