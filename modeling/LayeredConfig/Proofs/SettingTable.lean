/-
  LayeredConfig.Proofs.SettingTable

  The row and the index of a table never come apart.

  A table is in step with a schema if it has the same settings in its row, and the
  place of every name is where the first setting of that name stands
  (`SettingTable.InStep`).  An addition keeps them in step, whether it succeeds or
  not, and so does every run of additions.  In a table that is in step no place lies
  behind the end of the row, and every question is answered as the schema answers it
  (`SettingTable.settings_of_additions`).
-/
import LayeredConfig.Proofs.Declarations
import LayeredConfig.Schema.Table

namespace LayeredConfig

/-! ## Additions to schemas -/

namespace Schema

variable {schema : Schema} {setting : Setting}

/-- Declares one more setting, unless its name is taken. -/
def addIfNew (schema : Schema) (setting : Setting) : Schema :=
  match schema.add setting with
  | .ok added => added
  | .error _ => schema

/-- Declares settings one after another.  One that is rejected is passed over. -/
def addAll (schema : Schema) : List Setting → Schema
  | [] => schema
  | setting :: rest => (schema.addIfNew setting).addAll rest

theorem addIfNew_of_declares (h : schema.declares setting.name = true) :
    schema.addIfNew setting = schema := by
  rw [addIfNew, add_eq_error_iff.mpr ⟨h, rfl⟩]

theorem settings_addIfNew (h : schema.declares setting.name = false) :
    (schema.addIfNew setting).settings = schema.settings ++ [setting] := by
  obtain ⟨added, hadded, hsettings⟩ := exists_add h
  rw [addIfNew, hadded, hsettings]

/-- After an addition a name is looked up among the settings from before, and then it
    may be that of the new one. -/
theorem find?_addIfNew (schema : Schema) (setting : Setting) (name : String) :
    (schema.addIfNew setting).find? name
      = (schema.find? name).or ([setting].find? fun other => other.name = name) := by
  cases h : schema.declares setting.name with
  | false => rw [find?, settings_addIfNew h, List.find?_append, find?]
  | true =>
    rw [addIfNew_of_declares h]
    by_cases hname : setting.name = name
    · subst hname
      obtain ⟨found, hfound⟩ := Option.isSome_iff_exists.mp h
      rw [hfound, Option.some_or]
    · simp [hname]

/-- The settings that are found after additions are those from before, and then the
    first ones that were offered under their names. -/
theorem find?_addAll (schema : Schema) (offered : List Setting) (name : String) :
    (schema.addAll offered).find? name
      = (schema.find? name).or (offered.find? fun setting => setting.name = name) := by
  induction offered generalizing schema with
  | nil => simp [addAll]
  | cons setting rest ih =>
    rw [addAll, ih, find?_addIfNew, Option.or_assoc, ← List.find?_append, List.singleton_append]

end Schema

/-! ## Tables in step -/

/-- What stands at the place of the first item of a kind is that item. -/
theorem map_getElem?_findIdx? {α : Type} (p : α → Bool) (items : List α) :
    (items.findIdx? p).map (fun place => items[place]?) = (items.find? p).map some := by
  induction items with
  | nil => rfl
  | cons item items ih =>
    rw [List.findIdx?_cons, List.find?_cons]
    cases hitem : p item with
    | true => rfl
    | false =>
      rw [← ih, if_neg Bool.false_ne_true, Option.map_map]
      rfl

namespace SettingTable

variable {table : SettingTable} {schema : Schema} {setting : Setting}

/-- A table with the settings of a schema in its row, in which the place of a name is
    that of the first setting of the name. -/
structure InStep (table : SettingTable) (schema : Schema) : Prop where
  settings : table.settings = schema.settings
  places : ∀ name, table.places.find? name
    = schema.settings.findIdx? fun setting => setting.name = name

theorem inStep_empty : empty.InStep .empty := ⟨rfl, fun _ => rfl⟩

theorem InStep.declares_eq (h : table.InStep schema) (name : String) :
    table.declares name = schema.declares name := by
  rw [declares, h.places, Schema.declares, Schema.find?, List.findIdx?_isSome, Bool.eq_iff_iff]
  simp

/-- Every place lies in the row, and there stands the setting that the schema has
    under the name. -/
theorem InStep.find?_eq (h : table.InStep schema) (name : String) :
    table.find? name = (schema.find? name).map some := by
  rw [find?, h.places, Schema.find?, ← map_getElem?_findIdx?]
  simp only [← h.settings, SettingTable.settings, Array.getElem?_toList]

theorem InStep.size_eq (h : table.InStep schema) : table.size = schema.size := by
  rw [size, Schema.size, ← h.settings, SettingTable.settings, Array.length_toList]

theorem add_of_declares (h : table.declares setting.name = true) :
    table.add setting = (.error (.invalidSchema setting.name .declaredTwice), table) := by
  obtain ⟨place, hplace⟩ := Option.isSome_iff_exists.mp h
  rw [add, hplace]

theorem add_of_not_declares (h : table.declares setting.name = false) :
    table.add setting
      = (.ok (), ⟨table.row.push setting, table.places.insert setting.name table.row.size⟩) := by
  have hplace : table.places.find? setting.name = none := by simpa [declares] using h
  rw [add, hplace]

/-- Additions are answered alike by a table and a schema that are in step. -/
theorem InStep.answer (h : table.InStep schema) (setting : Setting) :
    (table.add setting).1 = (schema.add setting).map fun _ => () := by
  cases hname : schema.declares setting.name with
  | true =>
    rw [add_of_declares (h.declares_eq _ ▸ hname), Schema.add_eq_error_iff.mpr ⟨hname, rfl⟩]
    rfl
  | false =>
    obtain ⟨added, hadded, -⟩ := Schema.exists_add hname
    rw [add_of_not_declares (h.declares_eq _ ▸ hname), hadded]
    rfl

/-- An addition keeps a table and a schema in step. -/
theorem InStep.add (h : table.InStep schema) (setting : Setting) :
    (table.add setting).2.InStep (schema.addIfNew setting) := by
  cases hname : schema.declares setting.name with
  | true =>
    rwa [add_of_declares (h.declares_eq _ ▸ hname), Schema.addIfNew_of_declares hname]
  | false =>
    rw [add_of_not_declares (h.declares_eq _ ▸ hname)]
    refine ⟨?_, fun name => ?_⟩
    · rw [Schema.settings_addIfNew hname, ← h.settings, SettingTable.settings,
        Array.toList_push, SettingTable.settings]
    · simp only
      rw [NameMap.find?_insert, h.places, Schema.settings_addIfNew hname, List.findIdx?_append]
      by_cases heq : setting.name = name
      · -- the name has no place yet, and gets the one behind all others
        subst heq
        have hnone : (schema.settings.findIdx? fun other => other.name = setting.name) = none := by
          have hdeclares : table.declares setting.name = false := (h.declares_eq _).trans hname
          rw [← h.places]
          simpa [declares] using hdeclares
        have hsize : table.row.size = schema.settings.length := h.size_eq
        rw [if_pos rfl, hnone, hsize]
        simp
      · simp [heq]

/-- Runs of additions keep a table and a schema in step. -/
theorem InStep.addAll (h : table.InStep schema) (offered : List Setting) :
    (table.addAll offered).InStep (schema.addAll offered) := by
  induction offered generalizing table schema with
  | nil => exact h
  | cons setting rest ih => exact ih (h.add setting)

/-! ## Runs of additions -/

/-- The row grows by what is accepted, in its order. -/
theorem settings_addAll (table : SettingTable) (offered : List Setting) :
    (table.addAll offered).settings = table.settings ++ table.accepted offered := by
  induction offered generalizing table with
  | nil => simp [SettingTable.addAll, accepted]
  | cons setting rest ih =>
    rw [SettingTable.addAll, ih]
    cases hname : table.declares setting.name with
    | true => simp only [accepted, add_of_declares hname]
    | false =>
      simp only [accepted, add_of_not_declares hname, settings, Array.toList_push,
        List.append_assoc, List.singleton_append]

theorem add_fst_eq_error_iff {e : ConfigError} :
    (table.add setting).1 = .error e ↔
      table.declares setting.name = true ∧ e = .invalidSchema setting.name .declaredTwice := by
  cases hname : table.declares setting.name with
  | true => simp [add_of_declares hname, eq_comm]
  | false => simp [add_of_not_declares hname]

/-- What a run of additions to the empty table comes to, whichever of them succeed.
    The names of the settings are different; a name has a place exactly if it is that
    of a setting in the row, which stands there and is the first that was offered
    under the name; the row holds what was accepted, in its order.  One more setting
    is rejected exactly if its name is taken, and then the table stays as it is.  The
    schema that comes of the same run has the same settings and gives the same
    answers. -/
theorem settings_of_additions (offered : List Setting) :
    let table := empty.addAll offered
    let schema := Schema.empty.addAll offered
    (table.settings.map Setting.name).Nodup
      ∧ (∀ name, table.declares name = true ↔
        ∃ setting ∈ table.settings, setting.name = name)
      ∧ (∀ name, table.find? name
        = (offered.find? fun setting => setting.name = name).map some)
      ∧ (∀ name setting, table.find? name = some (some setting) ↔
        setting ∈ table.settings ∧ setting.name = name)
      ∧ table.settings = empty.accepted offered
      ∧ table.size = (empty.accepted offered).length
      ∧ (∀ setting e, (table.add setting).1 = .error e ↔ table.declares setting.name = true
        ∧ e = .invalidSchema setting.name .declaredTwice)
      ∧ (∀ setting, table.declares setting.name = true → (table.add setting).2 = table)
      ∧ table.settings = schema.settings ∧ table.size = schema.size
      ∧ (∀ name, table.declares name = schema.declares name
        ∧ table.find? name = (schema.find? name).map some)
      ∧ ∀ setting, (table.add setting).1 = (schema.add setting).map fun _ => () := by
  intro table schema
  -- what holds of the list and of its index follows from their being in step
  have h : table.InStep schema := inStep_empty.addAll offered
  have haccepted : table.settings = empty.accepted offered := settings_addAll empty offered
  have hfirst (name : String) :
      schema.find? name = offered.find? fun setting => setting.name = name := by
    rw [Schema.find?_addAll]
    rfl
  refine ⟨?_, fun name => ?_, fun name => ?_, fun name setting => ?_, haccepted, ?_,
    fun setting e => add_fst_eq_error_iff, fun setting hname => ?_, h.settings, h.size_eq,
    fun name => ⟨h.declares_eq name, h.find?_eq name⟩, h.answer⟩
  · rw [h.settings]
    exact schema.nodup
  · rw [h.declares_eq, h.settings, Schema.declares_iff, List.mem_map]
  · rw [h.find?_eq, hfirst]
  · rw [h.find?_eq, h.settings]
    constructor
    · intro hfound
      obtain ⟨found, hfind, rfl⟩ : ∃ found, schema.find? name = some found ∧ found = setting := by
        simpa using hfound
      exact ⟨List.mem_of_find?_eq_some hfind, Schema.name_of_find? hfind⟩
    · rintro ⟨hmem, rfl⟩
      rw [Schema.find?_of_mem hmem, Option.map_some]
  · rw [← haccepted]
    exact Array.length_toList.symm
  · rw [add_of_declares hname]

end SettingTable

end LayeredConfig
