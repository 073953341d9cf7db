/-
  LayeredConfig.Proofs.Layer.Overrides

  What the layer of overrides binds.

  A key at the top starts afresh with every override for it.  What comes later
  for the section of its name is written over the table that it holds, and over
  an empty one where it holds something else.  So a place in a section is what
  the last override for it says as long as none for the section as a whole comes
  later (`find?_tableAt_setOverrides`), and nothing else is bound.
-/
import LayeredConfig.Proofs.Layer.LastEntry
import LayeredConfig.Proofs.Precedence
import LayeredConfig.Proofs.Text.Pieces

namespace LayeredConfig

/-! ## Dotted keys -/

namespace Address

variable {dotted name key : String}

/-- A dotted key names a section before its last dot. -/
theorem ofDotted_eq_named_iff :
    ofDotted dotted = ⟨some name, key⟩ ↔ dotted = name ++ "." ++ key ∧ '.' ∉ key.toList := by
  have htext : dotted = name ++ "." ++ key ↔
      dotted.toList = name.toList ++ '.' :: key.toList := by
    rw [← String.toList_inj, String.toList_append, String.toList_append, List.append_assoc]
    rfl
  rw [htext, ← Text.splitLast?_eq_some_iff, ofDotted]
  cases hsplit : Text.splitLast? '.' dotted.toList with
  | none => simp
  | some parts => simp [← String.toList_inj, Prod.ext_iff]

/-- Without a dot it is a key at the top. -/
theorem ofDotted_eq_top_iff :
    ofDotted dotted = ⟨none, key⟩ ↔ dotted = key ∧ '.' ∉ dotted.toList := by
  rw [← Text.splitLast?_eq_none_iff, ofDotted]
  cases hsplit : Text.splitLast? '.' dotted.toList with
  | none => simp
  | some parts => simp

end Address

/-! ## Overrides as entries -/

/-- The places that overrides are for, with their values. -/
def overrideEntries (overrides : List (String × Value)) : List (Address × Value) :=
  overrides.map fun (dotted, v) => (.ofDotted dotted, v)

/-- The entries of a table; none of what is no table. -/
def Value.entries : Value → Document
  | .table entries => entries
  | _ => []

namespace Document

/-- Sets places to values, one after another. -/
def setOverrides (doc : Document) (entries : List (Address × Value)) : Document :=
  entries.foldl (fun doc (address, v) => doc.setOverride address v) doc

theorem ofOverrides_eq (overrides : List (String × Value)) :
    ofOverrides overrides = setOverrides [] (overrideEntries overrides) := by
  rw [ofOverrides, setOverrides, overrideEntries, List.foldl_map]

variable {doc : Document} {entries : List (Address × Value)} {address : Address} {v : Value}
  {top : String}

theorem setOverrides_cons (doc : Document) (address : Address) (v : Value)
    (entries : List (Address × Value)) :
    doc.setOverrides ((address, v) :: entries) = (doc.setOverride address v).setOverrides entries :=
  rfl

theorem setOverrides_append (doc : Document) (earlier later : List (Address × Value)) :
    doc.setOverrides (earlier ++ later) = (doc.setOverrides earlier).setOverrides later :=
  List.foldl_append

theorem tableAt_congr {other : Document} (h : doc.find? top = other.find? top) :
    doc.tableAt top = other.tableAt top := by
  rw [tableAt, tableAt, h]

theorem tableAt_eq_entries (h : doc.find? top = some v) : doc.tableAt top = v.entries := by
  rw [tableAt, h]
  cases v <;> rfl

/-! ## One override -/

theorem find?_setOverride_top (doc : Document) (top : String) (v : Value) :
    (doc.setOverride ⟨none, top⟩ v).find? top = some v := by
  rw [setOverride, find?_insert, if_pos rfl]

theorem find?_setOverride_section (doc : Document) (name key : String) (v : Value) :
    (doc.setOverride ⟨some name, key⟩ v).find? name
      = some (.table (insert key v (doc.tableAt name))) := by
  rw [setOverride, find?_insert, if_pos rfl]

/-- An override leaves alone what it is not for. -/
theorem find?_setOverride_of_ne (htop : address ≠ ⟨none, top⟩)
    (hsection : address.sectionName ≠ some top) (doc : Document) (v : Value) :
    (doc.setOverride address v).find? top = doc.find? top := by
  obtain ⟨_ | name, key⟩ := address
  · have hkey : key ≠ top := fun h => htop (h ▸ rfl)
    rw [setOverride, find?_insert, if_neg hkey]
  · have hname : name ≠ top := fun h => hsection (h ▸ rfl)
    rw [setOverride, find?_insert, if_neg hname]

/-- An override that is not for the section as a whole writes at most one place
    of it. -/
theorem find?_tableAt_setOverride (htop : address ≠ ⟨none, top⟩) (doc : Document) (v : Value)
    (key : String) :
    ((doc.setOverride address v).tableAt top).find? key
      = (lastAt [(address, v)] ⟨some top, key⟩).or ((doc.tableAt top).find? key) := by
  rw [lastAt_singleton]
  by_cases hsection : address.sectionName = some top
  · obtain ⟨name, target⟩ := address
    obtain rfl : name = some top := hsection
    rw [tableAt_of_find? (find?_setOverride_section doc top target v), find?_insert]
    by_cases hkey : target = key <;> simp [hkey]
  · have hne : address ≠ ⟨some top, key⟩ := fun h => hsection (h ▸ rfl)
    rw [tableAt_congr (find?_setOverride_of_ne htop hsection doc v), if_neg hne, Option.none_or]

/-! ## Overrides in turn -/

theorem find?_setOverrides_of_untouched (h : Untouched entries top) (doc : Document) :
    (doc.setOverrides entries).find? top = doc.find? top := by
  induction entries generalizing doc with
  | nil => rfl
  | cons entry entries ih =>
    obtain ⟨hentry, hentries⟩ := List.forall_mem_cons.mp h
    rw [setOverrides_cons, ih hentries, find?_setOverride_of_ne hentry.1 hentry.2]

/-- Of the overrides for a place the last counts, and below them what was there,
    as long as none is for the section as a whole. -/
theorem find?_tableAt_setOverrides (h : ∀ e ∈ entries, e.1 ≠ ⟨none, top⟩) (doc : Document)
    (key : String) :
    ((doc.setOverrides entries).tableAt top).find? key
      = (lastAt entries ⟨some top, key⟩).or ((doc.tableAt top).find? key) := by
  -- on the overrides, with what is there before them left open
  induction entries generalizing doc with
  | nil => rfl
  | cons entry entries ih =>
    obtain ⟨hentry, hentries⟩ := List.forall_mem_cons.mp h
    have hlast := lastAt_append [entry] entries ⟨some top, key⟩
    rw [List.singleton_append] at hlast
    rw [setOverrides_cons, ih hentries, find?_tableAt_setOverride hentry, hlast, Option.or_assoc]

/-- A section that one of the overrides is for is a table in the end, as long as
    none is for the section as a whole. -/
theorem exists_table_setOverrides (h : ∀ e ∈ entries, e.1 ≠ ⟨none, top⟩)
    (htable : (∃ table, doc.find? top = some (.table table))
      ∨ ∃ e ∈ entries, e.1.sectionName = some top) :
    ∃ table, (doc.setOverrides entries).find? top = some (.table table) := by
  induction entries generalizing doc with
  | nil => exact htable.resolve_right (by simp)
  | cons entry entries ih =>
    obtain ⟨hentry, hentries⟩ := List.forall_mem_cons.mp h
    obtain ⟨⟨sectionName, key⟩, v⟩ := entry
    refine ih hentries ?_
    by_cases hsection : sectionName = some top
    · subst hsection
      exact Or.inl ⟨_, find?_setOverride_section doc top key v⟩
    · rw [find?_setOverride_of_ne hentry hsection]
      simpa [hsection] using htable

/-- The section as a whole, from what it is when the last override for it has
    been set. -/
theorem section_setOverrides (h : ∀ e ∈ entries, e.1 ≠ ⟨none, top⟩)
    (hsection : ∃ e ∈ entries, e.1.sectionName = some top) (doc : Document) :
    ∃ table : Document, (doc.setOverrides entries).find? top = some (.table table)
      ∧ ∀ key, table.find? key
          = (lastAt entries ⟨some top, key⟩).or ((doc.tableAt top).find? key) := by
  obtain ⟨table, htable⟩ : ∃ table, (doc.setOverrides entries).find? top = some (.table table) :=
    exists_table_setOverrides h (Or.inr hsection)
  refine ⟨table, htable, fun key => ?_⟩
  rw [← find?_tableAt_setOverrides h, tableAt_of_find? htable]

/-! ## The layer of overrides -/

/-- The last override wins, place by place.  A dotted key is for the place behind
    its last dot.  A place in a section is what the last override for it says if
    none for the section as a whole comes later.  A key at the top is what the
    last override for it says if none for its section comes later; if some do,
    it is the table of that override, or an empty one, with these written over
    it.  Nothing else is bound. -/
theorem ofOverrides_last_wins (overrides : List (String × Value)) :
    let doc := ofOverrides overrides
    let all := overrideEntries overrides
    (∀ dotted name key, Address.ofDotted dotted = ⟨some name, key⟩ ↔
        dotted = name ++ "." ++ key ∧ '.' ∉ key.toList)
      ∧ (∀ dotted key, Address.ofDotted dotted = ⟨none, key⟩ ↔ dotted = key ∧ '.' ∉ dotted.toList)
      ∧ (∀ earlier later name key v, all = earlier ++ (⟨some name, key⟩, v) :: later →
          (∀ e ∈ later, e.1 ≠ ⟨some name, key⟩ ∧ e.1 ≠ ⟨none, name⟩) →
          doc.valueAt ⟨some name, key⟩ = some v)
      ∧ (∀ earlier later top v, all = earlier ++ (⟨none, top⟩, v) :: later →
          Untouched later top → doc.find? top = some v)
      ∧ (∀ earlier later top v, all = earlier ++ (⟨none, top⟩, v) :: later →
          (∀ e ∈ later, e.1 ≠ ⟨none, top⟩) → (∃ e ∈ later, e.1.sectionName = some top) →
          ∃ table : Document, doc.find? top = some (.table table)
            ∧ ∀ key, table.find? key
                = (lastAt later ⟨some top, key⟩).or (v.entries.find? key))
      ∧ (∀ top, (∀ e ∈ all, e.1 ≠ ⟨none, top⟩) → (∃ e ∈ all, e.1.sectionName = some top) →
          ∃ table : Document, doc.find? top = some (.table table)
            ∧ ∀ key, table.find? key = lastAt all ⟨some top, key⟩)
      ∧ ∀ top, Untouched all top → doc.find? top = none := by
  intro doc all
  have hdoc : doc = setOverrides [] all := ofOverrides_eq overrides
  have hcut : ∀ {earlier later address v}, all = earlier ++ (address, v) :: later →
      doc = ((setOverrides [] earlier).setOverride address v).setOverrides later := by
    intro earlier later address v hall
    rw [hdoc, hall, setOverrides_append, setOverrides_cons]
  refine ⟨fun _ _ _ => Address.ofDotted_eq_named_iff, fun _ _ => Address.ofDotted_eq_top_iff,
    ?_, ?_, ?_, ?_, ?_⟩
  · -- a key of a section that nothing later touches
    intro earlier later name key v hall hlater
    have hnone : lastAt later ⟨some name, key⟩ = none :=
      lastAt_eq_none_iff.mpr fun e he => (hlater e he).1
    show (doc.tableAt name).find? key = some v
    rw [hcut hall, find?_tableAt_setOverrides fun e he => (hlater e he).2, hnone, Option.none_or,
      tableAt_of_find? (find?_setOverride_section _ name key v), find?_insert, if_pos rfl]
  · -- a key at the top that nothing later touches
    intro earlier later top v hall hlater
    rw [hcut hall, find?_setOverrides_of_untouched hlater, find?_setOverride_top]
  · -- a key at the top that becomes a section later
    intro earlier later top v hall hlater hsection
    rw [hcut hall, ← tableAt_eq_entries (find?_setOverride_top (setOverrides [] earlier) top v)]
    exact section_setOverrides hlater hsection _
  · -- a section from the beginning
    intro top htop hsection
    obtain ⟨table, htable, hkeys⟩ := section_setOverrides htop hsection []
    rw [hdoc]
    exact ⟨table, htable, fun key => (hkeys key).trans (Option.or_none)⟩
  · intro top hall
    rw [hdoc, find?_setOverrides_of_untouched hall, find?]

/-- A section that is set as a whole before one of its keys, one that is set as a
    whole after it, and one whose name has a dot itself. -/
theorem ofOverrides_last_wins_sections :
    let edge : Value := .table [("host", .string "a"), ("port", .int 80)]
    let overrides : List (String × Value) := [("edge", edge), ("edge.port", .int 90),
      ("core.port", .int 81), ("core", .string "b"), ("eu.west.port", .int 82)]
    let doc := ofOverrides overrides
    let later : List (Address × Value) := [(⟨some "edge", "port"⟩, .int 90),
      (⟨some "core", "port"⟩, .int 81), (⟨none, "core"⟩, .string "b"),
      (⟨some "eu.west", "port"⟩, .int 82)]
    overrideEntries overrides = (⟨none, "edge"⟩, edge) :: later
      ∧ (∃ table : Document, doc.find? "edge" = some (.table table)
        ∧ ∀ key, table.find? key = (lastAt later ⟨some "edge", key⟩).or (edge.entries.find? key))
      ∧ doc.valueAt ⟨some "edge", "port"⟩ = some (.int 90)
      ∧ doc.find? "core" = some (.string "b")
      ∧ doc.valueAt ⟨some "eu.west", "port"⟩ = some (.int 82)
      ∧ doc.find? "mesh" = none := by
  intro edge overrides doc later
  have hall : overrideEntries overrides = (⟨none, "edge"⟩, edge) :: later := by
    rfl
  obtain ⟨-, -, hplace, htop, hsection, -, habsent⟩ := ofOverrides_last_wins overrides
  refine ⟨hall, ?_, ?_, ?_, ?_, ?_⟩
  · exact hsection [] later "edge" edge hall (by decide) (by decide)
  · exact hplace [(⟨none, "edge"⟩, edge)] (later.drop 1) "edge" "port" _ hall (by decide)
  · exact htop ((⟨none, "edge"⟩, edge) :: later.take 2) (later.drop 3) "core" _ hall (by decide)
  · exact hplace ((⟨none, "edge"⟩, edge) :: later.take 3) [] "eu.west" "port" _ hall (by decide)
  · refine habsent "mesh" ?_
    rw [hall]
    decide

end Document

end LayeredConfig
