/-
  LayeredConfig.Proofs.Independence

  What the sections of a document do not depend on.

  A setting holds in a section what the keys of that section say, and of these
  only its own key counts.  So two documents that bind the settings of one section
  alike have the same section, whatever else they hold (`sections_independent`),
  and a document whose keys stand in another order makes the same data
  (`toOption_buildData_of_reorders`).
-/
import LayeredConfig.Proofs.Agreement
import LayeredConfig.Proofs.Precedence

namespace LayeredConfig

namespace Schema

variable {environment : Environment} {schema : Schema} {strict : Bool}

/-! ## Single sections -/

/-- Two documents bind every setting to the same, or both do not bind it. -/
def SameSettings (schema : Schema) (first second : Document) : Prop :=
  ∀ key, schema.declares key = true → first.find? key = second.find? key

/-- Neither the name of a section nor the keys that are no settings show in what
    it holds. -/
theorem sectionData_eq_of_sameSettings {lower upper : Document} (hlower : lower.Distinct)
    (hupper : upper.Distinct) (h : schema.SameSettings lower upper)
    {sectionName otherName : Option String} {settings others : SectionData}
    (hsettings : schema.sectionData environment strict sectionName lower = .ok settings)
    (hothers : schema.sectionData environment strict otherName upper = .ok others) :
    settings = others := by
  refine NameMap.ext fun key => ?_
  rw [find?_of_sectionData hlower hsettings, find?_of_sectionData hupper hothers]
  exact heldFor_congr fun hkey => h key hkey

/-- A table under a key that is no setting is a section of the data, made from
    the entries of that table. -/
theorem exists_section_of_buildData {raw : Document} (hraw : raw.Distinct) {data : ConfigData}
    (h : schema.buildData environment strict raw = .ok data) {name : String} {entries : Document}
    (hname : schema.declares name = false) (hfind : raw.find? name = some (.table entries)) :
    ∃ settings, data.find? (some name) = some settings
      ∧ schema.sectionData environment strict (some name) entries = .ok settings := by
  have hsection : schema.sectionOf raw name = some entries := by
    rw [sectionOf, hfind]
    exact opened?_eq_some_iff.mpr ⟨hname, rfl⟩
  obtain ⟨-, -, hsections⟩ := (isOk_buildData_iff hraw).mp ⟨data, h⟩
  obtain ⟨settings, hsettings⟩ := hsections name entries hsection
  refine ⟨settings, ?_, hsettings⟩
  show data.named.find? name = some settings
  rw [find?_named_of_buildData hraw h, hsection, Option.bind_some, hsettings]
  rfl

/-- Sections do not influence one another.  A named section is the same in the
    data of two documents that bind the settings alike in the table of its name,
    and every setting holds there what comes from that table or is its default;
    and the global section is the same if they bind the settings alike at the
    top. -/
theorem sections_independent {first second : Document} (hfirst : first.WellFormed)
    (hsecond : second.WellFormed) {data other : ConfigData}
    (hdata : schema.buildData environment strict first = .ok data)
    (hother : schema.buildData environment strict second = .ok other) :
    (∀ name (lower upper : Document), schema.declares name = false →
        first.find? name = some (.table lower) → second.find? name = some (.table upper) →
        schema.SameSettings lower upper →
        ∃ settings, data.find? (some name) = some settings
          ∧ other.find? (some name) = some settings
          ∧ ∀ setting ∈ schema.settings, ∃ held, settings.find? setting.name = some held
              ∧ held.ComesFrom environment setting (lower.find? setting.name))
      ∧ (schema.SameSettings first second → data.find? none = other.find? none) := by
  refine ⟨fun name lower upper hname hlower hupper h => ?_, fun h => ?_⟩
  · obtain ⟨settings, hsection, hsettings⟩ :=
      exists_section_of_buildData hfirst.distinct hdata hname hlower
    obtain ⟨others, hsection', hothers⟩ :=
      exists_section_of_buildData hsecond.distinct hother hname hupper
    have hsame := sectionData_eq_of_sameSettings (hfirst.distinct_of_find? hlower)
      (hsecond.distinct_of_find? hupper) h hsettings hothers
    refine ⟨settings, hsection, hsame ▸ hsection', fun setting hsetting => ?_⟩
    obtain ⟨held, hheld, hfrom⟩ := exists_held_of_buildData hfirst hdata hsection hsetting
    have hplace : first.valueAt ⟨some name, setting.name⟩ = lower.find? setting.name := by
      show (first.tableAt name).find? setting.name = _
      rw [Document.tableAt_of_find? hlower]
    exact ⟨held, hheld, hplace ▸ hfrom⟩
  · exact congrArg some (global_eq_of_buildData hfirst.distinct hsecond.distinct hdata hother h)

/-- A server of which a section stands beside another port and another section,
    and a global port beside another section. -/
theorem sections_independent_server :
    let edge : Value := .table [("host", .string "a")]
    let core : Value := .table [("port", .int 9)]
    let first : Document := [("port", .int 8080), ("edge", edge)]
    let second : Document := [("port", .int 1), ("core", core), ("edge", edge)]
    let third : Document := [("port", .int 8080), ("core", core)]
    ∃ data other another, server.buildData .empty true first = .ok data
      ∧ server.buildData .empty true second = .ok other
      ∧ server.buildData .empty true third = .ok another
      ∧ (∃ settings, data.find? (some "edge") = some settings
        ∧ other.find? (some "edge") = some settings)
      ∧ data.find? none = another.find? none := by
  intro edge core first second third
  obtain ⟨hfirst, hsecond, hthird⟩ :
      first.WellFormed ∧ second.WellFormed ∧ third.WellFormed := by
    simp [first, second, third, edge, core, Document.wellFormed_cons, Document.wellFormed_nil,
      Value.wellFormed_table_iff, Value.WellFormed.string, Value.WellFormed.number]
  obtain ⟨data, hdata⟩ : ∃ data, server.buildData .empty true first = .ok data :=
    isSome_toOption_iff.mp (by decide +kernel)
  obtain ⟨other, hother⟩ : ∃ other, server.buildData .empty true second = .ok other :=
    isSome_toOption_iff.mp (by decide +kernel)
  obtain ⟨another, hanother⟩ : ∃ another, server.buildData .empty true third = .ok another :=
    isSome_toOption_iff.mp (by decide +kernel)
  refine ⟨data, other, another, hdata, hother, hanother, ?_, ?_⟩
  · obtain ⟨settings, hsettings, hsame, -⟩ := (sections_independent hfirst hsecond hdata hother).1
      "edge" [("host", .string "a")] [("host", .string "a")] (by decide) rfl rfl fun _ _ => rfl
    exact ⟨settings, hsettings, hsame⟩
  · refine (sections_independent hfirst hthird hdata hanother).2 fun key hkey => ?_
    -- the two differ in a key that is no setting
    have hmem : key = "port" ∨ key = "host" := by
      simpa [declares_iff, server] using hkey
    rcases hmem with rfl | rfl <;> rfl

/-! ## The order of keys -/

/-- An entry of a document that is kept, or the table of a section with its keys
    in another order. -/
def ReordersEntry (schema : Schema) (entry other : String × Value) : Prop :=
  entry = other ∨ ∃ name lower upper, schema.declares name = false
    ∧ entry = (name, .table lower) ∧ other = (name, .table upper) ∧ lower.Perm upper

/-- One document has the keys of another in another order, at the top and inside
    of its sections.  What the settings are bound to is left alone. -/
def Reorders (schema : Schema) (first second : Document) : Prop :=
  ∃ middle, first.Perm middle ∧ List.Forall₂ schema.ReordersEntry middle second

theorem sectionsAgree_of_perm {lower upper : Document} (hlower : lower.Distinct)
    (h : lower.Perm upper) : schema.SectionsAgree strict lower upper := by
  refine ⟨fun key _ => hlower.find?_eq_of_perm h key, fun _ key _ => ?_⟩
  rw [Document.binds, Document.binds, hlower.find?_eq_of_perm h]

theorem ReordersEntry.fst_eq {entry other : String × Value}
    (h : schema.ReordersEntry entry other) : entry.1 = other.1 := by
  rcases h with rfl | ⟨name, lower, upper, -, rfl, rfl, -⟩ <;> rfl

theorem ReordersEntry.wellFormed {entry other : String × Value}
    (h : schema.ReordersEntry entry other) (hentry : entry.2.WellFormed) : other.2.WellFormed := by
  rcases h with rfl | ⟨name, lower, upper, -, rfl, rfl, hperm⟩
  · exact hentry
  · rw [Value.wellFormed_table_iff] at hentry ⊢
    exact hentry.of_perm hperm

theorem keys_of_reordersEntry {middle second : Document}
    (h : List.Forall₂ schema.ReordersEntry middle second) :
    Document.keys middle = Document.keys second := by
  induction h with
  | nil => rfl
  | cons hentry _ ih => rw [Document.keys_cons, Document.keys_cons, hentry.fst_eq, ih]

/-- What is found in both documents is the same, or two sections that differ in
    the order of their keys. -/
theorem find?_of_reordersEntry {middle second : Document}
    (h : List.Forall₂ schema.ReordersEntry middle second) (key : String) :
    middle.find? key = second.find? key
      ∨ ∃ lower upper : Document, schema.declares key = false
          ∧ middle.find? key = some (.table lower) ∧ second.find? key = some (.table upper)
          ∧ lower.Perm upper := by
  induction h with
  | nil => exact Or.inl rfl
  | @cons entry other middle second hentry _ ih =>
    by_cases hkey : entry.1 = key
    · rcases hentry with rfl | ⟨name, lower, upper, hname, rfl, rfl, hperm⟩
      · left
        simp [Document.find?, hkey]
      · obtain rfl : name = key := hkey
        exact Or.inr ⟨lower, upper, hname, by simp [Document.find?], by simp [Document.find?],
          hperm⟩
    · have hother : other.1 ≠ key := hentry.fst_eq ▸ hkey
      simpa [Document.find?, hkey, hother] using ih

theorem wellFormed_of_reordersEntry {middle second : Document}
    (h : List.Forall₂ schema.ReordersEntry middle second)
    (hvalues : ∀ entry ∈ middle, entry.2.WellFormed) : ∀ entry ∈ second, entry.2.WellFormed := by
  induction h with
  | nil => simp
  | cons hentry _ ih =>
    rw [List.forall_mem_cons] at hvalues ⊢
    exact ⟨hentry.wellFormed hvalues.1, ih hvalues.2⟩

theorem Reorders.wellFormed {first second : Document} (h : schema.Reorders first second)
    (hfirst : first.WellFormed) : second.WellFormed := by
  obtain ⟨middle, hperm, hentries⟩ := h
  obtain ⟨hdistinct, hvalues⟩ := hfirst.of_perm hperm
  refine ⟨?_, wellFormed_of_reordersEntry hentries hvalues⟩
  rwa [Document.Distinct, ← keys_of_reordersEntry hentries]

theorem Reorders.agree {first second : Document} (h : schema.Reorders first second)
    (hfirst : first.WellFormed) : schema.Agree strict first second := by
  obtain ⟨middle, hperm, hentries⟩ := h
  have hmiddle := hfirst.of_perm hperm
  refine ⟨fun key hkey => ?_, fun name hname => ?_⟩
  · rw [hfirst.distinct.find?_eq_of_perm hperm]
    rcases find?_of_reordersEntry hentries key with hsame | ⟨_, _, hundeclared, -⟩
    · exact hsame
    · exact absurd rfl (ne_of_declares hkey hundeclared)
  · rw [hfirst.distinct.find?_eq_of_perm hperm]
    rcases find?_of_reordersEntry hentries name with hsame | ⟨lower, upper, -, hlow, hup, hkeys⟩
    · exact Or.inl hsame
    · exact Or.inr ⟨lower, upper, hlow, hup,
        sectionsAgree_of_perm (hmiddle.distinct_of_find? hlow) hkeys⟩

/-- The order of keys never changes a configuration: a document and the same
    document in another order make the same data, or both make none. -/
theorem toOption_buildData_of_reorders {first second : Document}
    (h : schema.Reorders first second) (hfirst : first.WellFormed) :
    (schema.buildData environment strict first).toOption
      = (schema.buildData environment strict second).toOption :=
  toOption_buildData_congr (h.agree hfirst) hfirst (h.wellFormed hfirst)

/-- A server whose document lists its keys in two orders, at the top and in a
    section. -/
theorem toOption_buildData_of_reorders_server :
    let first : Document := [("port", .int 8080),
      ("edge", .table [("host", .string "a"), ("port", .int 9)]), ("core", .table [])]
    let second : Document := [("core", .table []),
      ("edge", .table [("port", .int 9), ("host", .string "a")]), ("port", .int 8080)]
    first.WellFormed ∧ server.Reorders first second
      ∧ ∃ data, server.buildData .empty true first = .ok data
        ∧ server.buildData .empty true second = .ok data := by
  intro first second
  have hfirst : first.WellFormed := by
    simp [first, Document.wellFormed_cons, Document.wellFormed_nil, Value.wellFormed_table_iff,
      Value.WellFormed.string, Value.WellFormed.number]
  have hreorders : server.Reorders first second := by
    refine ⟨first.reverse, (List.reverse_perm first).symm, .cons (.inl rfl) (.cons ?_
      (.cons (.inl rfl) .nil))⟩
    exact .inr ⟨"edge", _, _, by decide, rfl, rfl, .swap _ _ _⟩
  obtain ⟨data, hdata⟩ : ∃ data, server.buildData .empty true first = .ok data :=
    isSome_toOption_iff.mp (by decide +kernel)
  have hsame : (server.buildData .empty true first).toOption
      = (server.buildData .empty true second).toOption :=
    toOption_buildData_of_reorders hreorders hfirst
  rw [toOption_eq_some_iff.mpr hdata, eq_comm, toOption_eq_some_iff] at hsame
  exact ⟨hfirst, hreorders, data, hdata, hsame⟩

/-- Which of two faults is reported does depend on the order. -/
example :
    server.buildData .empty true [("edge", .table [("path", .null), ("user", .null)])]
        = .error (.unknownSetting "path" (some "edge"))
      ∧ server.buildData .empty true [("edge", .table [("user", .null), ("path", .null)])]
        = .error (.unknownSetting "user" (some "edge")) := by
  constructor <;> rfl

end Schema

end LayeredConfig
