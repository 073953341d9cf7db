/-
  LayeredConfig.Proofs.Agreement

  When two merged documents make the same data.

  Of a document only some things count: what its settings are bound to, which
  other keys at its top are bound to tables, what the settings are bound to in
  these, and in strict mode whether there is another key in one of them.
  Documents that agree in these make the same data, or both make none
  (`toOption_buildData_congr`).
-/
import LayeredConfig.Proofs.Document.WellFormed
import LayeredConfig.Proofs.Sections

namespace LayeredConfig

namespace Schema

variable {environment : Environment} {schema : Schema} {strict : Bool}

/-! ## Sections -/

/-- Two documents bind the settings to the same, and in strict mode have the
    same other keys. -/
structure SectionsAgree (schema : Schema) (strict : Bool) (first second : Document) : Prop where
  settings : ∀ key, schema.declares key = true → first.find? key = second.find? key
  others : strict = true → ∀ key, schema.declares key = false →
    first.binds key = second.binds key

theorem SectionsAgree.symm {first second : Document}
    (h : schema.SectionsAgree strict first second) : schema.SectionsAgree strict second first :=
  ⟨fun key hkey => (h.settings key hkey).symm,
    fun hstrict key hkey => (h.others hstrict key hkey).symm⟩

theorem SectionsAgree.accepts {first second : Document}
    (h : schema.SectionsAgree strict first second)
    (haccepts : ∀ key v, first.find? key = some v → schema.Accepts environment strict key v)
    {key : String} {v : Value} (hfind : second.find? key = some v) :
    schema.Accepts environment strict key v := by
  by_cases hkey : schema.declares key = true
  · exact haccepts key v ((h.settings key hkey).trans hfind)
  · rw [Bool.not_eq_true] at hkey
    cases hstrict : strict with
    | false => exact Or.inl ⟨hkey, rfl⟩
    | true =>
      -- the other document has the unknown key as well, and fails
      have hbinds : first.binds key = true := by
        rw [h.others hstrict key hkey, Document.binds, hfind]
        rfl
      obtain ⟨w, hw⟩ := Option.isSome_iff_exists.mp hbinds
      rcases haccepts key w hw with ⟨-, hlenient⟩ | hvalid
      · exact absurd (hstrict.symm.trans hlenient) (by simp)
      · rw [validated?_eq_none environment hkey] at hvalid
        exact absurd hvalid (by simp)

theorem SectionsAgree.sectionData_eq_ok {first second : Document}
    (h : schema.SectionsAgree strict first second) (hfirst : first.Distinct)
    (hsecond : second.Distinct) {sectionName : Option String} {data : SectionData}
    (hdata : schema.sectionData environment strict sectionName first = .ok data) :
    schema.sectionData environment strict sectionName second = .ok data := by
  have haccepts := (isOk_sectionData_iff hfirst).mp ⟨data, hdata⟩
  have hok : ∃ other, schema.sectionData environment strict sectionName second = .ok other :=
    (isOk_sectionData_iff hsecond).mpr fun key v hfind => h.accepts haccepts hfind
  obtain ⟨other, hother⟩ := hok
  have hsame : other = data := by
    refine NameMap.ext fun name => ?_
    rw [find?_of_sectionData hfirst hdata, find?_of_sectionData hsecond hother]
    exact heldFor_congr fun hname => (h.settings name hname).symm
  rw [hother, hsame]

theorem toOption_sectionData_congr {first second : Document}
    (h : schema.SectionsAgree strict first second) (hfirst : first.Distinct)
    (hsecond : second.Distinct) (sectionName : Option String) :
    (schema.sectionData environment strict sectionName first).toOption
      = (schema.sectionData environment strict sectionName second).toOption :=
  toOption_eq_of_imp (fun _ hdata => h.sectionData_eq_ok hfirst hsecond hdata)
    (fun _ hdata => h.symm.sectionData_eq_ok hsecond hfirst hdata)

/-! ## Documents -/

/-- A section of a document in which no table has a key twice is such a document
    too. -/
theorem wellFormed_of_sectionOf {raw : Document} (h : raw.WellFormed) {name : String}
    {entries : Document} (hsection : schema.sectionOf raw name = some entries) :
    entries.WellFormed := by
  obtain ⟨v, hfind, hopened⟩ := Option.bind_eq_some_iff.mp hsection
  obtain ⟨-, rfl⟩ := opened?_eq_some_iff.mp hopened
  exact Value.wellFormed_table_iff.mp (h.of_find? hfind)

/-- Two documents bind the settings to the same, and the other keys to the same
    or to sections that agree. -/
structure Agree (schema : Schema) (strict : Bool) (first second : Document) : Prop where
  settings : ∀ key, schema.declares key = true → first.find? key = second.find? key
  sections : ∀ name, schema.declares name = false → first.find? name = second.find? name
    ∨ ∃ lower upper, first.find? name = some (.table lower)
        ∧ second.find? name = some (.table upper) ∧ schema.SectionsAgree strict lower upper

theorem Agree.symm {first second : Document} (h : schema.Agree strict first second) :
    schema.Agree strict second first := by
  refine ⟨fun key hkey => (h.settings key hkey).symm, fun name hname => ?_⟩
  rcases h.sections name hname with heq | ⟨lower, upper, hlower, hupper, hagree⟩
  · exact Or.inl heq.symm
  · exact Or.inr ⟨upper, lower, hupper, hlower, hagree.symm⟩

theorem Agree.fits {first second : Document} (h : schema.Agree strict first second)
    (hfits : ∀ key v, first.find? key = some v → schema.declares key = true ∨ v.isTable = true)
    {key : String} {v : Value} (hfind : second.find? key = some v) :
    schema.declares key = true ∨ v.isTable = true := by
  by_cases hkey : schema.declares key = true
  · exact Or.inl hkey
  · rw [Bool.not_eq_true] at hkey
    rcases h.sections key hkey with heq | ⟨lower, upper, -, hupper, -⟩
    · exact hfits key v (heq.trans hfind)
    · obtain rfl : v = .table upper := Option.some.inj (hfind.symm.trans hupper)
      exact Or.inr rfl

/-- The sections of a name both are not there, or they agree. -/
theorem Agree.sectionOf {first second : Document} (h : schema.Agree strict first second)
    (name : String) : schema.sectionOf first name = schema.sectionOf second name
      ∨ ∃ lower upper, schema.sectionOf first name = some lower
          ∧ schema.sectionOf second name = some upper
          ∧ schema.SectionsAgree strict lower upper := by
  by_cases hname : schema.declares name = true
  · left
    rw [sectionOf_eq_none hname, sectionOf_eq_none hname]
  · rw [Bool.not_eq_true] at hname
    rcases h.sections name hname with heq | ⟨lower, upper, hlower, hupper, hagree⟩
    · left
      rw [Schema.sectionOf, heq, Schema.sectionOf]
    · right
      refine ⟨lower, upper, ?_, ?_, hagree⟩
      · rw [Schema.sectionOf, hlower]
        exact opened?_eq_some_iff.mpr ⟨hname, rfl⟩
      · rw [Schema.sectionOf, hupper]
        exact opened?_eq_some_iff.mpr ⟨hname, rfl⟩

/-- The global sections only depend on what the settings are bound to. -/
theorem global_eq_of_buildData {first second : Document} (hfirst : first.Distinct)
    (hsecond : second.Distinct) {data other : ConfigData}
    (hdata : schema.buildData environment strict first = .ok data)
    (hother : schema.buildData environment strict second = .ok other)
    (h : ∀ key, schema.declares key = true → first.find? key = second.find? key) :
    data.global = other.global := by
  refine NameMap.ext fun name => ?_
  rw [find?_global_of_buildData hfirst hdata, find?_global_of_buildData hsecond hother]
  exact heldFor_congr fun hname => h name hname

theorem Agree.buildData_eq_ok {first second : Document} (h : schema.Agree strict first second)
    (hfirst : first.WellFormed) (hsecond : second.WellFormed) {data : ConfigData}
    (hdata : schema.buildData environment strict first = .ok data) :
    schema.buildData environment strict second = .ok data := by
  -- first that the other document makes data at all, then that they are the same
  obtain ⟨hfits, haccepts, hsections⟩ := (isOk_buildData_iff hfirst.distinct).mp ⟨data, hdata⟩
  have hok : ∃ other, schema.buildData environment strict second = .ok other := by
    refine (isOk_buildData_iff hsecond.distinct).mpr ⟨?_, ?_, ?_⟩
    · exact fun key v hfind => h.fits hfits hfind
    · exact fun key v hfind hkey => haccepts key v ((h.settings key hkey).trans hfind) hkey
    · intro name entries hentries
      rcases h.sectionOf name with heq | ⟨lower, upper, hlower, hupper, hagree⟩
      · exact hsections name entries (heq.trans hentries)
      · obtain rfl : entries = upper := Option.some.inj (hentries.symm.trans hupper)
        obtain ⟨settings, hsettings⟩ := hsections name lower hlower
        exact ⟨settings, hagree.sectionData_eq_ok (wellFormed_of_sectionOf hfirst hlower).distinct
          (wellFormed_of_sectionOf hsecond hupper).distinct hsettings⟩
  obtain ⟨other, hother⟩ := hok
  have hsame : data = other := by
    refine ConfigData.eq_of_find?_eq
      (global_eq_of_buildData hfirst.distinct hsecond.distinct hdata hother h.settings)
      fun name => ?_
    rw [find?_named_of_buildData hfirst.distinct hdata,
      find?_named_of_buildData hsecond.distinct hother]
    rcases h.sectionOf name with heq | ⟨lower, upper, hlower, hupper, hagree⟩
    · rw [heq]
    · rw [hlower, hupper, Option.bind_some, Option.bind_some]
      exact toOption_sectionData_congr hagree (wellFormed_of_sectionOf hfirst hlower).distinct
        (wellFormed_of_sectionOf hsecond hupper).distinct (some name)
  rw [hother, hsame]

/-- Documents that agree make the same data, or both make none. -/
theorem toOption_buildData_congr {first second : Document}
    (h : schema.Agree strict first second) (hfirst : first.WellFormed)
    (hsecond : second.WellFormed) :
    (schema.buildData environment strict first).toOption
      = (schema.buildData environment strict second).toOption :=
  toOption_eq_of_imp (fun _ hdata => h.buildData_eq_ok hfirst hsecond hdata)
    (fun _ hdata => h.symm.buildData_eq_ok hsecond hfirst hdata)

end Schema

end LayeredConfig
