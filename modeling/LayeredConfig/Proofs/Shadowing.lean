/-
  LayeredConfig.Proofs.Shadowing

  What lies under the runtime layers is never looked at.

  Where these bind a setting to something other than a table, no file shows
  there.  Documents that only differ in what they bind that place to are laid
  over one another to such documents again (`DifferOnlyAt.overlay`), whether they
  bind it to tables or to other values, and under the runtime layers nothing is
  left of the difference (`toOption_resolve_of_shadowed`).
-/
import LayeredConfig.Proofs.Pinned
import LayeredConfig.Proofs.Strictness

namespace LayeredConfig

/-! ## Documents that differ at one place -/

namespace Document

/-- Two documents bind all keys but one to the same, and that one is bound in
    both or in neither. -/
structure SameBut (key : String) (first second : Document) : Prop where
  others : ∀ k, k ≠ key → first.find? k = second.find? k
  binds : first.binds key = second.binds key

/-- The same, or two tables that are the same but for what one key is bound to. -/
def SectionsSameBut (key : String) (first second : Option Value) : Prop :=
  first = second ∨ ∃ lower upper, first = some (.table lower) ∧ second = some (.table upper)
    ∧ SameBut key lower upper

/-- Two documents only differ in what they bind a place to, and both bind it or
    neither does.  Their keys may stand in different orders. -/
def DifferOnlyAt : (address : Address) → (first second : Document) → Prop
  | ⟨none, key⟩, first, second => SameBut key first second
  | ⟨some name, key⟩, first, second => (∀ k, k ≠ name → first.find? k = second.find? k)
    ∧ SectionsSameBut key (first.find? name) (second.find? name)

variable {key : String} {address : Address}

theorem SameBut.refl (key : String) (doc : Document) : SameBut key doc doc :=
  ⟨fun _ _ => rfl, rfl⟩

theorem SameBut.symm {first second : Document} (h : SameBut key first second) :
    SameBut key second first :=
  ⟨fun k hk => (h.others k hk).symm, h.binds.symm⟩

theorem SectionsSameBut.symm {first second : Option Value} (h : SectionsSameBut key first second) :
    SectionsSameBut key second first := by
  rcases h with heq | ⟨lower, upper, hlower, hupper, hsame⟩
  · exact Or.inl heq.symm
  · exact Or.inr ⟨upper, lower, hupper, hlower, hsame.symm⟩

theorem DifferOnlyAt.refl (address : Address) (doc : Document) : DifferOnlyAt address doc doc := by
  obtain ⟨_ | name, key⟩ := address
  · exact SameBut.refl key doc
  · exact ⟨fun _ _ => rfl, Or.inl rfl⟩

theorem DifferOnlyAt.symm {first second : Document} (h : DifferOnlyAt address first second) :
    DifferOnlyAt address second first := by
  obtain ⟨_ | name, key⟩ := address
  · exact SameBut.symm h
  · exact ⟨fun k hk => (h.1 k hk).symm, h.2.symm⟩

/-! ## Laying such documents over one another -/

theorem SectionsSameBut.exists_table {lower : Document} {second : Option Value}
    (h : SectionsSameBut key (some (.table lower)) second) :
    ∃ upper, second = some (.table upper) ∧ SameBut key lower upper := by
  rcases h with rfl | ⟨entries, upper, hentries, rfl, hsame⟩
  · exact ⟨lower, rfl, .refl key lower⟩
  · obtain rfl := Value.table.inj (Option.some.inj hentries)
    exact ⟨upper, rfl, hsame⟩

theorem SectionsSameBut.eq_of_not_table {first second : Option Value}
    (h : SectionsSameBut key first second) (hfirst : ∀ entries, first ≠ some (.table entries)) :
    first = second := by
  rcases h with heq | ⟨lower, _, hlower, -⟩
  · exact heq
  · exact absurd hlower (hfirst lower)

theorem SameBut.overlay {lower lower' upper upper' : Document} (hlower : lower.Distinct)
    (hlower' : lower'.Distinct) (hupper : upper.Distinct) (hupper' : upper'.Distinct)
    (hbelow : SameBut key lower lower') (habove : SameBut key upper upper') :
    SameBut key (overlay lower upper) (overlay lower' upper') := by
  refine ⟨fun k hk => ?_, ?_⟩
  · rw [find?_overlay hlower hupper, find?_overlay hlower' hupper', hbelow.others k hk,
      habove.others k hk]
  · rw [binds_overlay hlower hupper, binds_overlay hlower' hupper', hbelow.binds, habove.binds]

/-- Only a table over a table shows both, and all else shows one of the two. -/
theorem SectionsSameBut.stack {lower lower' upper upper' : Document} (hlower : lower.WellFormed)
    (hlower' : lower'.WellFormed) (hupper : upper.WellFormed) (hupper' : upper'.WellFormed)
    {name : String} (hbelow : SectionsSameBut key (lower.find? name) (lower'.find? name))
    (habove : SectionsSameBut key (upper.find? name) (upper'.find? name)) :
    SectionsSameBut key (Value.stack (lower.find? name) (upper.find? name))
      (Value.stack (lower'.find? name) (upper'.find? name)) := by
  -- a value above decides alone, and what is below a table counts if it is one as well
  rcases Value.isTable_or (upper.find? name) with ⟨above, hup⟩ | hup
  · rw [hup] at habove ⊢
    obtain ⟨above', hup', hsame⟩ := habove.exists_table
    rw [hup']
    rcases Value.isTable_or (lower.find? name) with ⟨below, hlow⟩ | hlow
    · rw [hlow] at hbelow ⊢
      obtain ⟨below', hlow', hsame'⟩ := hbelow.exists_table
      rw [hlow', Value.stack_table_table, Value.stack_table_table]
      exact Or.inr ⟨_, _, rfl, rfl, hsame'.overlay (hlower.distinct_of_find? hlow)
        (hlower'.distinct_of_find? hlow') (hupper.distinct_of_find? hup)
        (hupper'.distinct_of_find? hup') hsame⟩
    · rw [← hbelow.eq_of_not_table hlow, Value.stack_of_below hlow, Value.stack_of_below hlow]
      exact Or.inr ⟨above, above', rfl, rfl, hsame⟩
  · rw [← habove.eq_of_not_table hup]
    cases hv : upper.find? name with
    | none => exact hbelow
    | some v =>
      rw [hv] at hup
      have hflat := Value.isTable_eq_false hup
      rw [Value.stack_of_not_table hflat, Value.stack_of_not_table hflat]
      exact Or.inl rfl

theorem DifferOnlyAt.overlay {lower lower' upper upper' : Document} (hlower : lower.WellFormed)
    (hlower' : lower'.WellFormed) (hupper : upper.WellFormed) (hupper' : upper'.WellFormed)
    (hbelow : DifferOnlyAt address lower lower') (habove : DifferOnlyAt address upper upper') :
    DifferOnlyAt address (overlay lower upper) (overlay lower' upper') := by
  obtain ⟨_ | name, key⟩ := address
  · exact SameBut.overlay hlower.distinct hlower'.distinct hupper.distinct hupper'.distinct hbelow
      habove
  · refine ⟨fun k hk => ?_, ?_⟩
    all_goals
      rw [find?_overlay hlower.distinct hupper.distinct,
        find?_overlay hlower'.distinct hupper'.distinct]
    · rw [hbelow.1 k hk, habove.1 k hk]
    · exact hbelow.2.stack hlower hlower' hupper hupper' habove.2

theorem DifferOnlyAt.foldl_overlay {merged merged' : Document} (hmerged : merged.WellFormed)
    (hmerged' : merged'.WellFormed) (hdiffer : DifferOnlyAt address merged merged')
    {docs others : List Document} (h : List.Forall₂ (DifferOnlyAt address) docs others)
    (hdocs : ∀ doc ∈ docs, doc.WellFormed) (hothers : ∀ doc ∈ others, doc.WellFormed) :
    DifferOnlyAt address (docs.foldl Document.overlay merged)
      (others.foldl Document.overlay merged') := by
  -- on the layers, with the two documents that they are laid over left open
  induction h generalizing merged merged' with
  | nil => exact hdiffer
  | cons hdoc _ ih =>
    obtain ⟨hfirst, hdocs⟩ := List.forall_mem_cons.mp hdocs
    obtain ⟨hsecond, hothers⟩ := List.forall_mem_cons.mp hothers
    exact ih (hmerged.overlay hfirst) (hmerged'.overlay hsecond)
      (hdiffer.overlay hmerged hmerged' hfirst hsecond hdoc) hdocs hothers

end Document

/-! ## Files -/

/-- Two files are read as documents that only differ in what they bind a place
    to, or neither of them is a document. -/
def ConfigFile.DifferOnlyAt (address : Address) (file other : ConfigFile) : Prop :=
  Option.Rel (Document.DifferOnlyAt address) file.document.toOption other.document.toOption

namespace ConfigFile

variable {address : Address}

theorem DifferOnlyAt.symm {file other : ConfigFile} (h : DifferOnlyAt address file other) :
    DifferOnlyAt address other file := by
  rw [DifferOnlyAt] at h ⊢
  generalize file.document.toOption = doc, other.document.toOption = doc' at h ⊢
  cases h with
  | some hdoc => exact .some hdoc.symm
  | none => exact .none

theorem DifferOnlyAt.exists_document {file other : ConfigFile} {doc : Document}
    (h : DifferOnlyAt address file other) (hdoc : file.document = .ok doc) :
    ∃ doc', other.document = .ok doc' ∧ Document.DifferOnlyAt address doc doc' := by
  rw [DifferOnlyAt, toOption_eq_some_iff.mpr hdoc] at h
  cases hother : other.document with
  | error e => rw [hother] at h; cases h
  | ok doc' =>
    rw [hother] at h
    cases h with
    | some hdiffer => exact ⟨doc', rfl, hdiffer⟩

theorem exists_documents {files others : List ConfigFile} {docs : List Document}
    (h : List.Forall₂ (DifferOnlyAt address) files others)
    (hdocs : files.mapM ConfigFile.document = .ok docs) :
    ∃ docs', others.mapM ConfigFile.document = .ok docs'
      ∧ List.Forall₂ (Document.DifferOnlyAt address) docs docs' := by
  induction h generalizing docs with
  | nil =>
    obtain rfl : [] = docs := Except.ok.inj hdocs
    exact ⟨[], rfl, .nil⟩
  | cons hfile _ ih =>
    rw [List.mapM_cons, bind_eq_ok_iff] at hdocs
    obtain ⟨doc, hdoc, hdocs⟩ := hdocs
    obtain ⟨rest, hrest, heq⟩ := bind_eq_ok_iff.mp hdocs
    obtain rfl : doc :: rest = docs := Except.ok.inj heq
    obtain ⟨doc', hdoc', hdiffer⟩ := hfile.exists_document hdoc
    obtain ⟨rest', hrest', hdiffers⟩ := ih hrest
    refine ⟨doc' :: rest', ?_, .cons hdiffer hdiffers⟩
    rw [List.mapM_cons, hdoc', hrest']
    rfl

end ConfigFile

namespace Schema

variable {environment : Environment} {schema : Schema} {strict : Bool} {address : Address}

/-! ## What a schema sees of the difference -/

/-- A key that is no setting is bound to the same, or to sections that differ in
    what a setting is bound to. -/
theorem sectionsSameBut_of_differOnlyAt {first second : Document}
    (h : Document.DifferOnlyAt address first second) (hkey : schema.declares address.key = true)
    {name : String} (hname : schema.declares name = false) :
    Document.SectionsSameBut address.key (first.find? name) (second.find? name) := by
  obtain ⟨_ | sectionName, key⟩ := address
  · exact Or.inl (h.others name (ne_of_declares hkey hname).symm)
  · by_cases heq : name = sectionName
    · exact heq ▸ h.2
    · exact Or.inl (h.1 name heq)

/-- Whether a file is admitted does not depend on what its settings are bound
    to. -/
theorem Admits.of_differOnlyAt {doc other : Document} (h : schema.Admits strict doc)
    (hdoc : doc.WellFormed) (hother : other.WellFormed)
    (hdiffer : Document.DifferOnlyAt address doc other)
    (hkey : schema.declares address.key = true) : schema.Admits strict other := by
  have hsections : ∀ name, schema.declares name = false →
      Document.SectionsSameBut address.key (other.find? name) (doc.find? name) :=
    fun _ hname => sectionsSameBut_of_differOnlyAt hdiffer.symm hkey hname
  refine ⟨(fits_iff hother.distinct).mpr fun name v hfind => ?_, fun hstrict => ?_⟩
  · cases hname : schema.declares name with
    | true => exact Or.inl rfl
    | false =>
      rcases hsections name hname with heq | ⟨upper, -, hupper, -⟩
      · rw [← hname]
        exact (fits_iff hdoc.distinct).mp h.fits name v (heq ▸ hfind)
      · obtain rfl := Option.some.inj (hupper.symm.trans hfind)
        exact Or.inr rfl
  · subst hstrict
    refine (knowsSections_iff hother.distinct).mp fun _ name entries hname hfind key hmem => ?_
    have hknows := (knowsSections_iff hdoc.distinct).mpr (h.known rfl) rfl name
    have hsection := hsections name hname
    rw [hfind] at hsection
    obtain ⟨lower, hlower, hsame⟩ := hsection.exists_table
    by_cases heq : key = address.key
    · exact heq ▸ hkey
    · refine hknows lower hname hlower key ?_
      rw [← Document.isSome_find?_iff, ← hsame.others key heq]
      exact Document.isSome_find?_iff.mpr hmem

theorem forall_admits_of_differOnlyAt {docs others : List Document}
    (h : List.Forall₂ (Document.DifferOnlyAt address) docs others)
    (hdocs : ∀ doc ∈ docs, doc.WellFormed) (hothers : ∀ doc ∈ others, doc.WellFormed)
    (hkey : schema.declares address.key = true) (hadmits : ∀ doc ∈ docs, schema.Admits strict doc) :
    ∀ doc ∈ others, schema.Admits strict doc := by
  induction h with
  | nil => exact fun doc hdoc => absurd hdoc List.not_mem_nil
  | cons hdiffer _ ih =>
    rw [List.forall_mem_cons] at hdocs hothers hadmits ⊢
    exact ⟨hadmits.1.of_differOnlyAt hdocs.1 hothers.1 hdiffer hkey,
      ih hdocs.2 hothers.2 hadmits.2⟩

/-- Two documents that differ at one place agree if they bind that to the same as
    well. -/
theorem agree_of_differOnlyAt {first second : Document}
    (h : Document.DifferOnlyAt address first second)
    (hname : ∀ name ∈ address.sectionName, schema.declares name = false)
    (hkey : schema.declares address.key = true)
    (hvalue : first.valueAt address = second.valueAt address) :
    schema.Agree strict first second := by
  obtain ⟨_ | sectionName, key⟩ := address
  · refine ⟨fun k _ => ?_, fun name hundeclared =>
      Or.inl (h.others name (ne_of_declares hkey hundeclared).symm)⟩
    by_cases hk : k = key
    · exact hk ▸ hvalue
    · exact h.others k hk
  · refine ⟨fun k hk => h.1 k (ne_of_declares hk (hname sectionName rfl)), fun name _ => ?_⟩
    by_cases heq : name = sectionName
    · subst heq
      rcases h.2 with hsame | ⟨lower, upper, hlower, hupper, hsame⟩
      · exact Or.inl hsame
      · refine Or.inr ⟨lower, upper, hlower, hupper, fun k _ => ?_, fun _ k hk => ?_⟩
        · by_cases hkeys : k = key
          · have hplaces : (first.tableAt name).find? key = (second.tableAt name).find? key :=
              hvalue
            rw [Document.tableAt_of_find? hlower, Document.tableAt_of_find? hupper] at hplaces
            exact hkeys ▸ hplaces
          · exact hsame.others k hkeys
        · -- the place is a setting, so a key that is none is another one
          have hkeys : k ≠ key := (ne_of_declares hkey hk).symm
          rw [Document.binds, Document.binds, hsame.others k hkeys]
    · exact Or.inl (h.1 name heq)

/-! ## Resolution -/

theorem resolve_eq_ok_of_shadowed {layers : RuntimeLayers} (hoverrides : layers.WellFormed)
    (hname : ∀ name ∈ address.sectionName, schema.declares name = false)
    (hkey : schema.declares address.key = true) {v : Value}
    (hv : layers.document.valueAt address = some v) (htable : v.isTable = false)
    {files others : List ConfigFile}
    (h : List.Forall₂ (ConfigFile.DifferOnlyAt address) files others) {data : ConfigData}
    (hdata : schema.resolve environment strict files layers = .ok data) :
    schema.resolve environment strict others layers = .ok data := by
  obtain ⟨docs, hdocs, hadmits, hbuild⟩ := resolve_eq_ok_iff.mp hdata
  obtain ⟨docs', hdocs', hdiffer⟩ := ConfigFile.exists_documents h hdocs
  have hfiles := ConfigFile.wellFormed_of_mapM hdocs
  have hfiles' := ConfigFile.wellFormed_of_mapM hdocs'
  have hmerged := Document.wellFormed_ofLayers hfiles
  have hmerged' := Document.wellFormed_ofLayers hfiles'
  have hlayers := hoverrides.document
  -- under the layers both bind the place to what these say
  have hvalue : ∀ merged : Document, merged.WellFormed →
      (Document.overlay merged layers.document).valueAt address = some v := by
    intro merged hmerged
    rw [Document.valueAt_overlay hmerged hlayers (Document.keepsSection_of_valueAt hv), hv,
      Value.stack_of_not_table htable]
  have hbelow : Document.DifferOnlyAt address (Document.ofLayers docs) (Document.ofLayers docs') :=
    (Document.DifferOnlyAt.refl address []).foldl_overlay Document.wellFormed_nil
      Document.wellFormed_nil hdiffer hfiles hfiles'
  have hall := hbelow.overlay hmerged hmerged' hlayers hlayers (.refl address layers.document)
  have hagree : schema.Agree strict _ _ := agree_of_differOnlyAt hall hname hkey
    ((hvalue _ hmerged).trans (hvalue _ hmerged').symm)
  exact resolve_eq_ok_iff.mpr ⟨docs', hdocs',
    forall_admits_of_differOnlyAt hdiffer hfiles hfiles' hkey hadmits,
    hagree.buildData_eq_ok (hmerged.overlay hlayers) (hmerged'.overlay hlayers) hbuild⟩

/-- A shadowed value is never looked at: where the runtime layers bind a setting
    to something other than a table, files that only differ in what they bind it
    to resolve to the same data, or both lists fail. -/
theorem toOption_resolve_of_shadowed {layers : RuntimeLayers} (hoverrides : layers.WellFormed)
    (hname : ∀ name ∈ address.sectionName, schema.declares name = false)
    (hkey : schema.declares address.key = true) {v : Value}
    (hv : layers.document.valueAt address = some v) (htable : v.isTable = false)
    {files others : List ConfigFile}
    (h : List.Forall₂ (ConfigFile.DifferOnlyAt address) files others) :
    (schema.resolve environment strict files layers).toOption
      = (schema.resolve environment strict others layers).toOption := by
  have hsymm : List.Forall₂ (ConfigFile.DifferOnlyAt address) others files :=
    (h.imp fun _ _ hfile => hfile.symm).flip
  exact toOption_eq_of_imp
    (fun _ hdata => resolve_eq_ok_of_shadowed hoverrides hname hkey hv htable h hdata)
    (fun _ hdata => resolve_eq_ok_of_shadowed hoverrides hname hkey hv htable hsymm hdata)

/-- A port that a file sets to a number or to a table, with a variable of the
    environment over it. -/
theorem toOption_resolve_of_shadowed_server :
    let files : List ConfigFile := [⟨"a.toml", "[edge]\nport = 8080\nhost = \"a\"\n"⟩]
    let others : List ConfigFile := [⟨"a.toml", "[edge]\nport = { low = 1 }\nhost = \"a\"\n"⟩]
    let layers : RuntimeLayers := ⟨some "APP", [("APP__EDGE__PORT", "81")], []⟩
    layers.WellFormed
      ∧ layers.document.valueAt ⟨some "edge", "port"⟩ = some (.string "81")
      ∧ List.Forall₂ (ConfigFile.DifferOnlyAt ⟨some "edge", "port"⟩) files others
      ∧ ∃ data, server.resolve .empty true files layers = .ok data
        ∧ server.resolve .empty true others layers = .ok data := by
  intro files others layers
  have hoverrides : layers.WellFormed := by
    intro o ho
    exact absurd ho List.not_mem_nil
  have hv : layers.document.valueAt ⟨some "edge", "port"⟩ = some (.string "81") := rfl
  have hfiles : List.Forall₂ (ConfigFile.DifferOnlyAt ⟨some "edge", "port"⟩) files others := by
    have hnumber : ConfigFile.document ⟨"a.toml", "[edge]\nport = 8080\nhost = \"a\"\n"⟩
        = .ok [("edge", .table [("port", .int 8080), ("host", .string "a")])] :=
      toOption_eq_some_iff.mp (by decide +kernel)
    have htable : ConfigFile.document ⟨"a.toml", "[edge]\nport = { low = 1 }\nhost = \"a\"\n"⟩
        = .ok [("edge", .table [("port", .table [("low", .int 1)]), ("host", .string "a")])] :=
      toOption_eq_some_iff.mp (by decide +kernel)
    refine .cons ?_ .nil
    rw [ConfigFile.DifferOnlyAt, hnumber, htable]
    -- the sections differ at one key, and in them the tables do
    refine .some ⟨fun k hk => ?_, .inr ⟨_, _, rfl, rfl, fun k hk => ?_, rfl⟩⟩
    · simp [Document.find?, Ne.symm hk]
    · simp [Document.find?, Ne.symm hk]
  obtain ⟨data, hdata⟩ : ∃ data, server.resolve .empty true files layers = .ok data :=
    isSome_toOption_iff.mp (by decide +kernel)
  have hsame : (server.resolve .empty true files layers).toOption
      = (server.resolve .empty true others layers).toOption :=
    toOption_resolve_of_shadowed hoverrides (by rintro name ⟨⟩; decide) (by decide) hv rfl hfiles
  rw [toOption_eq_some_iff.mpr hdata, eq_comm, toOption_eq_some_iff] at hsame
  exact ⟨hoverrides, hv, hfiles, data, hdata, hsame⟩

end Schema

end LayeredConfig
