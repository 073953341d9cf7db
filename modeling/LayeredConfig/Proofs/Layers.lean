/-
  LayeredConfig.Proofs.Layers

  The documents that a resolution lays over one another.

  Reading and checking the files comes to three things: every text is a TOML
  document, every document is admitted by the schema on its own, and the
  documents are laid over one another in their order (`mergeFiles_eq_ok_iff`).
  Every document that takes part has different keys, and no table inside of it
  has a key twice where that holds of the values of the overrides.
-/
import LayeredConfig.Proofs.Document.WellFormed
import LayeredConfig.Proofs.Sections
import LayeredConfig.Proofs.Toml.WellFormed

namespace LayeredConfig

/-! ## Layers in their order -/

namespace Document

/-- Documents laid over one another, the last on top. -/
def ofLayers (docs : List Document) : Document :=
  docs.foldl overlay []

theorem ofLayers_singleton {doc : Document} (h : doc.Distinct) : ofLayers [doc] = doc :=
  nil_overlay h

theorem Distinct.foldl_overlay {merged : Document} (h : merged.Distinct)
    (docs : List Document) : (docs.foldl Document.overlay merged).Distinct := by
  induction docs generalizing merged with
  | nil => exact h
  | cons doc docs ih => exact ih (h.overlay doc)

theorem distinct_ofLayers (docs : List Document) : (ofLayers docs).Distinct :=
  Distinct.foldl_overlay distinct_nil docs

theorem WellFormed.foldl_overlay {merged : Document} (h : merged.WellFormed)
    {docs : List Document} (hdocs : ∀ doc ∈ docs, doc.WellFormed) :
    (docs.foldl Document.overlay merged).WellFormed := by
  induction docs generalizing merged with
  | nil => exact h
  | cons doc docs ih =>
    obtain ⟨hdoc, hrest⟩ := List.forall_mem_cons.mp hdocs
    exact ih (h.overlay hdoc) hrest

theorem wellFormed_ofLayers {docs : List Document} (h : ∀ doc ∈ docs, doc.WellFormed) :
    (ofLayers docs).WellFormed :=
  wellFormed_nil.foldl_overlay h

theorem binds_foldl_overlay {merged : Document} (hmerged : merged.Distinct)
    {layers : List Document} (hlayers : ∀ doc ∈ layers, doc.Distinct) (key : String) :
    (layers.foldl Document.overlay merged).binds key = true ↔
      merged.binds key = true ∨ ∃ doc ∈ layers, doc.binds key = true := by
  induction layers generalizing merged with
  | nil => simp
  | cons doc layers ih =>
    obtain ⟨hdoc, hlayers⟩ := List.forall_mem_cons.mp hlayers
    rw [List.foldl_cons, ih (hmerged.overlay doc) hlayers, binds_overlay hmerged hdoc,
      Bool.or_eq_true, List.exists_mem_cons_iff, or_assoc]

/-- A key is bound where some layer binds it. -/
theorem binds_ofLayers {docs : List Document} (h : ∀ doc ∈ docs, doc.Distinct) (key : String) :
    (ofLayers docs).binds key = true ↔ ∃ doc ∈ docs, doc.binds key = true := by
  have hempty : binds [] key = false := rfl
  rw [ofLayers, binds_foldl_overlay distinct_nil h, hempty]
  simp

end Document

/-! ## Files -/

/-- The path of a file does not count for its document. -/
theorem ConfigFile.document_eq_ok_iff {file : ConfigFile} {doc : Document} :
    file.document = .ok doc ↔ Toml.ofString file.content = some doc := by
  rw [ConfigFile.document]
  cases Toml.ofString file.content <;> simp

theorem ConfigFile.wellFormed_of_document {file : ConfigFile} {doc : Document}
    (h : file.document = .ok doc) : doc.WellFormed :=
  Toml.wellFormed_of_ofString (ConfigFile.document_eq_ok_iff.mp h)

/-- The documents of files are those of the single files. -/
theorem ConfigFile.mem_iff_of_mapM {files : List ConfigFile} {docs : List Document}
    (h : files.mapM ConfigFile.document = .ok docs) {doc : Document} :
    doc ∈ docs ↔ ∃ file ∈ files, file.document = .ok doc := by
  induction files generalizing docs with
  | nil =>
    obtain rfl : [] = docs := Except.ok.inj h
    simp
  | cons file files ih =>
    rw [List.mapM_cons, bind_eq_ok_iff] at h
    obtain ⟨first, hfirst, h⟩ := h
    obtain ⟨rest, hrest, heq⟩ := bind_eq_ok_iff.mp h
    obtain rfl : first :: rest = docs := Except.ok.inj heq
    rw [List.mem_cons, ih hrest, List.exists_mem_cons_iff, hfirst, Except.ok.injEq, eq_comm]

theorem ConfigFile.wellFormed_of_mapM {files : List ConfigFile} {docs : List Document}
    (h : files.mapM ConfigFile.document = .ok docs) : ∀ doc ∈ docs, doc.WellFormed := by
  intro doc hdoc
  obtain ⟨file, -, hdocument⟩ := (mem_iff_of_mapM h).mp hdoc
  exact wellFormed_of_document hdocument

namespace Schema

variable {environment : Environment} {schema : Schema} {strict : Bool}

/-- What is asked of the document of a file: keys at its top that are no
    settings are bound to tables, and in strict mode these only have keys that
    are settings. -/
structure Admits (schema : Schema) (strict : Bool) (doc : Document) : Prop where
  fits : schema.Fits doc
  known : strict = true → schema.unknownKeys doc = []

theorem checkTopLevel_eq_ok_iff {doc : Document} :
    schema.checkTopLevel doc = .ok () ↔ schema.Fits doc := by
  rw [checkTopLevel]
  split
  · rename_i key v hfind
    have hfound := List.find?_some hfind
    simp only [Bool.and_eq_true, Bool.not_eq_true'] at hfound
    constructor
    · intro h
      exact absurd h (by simp)
    · intro h
      have hshape := h _ (List.mem_of_find?_eq_some hfind)
      simp [hfound] at hshape
  · rename_i hfind
    rw [List.find?_eq_none] at hfind
    refine iff_of_true rfl fun e he => ?_
    have hkept := hfind e he
    by_cases hkey : schema.declares e.1 = true
    · exact Or.inl hkey
    · exact Or.inr (by simpa [hkey] using hkept)

theorem checkKeys_eq_ok_iff {doc : Document} {content path : String} :
    schema.checkKeys doc content path = .ok () ↔ schema.unknownKeys doc = [] := by
  rw [checkKeys]
  cases schema.unknownKeys doc <;> simp

theorem checkedDocument_eq_ok_iff {file : ConfigFile} {doc : Document} :
    schema.checkedDocument strict file = .ok doc ↔
      file.document = .ok doc ∧ schema.Admits strict doc := by
  rw [checkedDocument, bind_eq_ok_iff]
  -- the checks only let the document through as it was read
  have hchecked : ∀ read : Document,
      (do schema.checkTopLevel read
          if strict then schema.checkKeys read file.content file.path
          return read) = Except.ok doc ↔ read = doc ∧ schema.Admits strict read := by
    intro read
    rw [bind_eq_ok_iff]
    constructor
    · rintro ⟨⟨⟩, htop, h⟩
      cases strict with
      | false =>
        exact ⟨Except.ok.inj h, checkTopLevel_eq_ok_iff.mp htop, by simp⟩
      | true =>
        obtain ⟨⟨⟩, hkeys, heq⟩ := bind_eq_ok_iff.mp h
        exact ⟨Except.ok.inj heq, checkTopLevel_eq_ok_iff.mp htop,
          fun _ => checkKeys_eq_ok_iff.mp hkeys⟩
    · rintro ⟨rfl, hfits, hknown⟩
      refine ⟨(), checkTopLevel_eq_ok_iff.mpr hfits, ?_⟩
      cases strict with
      | false => rfl
      | true => exact bind_eq_ok_iff.mpr ⟨(), checkKeys_eq_ok_iff.mpr (hknown rfl), rfl⟩
  constructor
  · rintro ⟨read, hread, h⟩
    obtain ⟨rfl, hadmits⟩ := (hchecked read).mp h
    exact ⟨hread, hadmits⟩
  · rintro ⟨hread, hadmits⟩
    exact ⟨doc, hread, (hchecked doc).mpr ⟨rfl, hadmits⟩⟩

theorem mergeOnto_eq_ok_iff {merged result : Document} {files : List ConfigFile} :
    schema.mergeOnto strict merged files = .ok result ↔
      ∃ docs, files.mapM ConfigFile.document = .ok docs
        ∧ (∀ doc ∈ docs, schema.Admits strict doc)
        ∧ result = docs.foldl Document.overlay merged := by
  -- on the files, with what they are laid over left open
  induction files generalizing merged with
  | nil =>
    constructor
    · intro h
      exact ⟨[], rfl, by simp, (Except.ok.inj h).symm⟩
    · rintro ⟨docs, hdocs, -, rfl⟩
      obtain rfl : [] = docs := Except.ok.inj hdocs
      rfl
  | cons file files ih =>
    rw [mergeOnto, bind_eq_ok_iff]
    simp only [ih, checkedDocument_eq_ok_iff, List.mapM_cons, bind_eq_ok_iff]
    constructor
    · rintro ⟨doc, ⟨hdoc, hadmits⟩, docs, hdocs, hrest, rfl⟩
      exact ⟨doc :: docs, ⟨doc, hdoc, docs, hdocs, rfl⟩,
        List.forall_mem_cons.mpr ⟨hadmits, hrest⟩, rfl⟩
    · rintro ⟨_, ⟨doc, hdoc, docs, hdocs, heq⟩, hadmits, rfl⟩
      obtain rfl := Except.ok.inj heq
      obtain ⟨hhead, hrest⟩ := List.forall_mem_cons.mp hadmits
      exact ⟨doc, ⟨hdoc, hhead⟩, docs, hdocs, hrest, rfl⟩

/-- Files merge if every one of them is a document that the schema admits. -/
theorem mergeFiles_eq_ok_iff {files : List ConfigFile} {merged : Document} :
    schema.mergeFiles strict files = .ok merged ↔
      ∃ docs, files.mapM ConfigFile.document = .ok docs
        ∧ (∀ doc ∈ docs, schema.Admits strict doc)
        ∧ merged = Document.ofLayers docs :=
  mergeOnto_eq_ok_iff

theorem mergeFiles_singleton_eq_ok_iff {file : ConfigFile} {doc : Document} :
    schema.mergeFiles strict [file] = .ok doc ↔
      file.document = .ok doc ∧ schema.Admits strict doc := by
  rw [mergeFiles_eq_ok_iff]
  constructor
  · rintro ⟨docs, hdocs, hadmits, rfl⟩
    rw [List.mapM_cons, bind_eq_ok_iff] at hdocs
    obtain ⟨doc, hdoc, heq⟩ := hdocs
    obtain rfl : [doc] = docs := Except.ok.inj heq
    rw [Document.ofLayers_singleton (ConfigFile.wellFormed_of_document hdoc).distinct]
    exact ⟨hdoc, hadmits doc List.mem_cons_self⟩
  · rintro ⟨hdoc, hadmits⟩
    refine ⟨[doc], ?_, by simpa using hadmits, ?_⟩
    · rw [List.mapM_cons, hdoc]
      rfl
    · exact (Document.ofLayers_singleton (ConfigFile.wellFormed_of_document hdoc).distinct).symm

theorem resolve_eq_ok_iff {files : List ConfigFile} {layers : RuntimeLayers}
    {data : ConfigData} :
    schema.resolve environment strict files layers = .ok data ↔
      ∃ docs, files.mapM ConfigFile.document = .ok docs
        ∧ (∀ doc ∈ docs, schema.Admits strict doc)
        ∧ schema.buildData environment strict
            (Document.overlay (Document.ofLayers docs) layers.document) = .ok data := by
  rw [resolve, bind_eq_ok_iff]
  constructor
  · rintro ⟨merged, hmerged, h⟩
    obtain ⟨docs, hdocs, hadmits, rfl⟩ := mergeFiles_eq_ok_iff.mp hmerged
    exact ⟨docs, hdocs, hadmits, h⟩
  · rintro ⟨docs, hdocs, hadmits, h⟩
    exact ⟨_, mergeFiles_eq_ok_iff.mpr ⟨docs, hdocs, hadmits, rfl⟩, h⟩

end Schema

/-! ## The layers above the files -/

namespace RuntimeLayers

/-- The layer of environment variables. -/
def variableDocument (layers : RuntimeLayers) : Document :=
  match layers.variableStart with
  | some start => Document.ofVariables start layers.processVariables
  | none => []

/-- The layer of overrides. -/
def overrideDocument (layers : RuntimeLayers) : Document :=
  Document.ofOverrides layers.overrides

/-- The values of the overrides are such as a reader makes: no table has a key
    twice. -/
def WellFormed (layers : RuntimeLayers) : Prop :=
  ∀ o ∈ layers.overrides, o.2.WellFormed

variable {layers : RuntimeLayers}

theorem document_eq : layers.document
    = Document.overlay layers.variableDocument layers.overrideDocument := rfl

theorem wellFormed_variableDocument : layers.variableDocument.WellFormed := by
  rw [variableDocument]
  split
  · exact Document.wellFormed_ofVariables _ _
  · exact Document.wellFormed_nil

theorem distinct_overrideDocument : layers.overrideDocument.Distinct :=
  Document.distinct_ofOverrides _

theorem distinct_document : layers.document.Distinct :=
  wellFormed_variableDocument.distinct.overlay _

theorem WellFormed.overrideDocument (h : layers.WellFormed) :
    layers.overrideDocument.WellFormed :=
  Document.wellFormed_ofOverrides h

theorem WellFormed.document (h : layers.WellFormed) : layers.document.WellFormed :=
  wellFormed_variableDocument.overlay h.overrideDocument

end RuntimeLayers

/-! ## A small server -/

/-- A port that has to be positive and a host name. -/
def Schema.server : Schema :=
  let isPositive (v : Value) : Bool := v.int64?.any fun port => 0 < port
  ⟨[⟨"port", .int, "Port to bind.", .int 80, [.ofPredicate "must be positive" isPositive]⟩,
    ⟨"host", .string, "Host name to bind.", .string "localhost", []⟩], by decide⟩

end LayeredConfig
