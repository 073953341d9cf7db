/-
  LayeredConfig.Proofs.Precedence

  Which layer decides what a setting holds.

  A place that no layer binds to a table takes what the topmost layer that binds
  it says.  The invariant of the fold over the layers is the one equation
  `valueAt_overlay`: as long as the layer on top does not put something else in
  the place of a section, laying it over the others works place by place.
-/
import LayeredConfig.Proofs.Conformance
import LayeredConfig.Value.Equality

namespace LayeredConfig

/-! ## Places -/

namespace Document

/-- What a document binds a place to. -/
def valueAt (doc : Document) (address : Address) : Option Value :=
  match address.sectionName with
  | none => doc.find? address.key
  | some name => (doc.tableAt name).find? address.key

/-- What the topmost of some layers that binds a place binds it to. -/
def topmost (layers : List Document) (address : Address) : Option Value :=
  layers.reverse.findSome? fun doc => doc.valueAt address

theorem topmost_append (below above : List Document) (address : Address) :
    topmost (below ++ above) address = (topmost above address).or (topmost below address) := by
  rw [topmost, List.reverse_append, List.findSome?_append]
  rfl

theorem topmost_singleton (doc : Document) (address : Address) :
    topmost [doc] address = doc.valueAt address := by
  simp [topmost]

/-! ## Sections under other layers -/

/-- The top-level key of a place, if the place is in a named section, is not
    bound to anything but a table. -/
def KeepsSection (doc : Document) (address : Address) : Prop :=
  ∀ name ∈ address.sectionName, ∀ v ∈ doc.find? name, v.isTable = true

theorem tableAt_of_find? {doc : Document} {key : String} {entries : Document}
    (h : doc.find? key = some (.table entries)) : doc.tableAt key = entries := by
  simp [tableAt, h]

theorem tableAt_eq_nil {doc : Document} {key : String}
    (h : ∀ entries, doc.find? key ≠ some (.table entries)) : doc.tableAt key = [] := by
  rw [tableAt]
  split
  · rename_i entries hfind
    exact absurd hfind (h entries)
  · rfl

theorem tableAt_overlay {lower upper : Document} (hlower : lower.Distinct)
    (hupper : upper.WellFormed) {key : String} (h : ∀ v ∈ upper.find? key, v.isTable = true) :
    (overlay lower upper).tableAt key = overlay (lower.tableAt key) (upper.tableAt key) := by
  have hfind := find?_overlay hlower hupper.distinct key
  cases habove : upper.find? key with
  | none =>
    rw [habove, Value.stack_none] at hfind
    have hempty : upper.tableAt key = [] := tableAt_eq_nil (by simp [habove])
    rw [hempty, overlay_nil, tableAt, tableAt, hfind]
  | some v =>
    obtain ⟨entries, rfl⟩ := Value.isTable_iff.mp (h v habove)
    rw [habove] at hfind
    rw [tableAt_of_find? habove]
    rcases Value.isTable_or (lower.find? key) with ⟨below, hbelow⟩ | hbelow
    · rw [hbelow, Value.stack_table_table] at hfind
      rw [tableAt_of_find? hfind, tableAt_of_find? hbelow]
    · -- nothing of what lies below shows
      rw [Value.stack_of_below hbelow] at hfind
      rw [tableAt_of_find? hfind, tableAt_eq_nil hbelow,
        nil_overlay (hupper.distinct_of_find? habove)]

/-- A layer that keeps the section of a place is laid over others place by
    place. -/
theorem valueAt_overlay {lower upper : Document} (hlower : lower.WellFormed)
    (hupper : upper.WellFormed) {address : Address} (h : upper.KeepsSection address) :
    (overlay lower upper).valueAt address
      = Value.stack (lower.valueAt address) (upper.valueAt address) := by
  obtain ⟨sectionName, key⟩ := address
  cases sectionName with
  | none => exact find?_overlay hlower.distinct hupper.distinct key
  | some name =>
    show ((overlay lower upper).tableAt name).find? key = _
    rw [tableAt_overlay hlower.distinct hupper (h name rfl)]
    exact find?_overlay (hlower.tableAt name).distinct (hupper.tableAt name).distinct key

/-- What no layer binds to a table goes to the layer on top. -/
theorem valueAt_overlay_of_not_table {lower upper : Document} (hlower : lower.WellFormed)
    (hupper : upper.WellFormed) {address : Address} (h : upper.KeepsSection address)
    (hv : ∀ v ∈ upper.valueAt address, v.isTable = false) :
    (overlay lower upper).valueAt address
      = (upper.valueAt address).or (lower.valueAt address) := by
  rw [valueAt_overlay hlower hupper h]
  cases habove : upper.valueAt address with
  | none => rfl
  | some v =>
    rw [Value.stack_of_not_table (hv v habove)]
    rfl

/-- The layers on top of a document come first, the last of them before all. -/
theorem valueAt_foldl_overlay {merged : Document} (hmerged : merged.WellFormed)
    {layers : List Document} (hlayers : ∀ doc ∈ layers, doc.WellFormed) {address : Address}
    (hkeeps : ∀ doc ∈ layers, doc.KeepsSection address)
    (hv : ∀ doc ∈ layers, ∀ v ∈ doc.valueAt address, v.isTable = false) :
    (layers.foldl Document.overlay merged).valueAt address
      = (topmost layers address).or (merged.valueAt address) := by
  -- on the layers: the next one becomes part of what the others are laid over
  induction layers generalizing merged with
  | nil => rfl
  | cons doc layers ih =>
    obtain ⟨hdoc, hlayers⟩ := List.forall_mem_cons.mp hlayers
    obtain ⟨hkeep, hkeeps⟩ := List.forall_mem_cons.mp hkeeps
    obtain ⟨hvalue, hv⟩ := List.forall_mem_cons.mp hv
    rw [List.foldl_cons, ih (hmerged.overlay hdoc) hlayers hkeeps hv,
      valueAt_overlay_of_not_table hmerged hdoc hkeep hvalue, ← List.singleton_append,
      topmost_append, topmost_singleton, Option.or_assoc]

end Document

namespace Schema

variable {environment : Environment} {schema : Schema} {strict : Bool}

/-! ## Sections of a document -/

theorem Fits.keepsSection {doc : Document} (h : schema.Fits doc) {address : Address}
    (hname : ∀ name ∈ address.sectionName, schema.declares name = false) :
    doc.KeepsSection address := by
  intro name hmem v hv
  rcases h _ (Document.mem_of_find?_eq_some hv) with hdeclared | htable
  · rw [hname name hmem] at hdeclared
    exact absurd hdeclared (by simp)
  · exact htable

/-- In every section a setting holds what the place of its name says. -/
theorem find?_of_buildData {raw : Document} (hraw : raw.WellFormed) {data : ConfigData}
    (h : schema.buildData environment strict raw = .ok data) {sectionName : Option String}
    {settings : SectionData} (hsection : data.find? sectionName = some settings) (key : String) :
    settings.find? key = schema.heldFor environment key (raw.valueAt ⟨sectionName, key⟩) := by
  cases sectionName with
  | none =>
    obtain rfl : data.global = settings := Option.some.inj hsection
    exact find?_global_of_buildData hraw.distinct h key
  | some name =>
    have hfind : data.named.find? name = some settings := hsection
    rw [find?_named_of_buildData hraw.distinct h] at hfind
    obtain ⟨entries, hentries, hdata⟩ := Option.bind_eq_some_iff.mp hfind
    obtain ⟨v, hv, hopened⟩ := Option.bind_eq_some_iff.mp hentries
    obtain ⟨-, rfl⟩ := opened?_eq_some_iff.mp hopened
    have hdistinct := hraw.distinct_of_find? hv
    rw [find?_of_sectionData hdistinct (toOption_eq_some_iff.mp hdata)]
    show _ = schema.heldFor environment key ((raw.tableAt name).find? key)
    rw [Document.tableAt_of_find? hv]

end Schema

/-! ## What settings hold -/

/-- A setting holds what a raw value was coerced into, or its default where
    there is no raw value. -/
def Held.ComesFrom (environment : Environment) (setting : Setting) :
    (raw : Option Value) → Held → Prop
  | some v, held => setting.type.coerce environment v = .ok held.value
  | none, held => held.value = setting.default

namespace Schema

variable {environment : Environment} {schema : Schema} {strict : Bool}

theorem comesFrom_of_heldFor {setting : Setting} (hsetting : setting ∈ schema.settings)
    {raw : Option Value} {held : Held}
    (h : schema.heldFor environment setting.name raw = some held) :
    held.ComesFrom environment setting raw := by
  have hfind := find?_of_mem hsetting
  cases raw with
  | none =>
    rw [heldFor, hfind, Option.map_some, Option.some.injEq] at h
    exact h ▸ rfl
  | some v =>
    obtain ⟨other, hother, hvalidate⟩ := validated?_eq_some_iff.mp h
    obtain rfl : setting = other := by simpa [hfind] using hother
    obtain ⟨w, hcoerce, -, rfl⟩ := Setting.validate_eq_ok_iff.mp hvalidate
    exact hcoerce

/-- In every section every setting holds something, and that comes from its
    place in the document. -/
theorem exists_held_of_buildData {raw : Document} (hraw : raw.WellFormed) {data : ConfigData}
    (h : schema.buildData environment strict raw = .ok data) {sectionName : Option String}
    {settings : SectionData} (hsection : data.find? sectionName = some settings)
    {setting : Setting} (hsetting : setting ∈ schema.settings) :
    ∃ held, settings.find? setting.name = some held
      ∧ held.ComesFrom environment setting (raw.valueAt ⟨sectionName, setting.name⟩) := by
  have hconforms := (conforms_of_buildData h).sections sectionName settings hsection
  obtain ⟨held, hheld, -⟩ := hconforms.held setting hsetting
  refine ⟨held, hheld, comesFrom_of_heldFor hsetting ?_⟩
  rw [← hheld, find?_of_buildData hraw h hsection]

end Schema

/-! ## Resolution -/

namespace Document

theorem KeepsSection.overlay {lower upper : Document} (hlower : lower.Distinct)
    (hupper : upper.Distinct) {address : Address} (hbelow : lower.KeepsSection address)
    (habove : upper.KeepsSection address) : (overlay lower upper).KeepsSection address := by
  intro name hname v hv
  rw [Option.mem_def, find?_overlay hlower hupper] at hv
  cases hfind : upper.find? name with
  | none =>
    rw [hfind, Value.stack_none] at hv
    exact hbelow name hname v hv
  | some w =>
    rw [hfind, Value.stack, Option.some.injEq] at hv
    rw [← hv, Value.isTable_overlay]
    exact habove name hname w hfind

/-- Two layers that were laid over one another before they are laid over others
    count as if they came one after the other. -/
theorem valueAt_overlay_overlay {docs : List Document} (hdocs : ∀ doc ∈ docs, doc.WellFormed)
    {first second : Document} (hfirst : first.WellFormed) (hsecond : second.WellFormed)
    {address : Address}
    (hkeeps : ∀ doc ∈ docs ++ [first, second], doc.KeepsSection address)
    (hv : ∀ doc ∈ docs ++ [first, second], ∀ v ∈ doc.valueAt address, v.isTable = false) :
    (overlay (ofLayers docs) (overlay first second)).valueAt address
      = topmost (docs ++ [first, second]) address := by
  have hmem₁ : first ∈ docs ++ [first, second] := by simp
  have hmem₂ : second ∈ docs ++ [first, second] := by simp
  have habove := valueAt_overlay_of_not_table hfirst hsecond (hkeeps _ hmem₂) (hv _ hmem₂)
  have hbelow : (ofLayers docs).valueAt address = topmost docs address := by
    have hfold := valueAt_foldl_overlay wellFormed_nil hdocs
      (fun doc hdoc => hkeeps doc (List.mem_append_left _ hdoc))
      (fun doc hdoc => hv doc (List.mem_append_left _ hdoc))
    have hempty : valueAt [] address = none := by
      obtain ⟨_ | name, key⟩ := address <;> rfl
    rw [ofLayers, hfold, hempty, Option.or_none]
  have hvalue : ∀ v ∈ (overlay first second).valueAt address, v.isTable = false := by
    intro v hmem
    rw [habove, Option.mem_def, Option.or_eq_some_iff] at hmem
    rcases hmem with hsome | ⟨-, hsome⟩
    · exact hv _ hmem₂ v hsome
    · exact hv _ hmem₁ v hsome
  have hkeep := (hkeeps _ hmem₁).overlay hfirst.distinct hsecond.distinct (hkeeps _ hmem₂)
  rw [valueAt_overlay_of_not_table (wellFormed_ofLayers hdocs) (hfirst.overlay hsecond) hkeep
    hvalue, habove, hbelow, topmost_append, ← List.singleton_append, topmost_append,
    topmost_singleton, topmost_singleton]

end Document

namespace Schema

variable {environment : Environment} {schema : Schema} {strict : Bool}

/-- A key is bound by the document of all layers if one of them binds it. -/
theorem binds_of_layers {docs : List Document} (hdocs : ∀ doc ∈ docs, doc.WellFormed)
    {layers : RuntimeLayers} {name : String} :
    (Document.overlay (Document.ofLayers docs) layers.document).binds name = true ↔
      ∃ doc ∈ docs ++ [layers.variableDocument, layers.overrideDocument],
        doc.binds name = true := by
  have hvariables := layers.wellFormed_variableDocument.distinct
  have hfiles := Document.binds_ofLayers (fun doc hdoc => (hdocs doc hdoc).distinct) name
  rw [Document.binds_overlay (Document.distinct_ofLayers docs) layers.distinct_document,
    RuntimeLayers.document_eq,
    Document.binds_overlay hvariables layers.distinct_overrideDocument, Bool.or_eq_true,
    Bool.or_eq_true, hfiles]
  simp [or_and_right, exists_or]

/-- Where no layer puts something else in the place of a section, the named
    sections are the keys of all layers that are no settings, and a setting that
    no layer binds to a table holds what the topmost layer that binds it says,
    or its default.  The files come first, then the environment variables, then
    the overrides. -/
theorem resolve_precedence {files : List ConfigFile} {layers : RuntimeLayers}
    {data : ConfigData} (hoverrides : layers.WellFormed)
    (h : schema.resolve environment strict files layers = .ok data) :
    ∃ docs, files.mapM ConfigFile.document = .ok docs ∧
      let all := docs ++ [layers.variableDocument, layers.overrideDocument]
      (∀ doc ∈ all, schema.Fits doc) →
        (∀ name, name ∈ data.named.names ↔
          schema.declares name = false ∧ ∃ doc ∈ all, doc.binds name = true)
        ∧ ∀ sectionName settings, data.find? sectionName = some settings →
            ∀ setting ∈ schema.settings,
              (∀ doc ∈ all, ∀ v ∈ doc.valueAt ⟨sectionName, setting.name⟩, v.isTable = false) →
              ∃ held, settings.find? setting.name = some held
                ∧ held.ComesFrom environment setting
                    (Document.topmost all ⟨sectionName, setting.name⟩) := by
  obtain ⟨docs, hdocs, -, hbuild⟩ := resolve_eq_ok_iff.mp h
  have hfiles := ConfigFile.wellFormed_of_mapM hdocs
  have hraw := (Document.wellFormed_ofLayers hfiles).overlay hoverrides.document
  have hnames := mem_names_of_buildData hraw.distinct hbuild
  refine ⟨docs, hdocs, fun hfits => ⟨fun name => ?_, ?_⟩⟩
  · rw [hnames, binds_of_layers hfiles]
  · intro sectionName settings hsection setting hsetting hv
    -- the section is there, so its name is no setting and every layer keeps it
    have hundeclared : ∀ name ∈ sectionName, schema.declares name = false := by
      rintro name rfl
      have hsome : (data.named.find? name).isSome = true :=
        Option.isSome_iff_exists.mpr ⟨settings, hsection⟩
      exact ((hnames name).mp (NameMap.mem_names_iff.mpr hsome)).1
    have hkeeps : ∀ doc ∈ docs ++ [layers.variableDocument, layers.overrideDocument],
        doc.KeepsSection ⟨sectionName, setting.name⟩ :=
      fun doc hdoc => (hfits doc hdoc).keepsSection hundeclared
    obtain ⟨held, hheld, hfrom⟩ := exists_held_of_buildData hraw hbuild hsection hsetting
    refine ⟨held, hheld, ?_⟩
    rw [RuntimeLayers.document_eq, Document.valueAt_overlay_overlay hfiles
      layers.wellFormed_variableDocument hoverrides.overrideDocument hkeeps hv] at hfrom
    exact hfrom

/-- A port of one section in a file and in the environment, and a host in a file
    and in an override for another section. -/
theorem resolve_precedence_server :
    let files : List ConfigFile :=
      [⟨"a.toml", "[edge]\nport = 8080\n"⟩, ⟨"b.toml", "host = \"c\"\n"⟩]
    let layers : RuntimeLayers := ⟨some "APP", [("APP__EDGE__PORT", "81")],
      [("core.host", .string "b")]⟩
    ∃ data docs, layers.WellFormed
      ∧ server.resolve .empty true files layers = .ok data
      ∧ files.mapM ConfigFile.document = .ok docs
      ∧ let all := docs ++ [layers.variableDocument, layers.overrideDocument]
        (∀ doc ∈ all, server.Fits doc)
        ∧ (∀ name, name ∈ data.named.names ↔
            server.declares name = false ∧ ∃ doc ∈ all, doc.binds name = true)
        ∧ ∀ sectionName settings, data.find? sectionName = some settings →
            ∀ setting ∈ server.settings,
              (∀ doc ∈ all, ∀ v ∈ doc.valueAt ⟨sectionName, setting.name⟩,
                v.isTable = false) →
              ∃ held, settings.find? setting.name = some held
                ∧ held.ComesFrom .empty setting
                    (Document.topmost all ⟨sectionName, setting.name⟩) := by
  intro files layers
  have hoverrides : layers.WellFormed := by
    intro o ho
    obtain rfl := List.mem_singleton.mp ho
    exact .string "b"
  have hresolves : (server.resolve .empty true files layers).toOption.isSome = true := by
    decide +kernel
  obtain ⟨data, hdata⟩ := Option.isSome_iff_exists.mp hresolves
  rw [toOption_eq_some_iff] at hdata
  obtain ⟨docs, hdocs, hmain⟩ := resolve_precedence hoverrides hdata
  have hread : files.mapM ConfigFile.document
      = .ok [[("edge", .table [("port", .int 8080)])], [("host", .string "c")]] :=
    toOption_eq_some_iff.mp (by decide +kernel)
  have hvariables : layers.variableDocument = [("edge", .table [("port", .string "81")])] := rfl
  have hoverride : layers.overrideDocument = [("core", .table [("host", .string "b")])] := rfl
  rw [hread, Except.ok.injEq] at hdocs
  have hfits : ∀ doc ∈ docs ++ [layers.variableDocument, layers.overrideDocument],
      server.Fits doc := by
    rw [← hdocs, hvariables, hoverride]
    simp [Fits, declares, find?, server, Value.isTable]
  exact ⟨data, docs, hoverrides, hdata, hdocs ▸ hread, hfits, hmain hfits⟩

end Schema

end LayeredConfig
