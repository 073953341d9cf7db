/-
  LayeredConfig.Proofs.Document.WellFormed

  Documents in which no table has a key twice, however deep it lies.

  Readers only make such documents, and laying one over another, the variables
  of the environment and overrides with such values keep to them.
-/
import LayeredConfig.Layer.Override
import LayeredConfig.Proofs.Document.Lookup

namespace LayeredConfig

/-- A value in which no table has a key twice. -/
inductive Value.WellFormed : Value → Prop where
  | null : WellFormed .null
  | bool (b : Bool) : WellFormed (.bool b)
  | number (n : Number) : WellFormed (.number n)
  | string (s : String) : WellFormed (.string s)
  | array {items : List Value} (hitems : ∀ v ∈ items, WellFormed v) : WellFormed (.array items)
  | table {entries : Document} (hdistinct : entries.Distinct)
      (hvalues : ∀ e ∈ entries, WellFormed e.2) : WellFormed (.table entries)

/-- A document in which no table has a key twice, itself included. -/
structure Document.WellFormed (doc : Document) : Prop where
  distinct : doc.Distinct
  values : ∀ e ∈ doc, e.2.WellFormed

theorem Value.wellFormed_table_iff {entries : Document} :
    (Value.table entries).WellFormed ↔ entries.WellFormed := by
  constructor
  · rintro (_ | _ | _ | _ | _ | ⟨hdistinct, hvalues⟩)
    exact ⟨hdistinct, hvalues⟩
  · exact fun h => .table h.distinct h.values

namespace Document

theorem wellFormed_nil : WellFormed [] :=
  ⟨distinct_nil, by simp⟩

theorem wellFormed_cons {key : String} {v : Value} {doc : Document} :
    WellFormed ((key, v) :: doc) ↔ key ∉ keys doc ∧ v.WellFormed ∧ doc.WellFormed := by
  constructor
  · rintro ⟨hdistinct, hvalues⟩
    obtain ⟨hkey, hdoc⟩ := distinct_cons.mp hdistinct
    obtain ⟨hv, hrest⟩ := List.forall_mem_cons.mp hvalues
    exact ⟨hkey, hv, hdoc, hrest⟩
  · rintro ⟨hkey, hv, hdoc, hrest⟩
    exact ⟨distinct_cons.mpr ⟨hkey, hdoc⟩, List.forall_mem_cons.mpr ⟨hv, hrest⟩⟩

theorem WellFormed.of_find? {doc : Document} (h : doc.WellFormed) {key : String} {v : Value}
    (hfind : doc.find? key = some v) : v.WellFormed :=
  h.values _ (mem_of_find?_eq_some hfind)

theorem WellFormed.distinct_of_find? {doc : Document} (h : doc.WellFormed) {key : String}
    {entries : Document} (hfind : doc.find? key = some (.table entries)) : entries.Distinct :=
  (Value.wellFormed_table_iff.mp (h.of_find? hfind)).distinct

theorem WellFormed.of_perm {doc other : Document} (h : doc.WellFormed) (hperm : doc.Perm other) :
    other.WellFormed :=
  ⟨(hperm.map Prod.fst).nodup_iff.mp h.distinct, fun e he => h.values e (hperm.mem_iff.mpr he)⟩

theorem WellFormed.insert {doc : Document} (h : doc.WellFormed) (key : String) {v : Value}
    (hv : v.WellFormed) : (insert key v doc).WellFormed := by
  refine ⟨h.distinct.insert key v, fun e he => ?_⟩
  rcases mem_insert he with rfl | hmem
  · exact hv
  · exact h.values e hmem

theorem WellFormed.swapErase {doc : Document} (h : doc.WellFormed) (key : String) :
    (swapErase key doc).WellFormed := by
  refine ⟨h.distinct.swapErase key, fun e he => ?_⟩
  have hmem := (swapErase_perm h.distinct key).mem_iff.mp he
  exact h.values e (List.mem_filter.mp hmem).1

/-- The table at a key is a document of its own. -/
theorem WellFormed.tableAt {doc : Document} (h : doc.WellFormed) (key : String) :
    (doc.tableAt key).WellFormed := by
  rw [Document.tableAt]
  split
  · rename_i entries hfind
    exact Value.wellFormed_table_iff.mp (h.of_find? hfind)
  · exact wellFormed_nil

/-! ## Laying one document over another -/

theorem wellFormed_overlay_of {lower upper : Document} (hlower : lower.WellFormed)
    (hupper : ∀ e ∈ upper, ∀ below : Option Value, (∀ w ∈ below, w.WellFormed) →
      (Value.overlay below e.2).WellFormed) :
    (overlay lower upper).WellFormed := by
  induction upper generalizing lower with
  | nil => simpa using hlower
  | cons entry rest ih =>
    obtain ⟨key, v⟩ := entry
    rw [overlay_cons]
    refine ih ?_ fun e he => hupper e (List.mem_cons_of_mem _ he)
    have hv : (Value.overlay (find? key lower) v).WellFormed :=
      hupper (key, v) List.mem_cons_self _ fun w hw => hlower.of_find? hw
    exact (hlower.swapErase key).insert key hv

end Document

theorem Value.WellFormed.overlay {v : Value} (h : v.WellFormed) {below : Option Value}
    (hbelow : ∀ w ∈ below, w.WellFormed) : (Value.overlay below v).WellFormed := by
  induction h generalizing below with
  | table hdistinct hvalues ih =>
    rename_i entries
    have hupper : (Value.table entries).WellFormed := .table hdistinct hvalues
    match below, hbelow with
    | some (.table lower), hbelow =>
      have hlower : Document.WellFormed lower :=
        Value.wellFormed_table_iff.mp (hbelow _ rfl)
      rw [Value.overlay_table_table, Value.wellFormed_table_iff]
      exact Document.wellFormed_overlay_of hlower fun e he below hw => ih e he hw
    | none, _ => simpa using hupper
    | some .null, _ | some (.bool _), _ | some (.number _), _ | some (.string _), _
    | some (.array _), _ => simpa [Value.overlay] using hupper
  | null => simpa [Value.overlay] using Value.WellFormed.null
  | bool b => simpa [Value.overlay] using Value.WellFormed.bool b
  | number n => simpa [Value.overlay] using Value.WellFormed.number n
  | string s => simpa [Value.overlay] using Value.WellFormed.string s
  | array hitems _ => simpa [Value.overlay] using Value.WellFormed.array hitems

namespace Document

theorem WellFormed.overlay {lower upper : Document} (hlower : lower.WellFormed)
    (hupper : upper.WellFormed) : (overlay lower upper).WellFormed :=
  wellFormed_overlay_of hlower fun e he _ hbelow => (hupper.values e he).overlay hbelow

/-! ## The layers above the files -/

theorem WellFormed.setVariable {doc : Document} (h : doc.WellFormed) (address : Address)
    (text : String) : (doc.setVariable address text).WellFormed := by
  rw [Document.setVariable]
  split
  · exact h.insert _ (.string text)
  · split
    · refine h.insert _ (.table ?_ ?_)
      · simp [Distinct]
      · simpa using Value.WellFormed.string text
    · rename_i entries hfind
      have hentries := Value.wellFormed_table_iff.mp (h.of_find? hfind)
      exact h.insert _ (Value.wellFormed_table_iff.mpr (hentries.insert _ (.string text)))
    · exact h

theorem wellFormed_ofVariables (start : String) (listed : Variables) :
    (ofVariables start listed).WellFormed := by
  rw [ofVariables]
  refine List.foldlRecOn listed _ wellFormed_nil ?_
  rintro doc hdoc ⟨name, text⟩ -
  dsimp only
  split
  · exact hdoc.setVariable _ text
  · exact hdoc

theorem WellFormed.setOverride {doc : Document} (h : doc.WellFormed) (address : Address)
    {v : Value} (hv : v.WellFormed) : (doc.setOverride address v).WellFormed := by
  rw [Document.setOverride]
  split
  · exact h.insert _ hv
  · exact h.insert _ (Value.wellFormed_table_iff.mpr ((h.tableAt _).insert _ hv))

theorem Distinct.setOverride {doc : Document} (h : doc.Distinct) (address : Address)
    (v : Value) : (doc.setOverride address v).Distinct := by
  rw [Document.setOverride]
  split
  · exact h.insert _ v
  · exact h.insert _ _

/-- Whatever the values of the overrides are, no key stands twice at the top. -/
theorem distinct_ofOverrides (overrides : List (String × Value)) :
    (ofOverrides overrides).Distinct := by
  rw [ofOverrides]
  refine List.foldlRecOn overrides _ distinct_nil ?_
  rintro doc hdoc ⟨dotted, v⟩ -
  exact hdoc.setOverride _ v

theorem wellFormed_ofOverrides {overrides : List (String × Value)}
    (h : ∀ o ∈ overrides, o.2.WellFormed) : (ofOverrides overrides).WellFormed := by
  rw [ofOverrides]
  refine List.foldlRecOn overrides _ wellFormed_nil ?_
  rintro doc hdoc ⟨dotted, v⟩ hmem
  exact hdoc.setOverride _ (h _ hmem)

end Document

end LayeredConfig
