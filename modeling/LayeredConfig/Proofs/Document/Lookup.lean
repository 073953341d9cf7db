/-
  LayeredConfig.Proofs.Document.Lookup

  What the operations on documents do to look-ups.

  Where the keys of a document are different, its entries are the graph of
  `find?`, and the order of the entries does not count.  Laying one document
  over another is then a matter of single keys: what a key is bound to depends
  on what the two documents bind that key to, and on nothing else
  (`find?_overlay`).
-/
import LayeredConfig.Layer.Merge

namespace LayeredConfig

/-- What a place is bound to when one layer lies over another, from what the
    two bind it to. -/
def Value.stack (below : Option Value) : (above : Option Value) → Option Value
  | none => below
  | some v => some (Value.overlay below v)

namespace Value

@[simp] theorem stack_none (below : Option Value) : stack below none = below := rfl

@[simp] theorem overlay_none (v : Value) : overlay none v = v := by
  cases v <;> simp [overlay]

@[simp] theorem none_stack (above : Option Value) : stack none above = above := by
  cases above <;> simp [stack]

theorem overlay_of_not_table {v : Value} (h : v.isTable = false) (below : Option Value) :
    overlay below v = v := by
  cases v <;> simp_all [overlay, isTable]

@[simp] theorem overlay_table_table (lower upper : Document) :
    overlay (some (.table lower)) (.table upper) = .table (Document.overlay lower upper) := by
  simp [overlay]

/-- Only a table shows something of what lies below a table. -/
theorem overlay_table_of_not_table {below : Value} (h : below.isTable = false) (upper : Document) :
    overlay (some below) (.table upper) = .table upper := by
  cases below <;> simp_all [overlay, isTable]

theorem isTable_iff {v : Value} : v.isTable = true ↔ ∃ entries, v = .table entries := by
  cases v <;> simp [isTable]

theorem isTable_overlay (below : Option Value) (v : Value) :
    (overlay below v).isTable = v.isTable := by
  cases v with
  | table upper =>
    cases below with
    | none => simp
    | some w => cases w <;> simp [overlay, isTable]
  | _ => simp [overlay, isTable]

/-! ## Tables and other values at a place -/

/-- A place is bound to a table, or to something else, or not at all. -/
theorem isTable_or (v : Option Value) :
    (∃ entries, v = some (.table entries)) ∨ ∀ entries, v ≠ some (.table entries) := by
  by_cases h : ∃ entries, v = some (.table entries)
  · exact Or.inl h
  · exact Or.inr fun entries heq => h ⟨entries, heq⟩

theorem isTable_eq_false {v : Value} (h : ∀ entries, some v ≠ some (.table entries)) :
    v.isTable = false := by
  rw [Bool.eq_false_iff]
  intro htable
  obtain ⟨entries, rfl⟩ := isTable_iff.mp htable
  exact h entries rfl

@[simp] theorem stack_table_table (lower upper : Document) :
    stack (some (.table lower)) (some (.table upper))
      = some (.table (Document.overlay lower upper)) := by
  rw [stack, overlay_table_table]

/-- What is no table hides everything below. -/
theorem stack_of_not_table {v : Value} (h : v.isTable = false) (below : Option Value) :
    stack below (some v) = some v := by
  rw [stack, overlay_of_not_table h]

/-- What is no table never shows below. -/
theorem stack_of_below {below : Option Value} (h : ∀ lower, below ≠ some (.table lower))
    (v : Value) : stack below (some v) = some v := by
  cases below with
  | none => exact none_stack _
  | some w =>
    cases v with
    | table upper => rw [stack, overlay_table_of_not_table (isTable_eq_false h)]
    | _ => exact stack_of_not_table rfl _

theorem exists_stack_table (below : Option Value) (upper : Document) :
    ∃ entries, stack below (some (.table upper)) = some (.table entries) := by
  obtain ⟨entries, hentries⟩ := isTable_iff.mp (isTable_overlay below (.table upper))
  exact ⟨entries, congrArg some hentries⟩

end Value

namespace Document

/-- No key stands twice. -/
def Distinct (doc : Document) : Prop :=
  (keys doc).Nodup

@[simp] theorem keys_nil : keys [] = [] := rfl

@[simp] theorem keys_cons (e : String × Value) (doc : Document) :
    keys (e :: doc) = e.1 :: keys doc := rfl

theorem distinct_nil : Distinct [] := List.nodup_nil

theorem distinct_cons {key : String} {v : Value} {doc : Document} :
    Distinct ((key, v) :: doc) ↔ key ∉ keys doc ∧ Distinct doc :=
  List.nodup_cons

/-! ## Look-ups and entries -/

theorem isSome_find?_iff {doc : Document} {key : String} :
    (doc.find? key).isSome = true ↔ key ∈ keys doc := by
  induction doc with
  | nil => simp [find?]
  | cons entry rest ih =>
    obtain ⟨n, v⟩ := entry
    by_cases hn : n = key
    · simp [find?, hn]
    · simp [find?, hn, ih, Ne.symm hn]

theorem binds_iff {doc : Document} {key : String} : doc.binds key = true ↔ key ∈ keys doc :=
  isSome_find?_iff

theorem find?_eq_none_iff {doc : Document} {key : String} :
    doc.find? key = none ↔ key ∉ keys doc := by
  rw [← isSome_find?_iff, Bool.not_eq_true, Option.isSome_eq_false_iff, Option.isNone_iff_eq_none]

theorem mem_of_find?_eq_some {doc : Document} {key : String} {v : Value}
    (h : doc.find? key = some v) : (key, v) ∈ doc := by
  induction doc with
  | nil => simp [find?] at h
  | cons entry rest ih =>
    obtain ⟨n, w⟩ := entry
    by_cases hn : n = key
    · subst hn
      obtain rfl : w = v := by simpa [find?] using h
      exact List.mem_cons_self
    · exact List.mem_cons_of_mem _ (ih (by simpa [find?, hn] using h))

theorem mem_keys_of_mem {doc : Document} {key : String} {v : Value} (h : (key, v) ∈ doc) :
    key ∈ keys doc :=
  List.mem_map_of_mem (f := Prod.fst) h

/-- Where the keys are different, the entries are the graph of `find?`. -/
theorem Distinct.find?_eq_some_iff {doc : Document} (h : Distinct doc) {key : String}
    {v : Value} : doc.find? key = some v ↔ (key, v) ∈ doc := by
  refine ⟨mem_of_find?_eq_some, fun hmem => ?_⟩
  induction doc with
  | nil => simp at hmem
  | cons entry rest ih =>
    obtain ⟨n, w⟩ := entry
    obtain ⟨hhead, hrest⟩ := distinct_cons.mp h
    rcases List.mem_cons.mp hmem with heq | hmem
    · obtain ⟨rfl, rfl⟩ := Prod.mk.inj heq
      simp [find?]
    · have hn : n ≠ key := fun hn => hhead (hn ▸ mem_keys_of_mem hmem)
      simp [find?, hn, ih hrest hmem]

/-- The order of entries does not count for look-ups. -/
theorem Distinct.find?_eq_of_perm {doc other : Document} (h : Distinct doc)
    (hperm : doc.Perm other) (key : String) : doc.find? key = other.find? key := by
  have hother : Distinct other := (hperm.map Prod.fst).nodup_iff.mp h
  refine Option.ext fun v => ?_
  rw [h.find?_eq_some_iff, hother.find?_eq_some_iff]
  exact hperm.mem_iff

/-- Taking entries by their key alone keeps what the kept keys are bound to. -/
theorem find?_filter (p : String → Bool) (doc : Document) (key : String) :
    find? key (doc.filter fun e => p e.1) = if p key then find? key doc else none := by
  induction doc with
  | nil => simp [find?]
  | cons entry rest ih =>
    obtain ⟨n, v⟩ := entry
    by_cases hp : p n = true
    · by_cases hn : n = key
      · simp [hp, find?, ← hn]
      · simp [hp, find?, hn, ih]
    · have hn : p key = true → n ≠ key := fun hkey hn => hp (hn ▸ hkey)
      by_cases hkey : p key = true
      · simp [hp, find?, hn hkey, ih, hkey]
      · simp [hp, ih, hkey]

theorem Distinct.filter {doc : Document} (h : Distinct doc) (p : String × Value → Bool) :
    Distinct (doc.filter p) :=
  List.Nodup.sublist (List.filter_sublist.map Prod.fst) h

/-! ## Insertion -/

theorem mem_insert {doc : Document} {key : String} {v : Value} {e : String × Value}
    (h : e ∈ insert key v doc) : e = (key, v) ∨ e ∈ doc := by
  induction doc with
  | nil => simpa [insert] using h
  | cons entry rest ih =>
    obtain ⟨n, w⟩ := entry
    by_cases hn : n = key
    · simp only [insert, hn, if_true, List.mem_cons] at h ⊢
      exact h.imp id Or.inr
    · simp only [insert, hn, if_false, List.mem_cons] at h ⊢
      rcases h with h | h
      · exact Or.inr (Or.inl h)
      · exact (ih h).imp id Or.inr

/-- A new key comes last. -/
theorem insert_of_notMem {doc : Document} {key : String} (h : key ∉ keys doc) (v : Value) :
    insert key v doc = doc ++ [(key, v)] := by
  induction doc with
  | nil => rfl
  | cons entry rest ih =>
    rw [keys_cons, List.mem_cons, not_or] at h
    simp [insert, Ne.symm h.1, ih h.2]

theorem mem_keys_insert {doc : Document} {key : String} {v : Value} {k : String} :
    k ∈ keys (insert key v doc) ↔ k = key ∨ k ∈ keys doc := by
  rw [← isSome_find?_iff, ← isSome_find?_iff, find?_insert]
  by_cases hk : key = k
  · simp [hk]
  · simp [hk, Ne.symm hk]

theorem Distinct.insert {doc : Document} (h : Distinct doc) (key : String) (v : Value) :
    Distinct (insert key v doc) := by
  induction doc with
  | nil => simp [Document.insert, Distinct]
  | cons entry rest ih =>
    obtain ⟨n, w⟩ := entry
    obtain ⟨hhead, hrest⟩ := distinct_cons.mp h
    by_cases hn : n = key
    · subst hn
      simpa [Document.insert, distinct_cons] using ⟨hhead, hrest⟩
    · simp only [Document.insert, hn, if_false, distinct_cons]
      refine ⟨?_, ih hrest⟩
      rw [mem_keys_insert]
      rintro (rfl | hmem)
      · exact hn rfl
      · exact hhead hmem

/-! ## Taking a key out -/

theorem swapErase_of_notMem {doc : Document} {key : String} (h : key ∉ keys doc) :
    swapErase key doc = doc := by
  induction doc with
  | nil => rfl
  | cons entry rest ih =>
    rw [keys_cons, List.mem_cons, not_or] at h
    simp [swapErase, Ne.symm h.1, ih h.2]

/-- But for their order the entries that stay are those of the other keys. -/
theorem swapErase_perm {doc : Document} (h : Distinct doc) (key : String) :
    (swapErase key doc).Perm (doc.filter fun e => e.1 != key) := by
  induction doc with
  | nil => simp [swapErase]
  | cons entry rest ih =>
    obtain ⟨n, v⟩ := entry
    obtain ⟨hhead, hrest⟩ := distinct_cons.mp h
    by_cases hn : n = key
    · subst hn
      have hkeep : rest.filter (fun e => e.1 != n) = rest := by
        rw [List.filter_eq_self]
        intro e he
        have hne : e.1 ≠ n := fun hen => hhead (hen ▸ List.mem_map_of_mem (f := Prod.fst) he)
        simpa using hne
      simp only [swapErase, if_true, List.filter_cons, bne_self_eq_false, Bool.false_eq_true,
        if_false, hkeep]
      cases hlast : rest.getLast? with
      | none => simp [List.getLast?_eq_none_iff.mp hlast]
      | some last =>
        -- the last entry goes to the front, the others follow in order
        obtain ⟨others, rfl⟩ := List.getLast?_eq_some_iff.mp hlast
        simpa using (List.perm_append_singleton last others).symm
    · have hne : (n != key) = true := by simpa using hn
      simp only [swapErase, hn, if_false, List.filter_cons, hne, if_true]
      exact (ih hrest).cons _

theorem Distinct.swapErase {doc : Document} (h : Distinct doc) (key : String) :
    Distinct (swapErase key doc) :=
  ((swapErase_perm h key).map Prod.fst).nodup_iff.mpr (h.filter _)

theorem find?_swapErase {doc : Document} (h : Distinct doc) (key k : String) :
    find? k (swapErase key doc) = if key = k then none else find? k doc := by
  rw [(h.swapErase key).find?_eq_of_perm (swapErase_perm h key), find?_filter (· != key)]
  by_cases hk : key = k <;> simp [hk, Ne.symm]

/-! ## Laying one document over another -/

/-- One step of `overlay`: the key moves to the end with its new value. -/
def lay (lower : Document) (key : String) (v : Value) : Document :=
  insert key (Value.overlay (find? key lower) v) (swapErase key lower)

@[simp] theorem overlay_nil (lower : Document) : overlay lower [] = lower := by
  simp [overlay]

theorem overlay_cons (lower : Document) (key : String) (v : Value) (upper : Document) :
    overlay lower ((key, v) :: upper) = overlay (lay lower key v) upper := by
  simp [overlay, lay]

/-- A layer none of whose keys is bound yet comes after what is there. -/
theorem overlay_eq_append {lower upper : Document} (h : Distinct (lower ++ upper)) :
    overlay lower upper = lower ++ upper := by
  induction upper generalizing lower with
  | nil => simp
  | cons entry rest ih =>
    obtain ⟨key, v⟩ := entry
    have hnew : key ∉ keys lower := by
      have hparts : (keys lower ++ keys ((key, v) :: rest)).Nodup := by
        simpa [Distinct, keys] using h
      intro hmem
      exact (List.nodup_append.mp hparts).2.2 key hmem key List.mem_cons_self rfl
    have hlay : lay lower key v = lower ++ [(key, v)] := by
      rw [lay, find?_eq_none_iff.mpr hnew, Value.overlay_none, swapErase_of_notMem hnew,
        insert_of_notMem hnew]
    rw [overlay_cons, hlay, ih (by simpa using h), List.append_assoc, List.singleton_append]

theorem nil_overlay {upper : Document} (h : upper.Distinct) : overlay [] upper = upper := by
  rw [overlay_eq_append (by simpa using h), List.nil_append]

theorem Distinct.lay {lower : Document} (h : Distinct lower) (key : String) (v : Value) :
    Distinct (lay lower key v) :=
  (h.swapErase key).insert key _

theorem find?_lay {lower : Document} (h : Distinct lower) (key : String) (v : Value)
    (k : String) :
    find? k (lay lower key v)
      = if key = k then some (Value.overlay (find? key lower) v) else find? k lower := by
  rw [lay, find?_insert, find?_swapErase h]
  by_cases hk : key = k <;> simp [hk]

theorem Distinct.overlay {lower : Document} (h : Distinct lower) (upper : Document) :
    Distinct (overlay lower upper) := by
  induction upper generalizing lower with
  | nil => simpa using h
  | cons entry rest ih =>
    rw [overlay_cons]
    exact ih (h.lay _ _)

/-- A key is bound to what comes of laying the one value over the other. -/
theorem find?_overlay {lower upper : Document} (hlower : Distinct lower)
    (hupper : Distinct upper) (key : String) :
    find? key (overlay lower upper) = Value.stack (find? key lower) (find? key upper) := by
  induction upper generalizing lower with
  | nil => simp [find?]
  | cons entry rest ih =>
    obtain ⟨n, v⟩ := entry
    obtain ⟨hhead, hrest⟩ := distinct_cons.mp hupper
    rw [overlay_cons, ih (hlower.lay n v) hrest, find?_lay hlower]
    by_cases hn : n = key
    · subst hn
      rw [find?_eq_none_iff.mpr hhead]
      simp [find?, Value.stack]
    · simp [find?, hn]

theorem binds_overlay {lower upper : Document} (hlower : Distinct lower)
    (hupper : Distinct upper) (key : String) :
    (overlay lower upper).binds key = (lower.binds key || upper.binds key) := by
  rw [binds, binds, binds, find?_overlay hlower hupper]
  cases find? key upper <;> simp [Value.stack]

end Document

end LayeredConfig
