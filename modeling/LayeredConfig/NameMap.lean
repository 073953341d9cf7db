/-
  LayeredConfig.NameMap

  Maps from names that are kept in the order of the names, by code points.
  Two maps that agree on every name are equal, so no trace is left of the order
  in which names were bound.
-/

namespace LayeredConfig

/-- A map from names, as its entries in increasing order of the names. -/
structure NameMap (α : Type) where
  entries : List (String × α)
  sorted : entries.Pairwise (fun a b => a.1 < b.1)

namespace NameMap

variable {α : Type}

/-! ## Lists of entries -/

/-- Binds a name in a sorted list of entries. -/
def insertEntry (name : String) (value : α) : List (String × α) → List (String × α)
  | [] => [(name, value)]
  | (n, v) :: rest =>
    if name < n then (name, value) :: (n, v) :: rest
    else if name = n then (name, value) :: rest
    else (n, v) :: insertEntry name value rest

/-- The value bound to a name in a list of entries. -/
def findEntry (name : String) : List (String × α) → Option α
  | [] => none
  | (n, v) :: rest => if n = name then some v else findEntry name rest

theorem mem_insertEntry {name : String} {value : α} {e : String × α}
    {entries : List (String × α)} (h : e ∈ insertEntry name value entries) :
    e = (name, value) ∨ e ∈ entries := by
  induction entries with
  | nil => simpa [insertEntry] using h
  | cons head rest ih =>
    obtain ⟨n, v⟩ := head
    simp only [insertEntry] at h
    split at h
    · simpa using h
    · split at h
      · simp only [List.mem_cons] at h ⊢
        rcases h with h | h
        · exact Or.inl h
        · exact Or.inr (Or.inr h)
      · simp only [List.mem_cons] at h ⊢
        rcases h with h | h
        · exact Or.inr (Or.inl h)
        · rcases ih h with h | h
          · exact Or.inl h
          · exact Or.inr (Or.inr h)

theorem insertEntry_sorted (name : String) (value : α) {entries : List (String × α)}
    (h : entries.Pairwise (fun a b => a.1 < b.1)) :
    (insertEntry name value entries).Pairwise (fun a b => a.1 < b.1) := by
  induction entries with
  | nil => simp [insertEntry]
  | cons head rest ih =>
    obtain ⟨n, v⟩ := head
    obtain ⟨hhead, hrest⟩ := List.pairwise_cons.mp h
    simp only [insertEntry]
    split
    · rename_i hlt
      refine List.pairwise_cons.mpr ⟨?_, h⟩
      intro e he
      rcases List.mem_cons.mp he with rfl | he
      · exact hlt
      · exact String.lt_trans hlt (hhead e he)
    · rename_i hge
      split
      · rename_i heq
        subst heq
        exact List.pairwise_cons.mpr ⟨hhead, hrest⟩
      · rename_i hne
        refine List.pairwise_cons.mpr ⟨?_, ih hrest⟩
        intro e he
        rcases mem_insertEntry he with rfl | he
        · exact Std.lt_of_le_of_ne (String.not_lt.mp hge) (Ne.symm hne)
        · exact hhead e he

theorem findEntry_insertEntry (name : String) (value : α) (entries : List (String × α))
    (n : String) :
    findEntry n (insertEntry name value entries)
      = if name = n then some value else findEntry n entries := by
  induction entries with
  | nil => simp [insertEntry, findEntry]
  | cons head rest ih =>
    obtain ⟨m, v⟩ := head
    simp only [insertEntry]
    split
    · simp [findEntry]
    · split
      · rename_i heq
        subst heq
        by_cases hn : name = n <;> simp [findEntry, hn]
      · rename_i hne
        by_cases hm : m = n
        · subst hm
          simp [findEntry, hne]
        · simp [findEntry, hm, ih]

/-! ## Operations -/

/-- The map without names. -/
def empty : NameMap α := ⟨[], List.Pairwise.nil⟩

/-- Binds a name, in place of what it was bound to. -/
def insert (map : NameMap α) (name : String) (value : α) : NameMap α :=
  ⟨insertEntry name value map.entries, insertEntry_sorted name value map.sorted⟩

/-- The value bound to a name. -/
def find? (map : NameMap α) (name : String) : Option α :=
  findEntry name map.entries

@[simp] theorem find?_empty (name : String) : (empty : NameMap α).find? name = none := rfl

/-- After an insertion the name is bound to the new value and all others are
    bound to what they were. -/
theorem find?_insert (map : NameMap α) (name : String) (value : α) (n : String) :
    (map.insert name value).find? n = if name = n then some value else map.find? n :=
  findEntry_insertEntry name value map.entries n

/-- The names in increasing order. -/
def names (map : NameMap α) : List String :=
  map.entries.map Prod.fst

/-- Binds names one after another. -/
def insertAll (map : NameMap α) (entries : List (String × α)) : NameMap α :=
  entries.foldl (fun map (name, value) => map.insert name value) map

/-- The map of a list of entries; of two for one name the later counts. -/
def ofList (entries : List (String × α)) : NameMap α :=
  empty.insertAll entries

/-! ## Lookups -/

theorem isSome_findEntry_iff {name : String} {entries : List (String × α)} :
    (findEntry name entries).isSome = true ↔ name ∈ entries.map Prod.fst := by
  induction entries with
  | nil => simp [findEntry]
  | cons head rest ih =>
    obtain ⟨n, v⟩ := head
    by_cases hn : n = name
    · simp [findEntry, hn]
    · simp [findEntry, hn, ih, Ne.symm hn]

theorem findEntry_eq_none_iff {name : String} {entries : List (String × α)} :
    findEntry name entries = none ↔ name ∉ entries.map Prod.fst := by
  rw [← isSome_findEntry_iff, Bool.not_eq_true, Option.isSome_eq_false_iff,
    Option.isNone_iff_eq_none]

/-- A name below all names of a list is not bound in it. -/
theorem findEntry_eq_none_of_lt {name : String} {entries : List (String × α)}
    (h : ∀ e ∈ entries, name < e.1) : findEntry name entries = none := by
  rw [findEntry_eq_none_iff, List.mem_map]
  rintro ⟨e, he, hname⟩
  exact absurd (hname ▸ h e he) (String.lt_irrefl _)

/-- Two sorted lists of entries that bind every name to the same are equal. -/
theorem eq_of_findEntry_eq {first second : List (String × α)}
    (hfirst : first.Pairwise (fun a b => a.1 < b.1))
    (hsecond : second.Pairwise (fun a b => a.1 < b.1))
    (h : ∀ name, findEntry name first = findEntry name second) : first = second := by
  induction first generalizing second with
  | nil =>
    cases second with
    | nil => rfl
    | cons head rest =>
      have hhead := h head.1
      simp [findEntry] at hhead
  | cons head rest ih =>
    obtain ⟨n, v⟩ := head
    cases second with
    | nil =>
      have hhead := h n
      simp [findEntry] at hhead
    | cons head' rest' =>
      obtain ⟨m, w⟩ := head'
      obtain ⟨hn, hrest⟩ := List.pairwise_cons.mp hfirst
      obtain ⟨hm, hrest'⟩ := List.pairwise_cons.mp hsecond
      -- the least name of either list stands at its head
      have hmem : n ∈ ((m, w) :: rest').map Prod.fst := by
        rw [← isSome_findEntry_iff, ← h n]
        simp [findEntry]
      have hmem' : m ∈ ((n, v) :: rest).map Prod.fst := by
        rw [← isSome_findEntry_iff, h m]
        simp [findEntry]
      have hname : n = m := by
        rw [List.map_cons, List.mem_cons, List.mem_map] at hmem hmem'
        rcases hmem with heq | ⟨e, he, hen⟩
        · exact heq
        · rcases hmem' with heq | ⟨e', he', hem⟩
          · exact heq.symm
          · have hlt : m < n := hen ▸ hm e he
            have hgt : n < m := hem ▸ hn e' he'
            exact absurd (String.lt_trans hlt hgt) (String.lt_irrefl m)
      subst hname
      obtain rfl : v = w := by simpa [findEntry] using h n
      have htail : rest = rest' := by
        refine ih hrest hrest' fun name => ?_
        by_cases hname : n = name
        · subst hname
          rw [findEntry_eq_none_of_lt hn, findEntry_eq_none_of_lt hm]
        · simpa [findEntry, hname] using h name
      rw [htail]

/-- Maps that bind every name to the same are equal. -/
theorem ext {first second : NameMap α} (h : ∀ name, first.find? name = second.find? name) :
    first = second := by
  obtain ⟨entries, hsorted⟩ := first
  obtain ⟨entries', hsorted'⟩ := second
  obtain rfl := eq_of_findEntry_eq hsorted hsorted' h
  rfl

theorem nodup_names (map : NameMap α) : map.names.Nodup := by
  rw [names, List.Nodup, List.pairwise_map]
  refine map.sorted.imp fun hlt heq => ?_
  exact absurd (heq ▸ hlt) (String.lt_irrefl _)

theorem mem_names_iff {map : NameMap α} {name : String} :
    name ∈ map.names ↔ (map.find? name).isSome = true :=
  isSome_findEntry_iff.symm

/-- What binds different names one after another binds them all, and leaves the
    other names alone. -/
theorem find?_insertAll (map : NameMap α) {entries : List (String × α)}
    (h : (entries.map Prod.fst).Nodup) (name : String) :
    (map.insertAll entries).find? name = (findEntry name entries).or (map.find? name) := by
  induction entries generalizing map with
  | nil => rfl
  | cons head rest ih =>
    obtain ⟨n, v⟩ := head
    obtain ⟨hhead, hrest⟩ := List.nodup_cons.mp h
    have hstep : map.insertAll ((n, v) :: rest) = (map.insert n v).insertAll rest := rfl
    rw [hstep, ih (map.insert n v) hrest, find?_insert]
    by_cases hn : n = name
    · subst hn
      rw [findEntry_eq_none_iff.mpr hhead]
      simp [findEntry]
    · simp [findEntry, hn]

/-- Laying one map over another. -/
theorem find?_insertAll_entries (map other : NameMap α) (name : String) :
    (map.insertAll other.entries).find? name = (other.find? name).or (map.find? name) :=
  find?_insertAll map other.nodup_names name

/-- What a name is bound to after insertions is from one of them, or from
    before. -/
theorem mem_or_find?_of_insertAll {map : NameMap α} {entries : List (String × α)}
    {name : String} {value : α} (h : (map.insertAll entries).find? name = some value) :
    (name, value) ∈ entries ∨ map.find? name = some value := by
  induction entries generalizing map with
  | nil => exact Or.inr h
  | cons head rest ih =>
    obtain ⟨n, v⟩ := head
    have hstep : ((map.insert n v).insertAll rest).find? name = some value := h
    rcases ih hstep with hmem | hfind
    · exact Or.inl (List.mem_cons_of_mem _ hmem)
    · rw [find?_insert] at hfind
      by_cases hn : n = name
      · subst hn
        obtain rfl : v = value := by simpa using hfind
        exact Or.inl List.mem_cons_self
      · exact Or.inr (by simpa [hn] using hfind)

/-- A name is bound after insertions if one of them binds it, or if it was bound
    before. -/
theorem isSome_find?_insertAll {map : NameMap α} {entries : List (String × α)} {name : String} :
    ((map.insertAll entries).find? name).isSome = true ↔
      name ∈ entries.map Prod.fst ∨ (map.find? name).isSome = true := by
  induction entries generalizing map with
  | nil => simp [insertAll]
  | cons head rest ih =>
    obtain ⟨n, v⟩ := head
    have hstep : map.insertAll ((n, v) :: rest) = (map.insert n v).insertAll rest := rfl
    rw [hstep, ih, find?_insert]
    by_cases hn : n = name
    · simp [hn]
    · simp [hn, Ne.symm hn]

end NameMap

end LayeredConfig
