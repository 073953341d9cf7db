/-
  LayeredConfig.Proofs.Toml.WellFormed

  No table of a TOML document has a key twice.

  A table under construction refuses a key that it already has, so every reader
  of nodes gives well-formed nodes and every line keeps the tables well-formed
  that were read before it.  The finished document has the keys of its nodes
  (`wellFormed_of_ofString`).
-/
import LayeredConfig.Proofs.Document.WellFormed
import LayeredConfig.Toml.Reader
import Mathlib.Data.List.Nodup

namespace LayeredConfig.Toml

/-- A node in which no table has a key twice. -/
inductive Node.WellFormed : Node → Prop where
  | string (s : String) : WellFormed (.string s)
  | scalar {v : Value} (hv : v.WellFormed) : WellFormed (.scalar v)
  | array {items : List Node} (hitems : ∀ node ∈ items, WellFormed node) :
      WellFormed (.array items)
  | table {origin : Origin} {entries : Entries} (hdistinct : (entries.map Prod.fst).Nodup)
      (hnodes : ∀ e ∈ entries, WellFormed e.2) : WellFormed (.table origin entries)
  | tables {items : List Entries} (hdistinct : ∀ entries ∈ items, (entries.map Prod.fst).Nodup)
      (hnodes : ∀ entries ∈ items, ∀ e ∈ entries, WellFormed e.2) : WellFormed (.tables items)

namespace Entries

/-- Entries of a table that has no key twice, nor has any table inside it. -/
structure WellFormed (entries : Entries) : Prop where
  distinct : (entries.map Prod.fst).Nodup
  nodes : ∀ e ∈ entries, e.2.WellFormed

theorem wellFormed_table_iff {origin : Origin} {entries : Entries} :
    (Node.table origin entries).WellFormed ↔ WellFormed entries := by
  constructor
  · rintro (_ | _ | _ | ⟨hdistinct, hnodes⟩)
    exact ⟨hdistinct, hnodes⟩
  · exact fun h => .table h.distinct h.nodes

theorem wellFormed_tables_iff {items : List Entries} :
    (Node.tables items).WellFormed ↔ ∀ entries ∈ items, WellFormed entries := by
  constructor
  · rintro (_ | _ | _ | _ | ⟨hdistinct, hnodes⟩)
    exact fun entries he => ⟨hdistinct entries he, hnodes entries he⟩
  · exact fun h => .tables (fun entries he => (h entries he).distinct) fun entries he =>
      (h entries he).nodes

theorem wellFormed_nil : WellFormed [] :=
  ⟨List.nodup_nil, by simp⟩

/-! ## Entries of one table -/

theorem mem_of_find?_eq_some {entries : Entries} {key : String} {node : Node}
    (h : find? key entries = some node) : (key, node) ∈ entries := by
  induction entries with
  | nil => simp [find?] at h
  | cons entry rest ih =>
    obtain ⟨k, n⟩ := entry
    by_cases hk : k = key
    · subst hk
      obtain rfl : n = node := by simpa [find?] using h
      exact List.mem_cons_self
    · exact List.mem_cons_of_mem _ (ih (by simpa [find?, hk] using h))

theorem not_mem_of_find?_eq_none {entries : Entries} {key : String}
    (h : find? key entries = none) : key ∉ entries.map Prod.fst := by
  induction entries with
  | nil => simp
  | cons entry rest ih =>
    obtain ⟨k, n⟩ := entry
    by_cases hk : k = key
    · simp [find?, hk] at h
    · have hrest := ih (by simpa [find?, hk] using h)
      simpa [Ne.symm hk] using hrest

/-- Appending keeps keys different if the key is new. -/
theorem WellFormed.append {entries : Entries} (h : WellFormed entries) {key : String}
    {node : Node} (hkey : key ∉ entries.map Prod.fst) (hnode : node.WellFormed) :
    WellFormed (entries ++ [(key, node)]) := by
  constructor
  · rw [List.map_append, List.map_singleton, ← List.concat_eq_append]
    exact List.Nodup.concat hkey h.distinct
  · intro e he
    rcases List.mem_append.mp he with he | he
    · exact h.nodes e he
    · rw [List.mem_singleton.mp he]
      exact hnode

theorem map_fst_insert {entries : Entries} {key : String} {node : Node} :
    (insert key node entries).map Prod.fst
      = if key ∈ entries.map Prod.fst then entries.map Prod.fst
        else entries.map Prod.fst ++ [key] := by
  induction entries with
  | nil => simp [insert]
  | cons entry rest ih =>
    obtain ⟨k, n⟩ := entry
    by_cases hk : k = key
    · simp [insert, hk]
    · by_cases hmem : key ∈ rest.map Prod.fst
      · simp only [insert, hk, if_false, List.map_cons, ih, if_pos hmem]
        rw [if_pos (List.mem_cons_of_mem _ hmem)]
      · have hnot : key ∉ k :: rest.map Prod.fst := by
          rw [List.mem_cons, not_or]
          exact ⟨Ne.symm hk, hmem⟩
        simp only [insert, hk, if_false, List.map_cons, ih, if_neg hmem, if_neg hnot,
          List.cons_append]

theorem mem_insert {entries : Entries} {key : String} {node : Node} {e : String × Node}
    (h : e ∈ insert key node entries) : e = (key, node) ∨ e ∈ entries := by
  induction entries with
  | nil => simpa [insert] using h
  | cons entry rest ih =>
    obtain ⟨k, n⟩ := entry
    by_cases hk : k = key
    · simp only [insert, hk, if_true, List.mem_cons] at h ⊢
      exact h.imp id Or.inr
    · simp only [insert, hk, if_false, List.mem_cons] at h ⊢
      rcases h with h | h
      · exact Or.inr (Or.inl h)
      · exact (ih h).imp id Or.inr

theorem WellFormed.insert {entries : Entries} (h : WellFormed entries) (key : String)
    {node : Node} (hnode : node.WellFormed) : WellFormed (insert key node entries) := by
  constructor
  · rw [map_fst_insert]
    split
    · exact h.distinct
    · rename_i hkey
      rw [← List.concat_eq_append]
      exact List.Nodup.concat hkey h.distinct
  · intro e he
    rcases mem_insert he with rfl | he
    · exact hnode
    · exact h.nodes e he

theorem WellFormed.erase {entries : Entries} (h : WellFormed entries) (key : String) :
    WellFormed (erase key entries) := by
  constructor
  · exact List.Nodup.sublist (List.filter_sublist.map Prod.fst) h.distinct
  · exact fun e he => h.nodes e (List.mem_filter.mp he).1

/-! ## Changes -/

/-- A change that keeps tables well-formed. -/
def Change.Keeps (change : Change) : Prop :=
  ∀ origin entries changed, WellFormed entries → change origin entries = some changed →
    WellFormed changed

/-- What keeps the table at a path well-formed keeps all tables on the way so. -/
theorem Change.Keeps.changeAt {change : Change} (h : change.Keeps) (isDotted : Bool)
    (path : List String) : (changeAt isDotted change path).Keeps := by
  induction path with
  | nil => exact fun origin entries changed hwf hchange => h origin entries changed hwf hchange
  | cons key path ih =>
    intro origin entries changed hwf hchange
    rw [Entries.changeAt] at hchange
    split at hchange
    · -- nothing is at the key yet
      obtain ⟨children, hchildren, hsome⟩ := Option.bind_eq_some_iff.mp hchange
      obtain rfl := Option.some.inj hsome
      have hnew := ih _ _ children wellFormed_nil hchildren
      exact hwf.insert key (wellFormed_table_iff.mpr hnew)
    · simp at hchange
    · simp at hchange
    · simp at hchange
    · -- a table that may be gone into
      rename_i inner children hfind
      have hinner := wellFormed_table_iff.mp (hwf.nodes _ (mem_of_find?_eq_some hfind))
      split at hchange
      · simp at hchange
      · obtain ⟨children', hchildren, hsome⟩ := Option.bind_eq_some_iff.mp hchange
        obtain rfl := Option.some.inj hsome
        exact hwf.insert key (wellFormed_table_iff.mpr (ih _ _ _ hinner hchildren))
    · -- of an array of tables the last one counts
      rename_i items hfind
      have hitems := wellFormed_tables_iff.mp (hwf.nodes _ (mem_of_find?_eq_some hfind))
      obtain ⟨children, hchildren, hsome⟩ := Option.bind_eq_some_iff.mp hchange
      obtain rfl := Option.some.inj hsome
      have hlast : WellFormed (items.getLast?.getD []) := by
        cases hlast : items.getLast? with
        | none => exact wellFormed_nil
        | some last => exact hitems last (List.mem_of_getLast? hlast)
      refine hwf.insert key (wellFormed_tables_iff.mpr fun entries he => ?_)
      rcases List.mem_append.mp he with he | he
      · exact hitems entries (List.dropLast_subset _ he)
      · rw [List.mem_singleton.mp he]
        exact ih _ _ _ hlast hchildren

theorem keeps_bindKey (isDotted : Bool) (key : String) {node : Node} (hnode : node.WellFormed) :
    Change.Keeps (bindKey isDotted key node) := by
  intro origin entries changed hwf hchange
  rw [bindKey] at hchange
  split at hchange
  · simp at hchange
  · split at hchange
    · simp at hchange
    · rename_i hnone
      obtain rfl := Option.some.inj hchange
      refine hwf.append (not_mem_of_find?_eq_none ?_) hnode
      simpa using hnone

theorem keeps_bindDotted (path : List String) (key : String) {node : Node}
    (hnode : node.WellFormed) : Change.Keeps (bindDotted path key node) :=
  (keeps_bindKey _ key hnode).changeAt _ path

theorem keeps_defineTable (key : String) : Change.Keeps (defineTable key) := by
  intro origin entries changed hwf hchange
  rw [defineTable] at hchange
  split at hchange
  · rename_i hnone
    obtain rfl := Option.some.inj hchange
    exact hwf.append (not_mem_of_find?_eq_none hnone) (wellFormed_table_iff.mpr wellFormed_nil)
  · -- the table moves to the end under its own header
    rename_i children hfind
    obtain rfl := Option.some.inj hchange
    have hchildren := wellFormed_table_iff.mp (hwf.nodes _ (mem_of_find?_eq_some hfind))
    refine (hwf.erase key).append ?_ (wellFormed_table_iff.mpr hchildren)
    simp [erase]
  · simp at hchange

theorem keeps_appendTable (key : String) : Change.Keeps (appendTable key) := by
  intro origin entries changed hwf hchange
  rw [appendTable] at hchange
  split at hchange
  · rename_i hnone
    obtain rfl := Option.some.inj hchange
    refine hwf.append (not_mem_of_find?_eq_none hnone) (wellFormed_tables_iff.mpr ?_)
    simpa using wellFormed_nil
  · rename_i items hfind
    obtain rfl := Option.some.inj hchange
    have hitems := wellFormed_tables_iff.mp (hwf.nodes _ (mem_of_find?_eq_some hfind))
    refine hwf.insert key (wellFormed_tables_iff.mpr fun entries he => ?_)
    rcases List.mem_append.mp he with he | he
    · exact hitems entries he
    · rw [List.mem_singleton.mp he]
      exact wellFormed_nil
  · simp at hchange

end Entries

/-! ## Readers -/

/-- A reader that only reads well-formed nodes. -/
def Reader.ReadsWellFormed (reader : Reader Node) : Prop :=
  ∀ s node rest, reader s = some (node, rest) → node.WellFormed

theorem wellFormed_of_float? {s : List Char} {v : Value} (h : float? s = some v) :
    v.WellFormed := by
  simp only [float?] at h
  split at h
  · obtain rfl := Option.some.inj h
    exact .string _
  · split at h
    · obtain rfl := Option.some.inj h
      exact .string _
    · split at h
      · obtain rfl := Option.some.inj h
        exact .number _
      · obtain rfl := Option.some.inj h
        exact .string _
      · simp at h

/-- A word denotes no table. -/
theorem wellFormed_of_wordValue? {word : List Char} {v : Value} (h : wordValue? word = some v) :
    v.WellFormed := by
  rw [wordValue?] at h
  split at h
  · obtain rfl := Option.some.inj h
    exact .bool true
  · split at h
    · obtain rfl := Option.some.inj h
      exact .bool false
    · split at h
      · obtain rfl := Option.some.inj h
        exact .number _
      · split at h
        · rename_i hfloat
          obtain rfl := Option.some.inj h
          exact wellFormed_of_float? hfloat
        · obtain ⟨text, -, rfl⟩ := Option.map_eq_some_iff.mp h
          exact .string _

theorem wellFormed_of_readScalar {s rest : List Char} {v : Value}
    (h : readScalar s = some (v, rest)) : v.WellFormed := by
  simp only [readScalar] at h
  split at h
  · obtain ⟨w, hword, heq⟩ := Option.map_eq_some_iff.mp h
    obtain ⟨rfl, -⟩ := Prod.mk.inj heq
    exact wellFormed_of_wordValue? hword
  · obtain ⟨w, hword, heq⟩ := Option.map_eq_some_iff.mp h
    obtain ⟨rfl, -⟩ := Prod.mk.inj heq
    exact wellFormed_of_wordValue? hword

theorem wellFormed_of_readItems {reader : Reader Node} (hreader : Reader.ReadsWellFormed reader)
    {fuel : Nat} {s rest : List Char} {nodes : List Node}
    (h : readItems reader fuel s = some (nodes, rest)) : ∀ node ∈ nodes, node.WellFormed := by
  induction fuel generalizing s nodes rest with
  | zero => simp [readItems] at h
  | succ fuel ih =>
    rw [readItems] at h
    obtain ⟨gap, -, h⟩ := Option.bind_eq_some_iff.mp h
    split at h
    · obtain ⟨rfl, -⟩ := Prod.mk.inj (Option.some.inj h)
      simp
    · obtain ⟨⟨node, s'⟩, hnode, h⟩ := Option.bind_eq_some_iff.mp h
      have hwf : node.WellFormed := hreader _ _ _ hnode
      obtain ⟨gap', -, h⟩ := Option.bind_eq_some_iff.mp h
      split at h
      · obtain ⟨⟨more, s''⟩, hmore, h⟩ := Option.bind_eq_some_iff.mp h
        obtain ⟨rfl, -⟩ := Prod.mk.inj (Option.some.inj h)
        exact List.forall_mem_cons.mpr ⟨hwf, ih hmore⟩
      · obtain ⟨rfl, -⟩ := Prod.mk.inj (Option.some.inj h)
        simpa using hwf
      · simp at h

theorem wellFormed_of_readBinding {reader : Reader Node}
    (hreader : Reader.ReadsWellFormed reader) {s rest : List Char} {key : List String × String}
    {node : Node} (h : readBinding reader s = some ((key, node), rest)) : node.WellFormed := by
  rw [readBinding] at h
  obtain ⟨⟨key', s₁⟩, -, h⟩ := Option.bind_eq_some_iff.mp h
  obtain ⟨⟨sign, s₂⟩, -, h⟩ := Option.bind_eq_some_iff.mp h
  obtain ⟨⟨node', s₃⟩, hnode, h⟩ := Option.bind_eq_some_iff.mp h
  obtain ⟨heq, -⟩ := Prod.mk.inj (Option.some.inj h)
  obtain ⟨-, rfl⟩ := Prod.mk.inj heq
  exact hreader _ _ _ hnode

theorem wellFormed_of_readBindings {reader : Reader Node}
    (hreader : Reader.ReadsWellFormed reader) {fuel : Nat} {entries entries' : Entries}
    {s rest : List Char} (hentries : Entries.WellFormed entries)
    (h : readBindings reader fuel entries s = some (entries', rest)) :
    Entries.WellFormed entries' := by
  induction fuel generalizing s entries with
  | zero => simp [readBindings] at h
  | succ fuel ih =>
    rw [readBindings] at h
    obtain ⟨⟨⟨⟨path, key⟩, node⟩, s₁⟩, hbinding, h⟩ := Option.bind_eq_some_iff.mp h
    obtain ⟨bound, hbound, h⟩ := Option.bind_eq_some_iff.mp h
    have hnode := wellFormed_of_readBinding hreader hbinding
    have hwf : Entries.WellFormed bound :=
      Entries.keeps_bindDotted path key hnode _ _ _ hentries hbound
    split at h
    · exact ih hwf h
    · obtain ⟨rfl, -⟩ := Prod.mk.inj (Option.some.inj h)
      exact hwf
    · simp at h

theorem readsWellFormed_readInlineTable {reader : Reader Node}
    (hreader : Reader.ReadsWellFormed reader) :
    Reader.ReadsWellFormed (readInlineTable reader) := by
  intro s node rest h
  rw [readInlineTable] at h
  split at h
  · obtain ⟨rfl, -⟩ := Prod.mk.inj (Option.some.inj h)
    exact Entries.wellFormed_table_iff.mpr Entries.wellFormed_nil
  · obtain ⟨⟨entries, s'⟩, hentries, h⟩ := Option.bind_eq_some_iff.mp h
    obtain ⟨rfl, -⟩ := Prod.mk.inj (Option.some.inj h)
    exact Entries.wellFormed_table_iff.mpr
      (wellFormed_of_readBindings hreader Entries.wellFormed_nil hentries)

/-- The induction is on the depth to which arrays and inline tables nest. -/
theorem readsWellFormed_readNode (depth : Nat) : Reader.ReadsWellFormed (readNode depth) := by
  induction depth using Nat.strongRecOn with
  | ind depth ih =>
    intro s node rest h
    unfold readNode at h
    split at h
    · obtain ⟨⟨t, s'⟩, -, heq⟩ := Option.map_eq_some_iff.mp h
      obtain ⟨rfl, -⟩ := Prod.mk.inj heq
      exact .string t
    · obtain ⟨⟨t, s'⟩, -, heq⟩ := Option.map_eq_some_iff.mp h
      obtain ⟨rfl, -⟩ := Prod.mk.inj heq
      exact .string t
    · split at h
      · simp at h
      · rename_i inner
        obtain ⟨⟨nodes, s'⟩, hitems, heq⟩ := Option.map_eq_some_iff.mp h
        obtain ⟨rfl, -⟩ := Prod.mk.inj heq
        exact .array (wellFormed_of_readItems (ih inner (Nat.lt_succ_self inner)) hitems)
    · split at h
      · simp at h
      · rename_i inner
        exact readsWellFormed_readInlineTable (ih inner (Nat.lt_succ_self inner)) _ _ _ h
    · obtain ⟨⟨v, s'⟩, hscalar, heq⟩ := Option.map_eq_some_iff.mp h
      obtain ⟨rfl, -⟩ := Prod.mk.inj heq
      exact .scalar (wellFormed_of_readScalar hscalar)

/-! ## Documents -/

/-- A line whose node is well-formed, if it has one. -/
def Line.WellFormed : Line → Prop
  | .binding _ _ node => node.WellFormed
  | .tableHeader .. | .arrayHeader .. => True

theorem wellFormed_of_readLine {s rest : List Char} {line : Line}
    (h : readLine s = some (line, rest)) : line.WellFormed := by
  unfold readLine at h
  split at h
  · obtain ⟨⟨⟨path, key⟩, s₁⟩, -, h⟩ := Option.bind_eq_some_iff.mp h
    obtain ⟨⟨sign, s₂⟩, -, h⟩ := Option.bind_eq_some_iff.mp h
    obtain ⟨⟨sign', s₃⟩, -, h⟩ := Option.bind_eq_some_iff.mp h
    obtain ⟨rfl, -⟩ := Prod.mk.inj (Option.some.inj h)
    trivial
  · obtain ⟨⟨⟨path, key⟩, s₁⟩, -, h⟩ := Option.bind_eq_some_iff.mp h
    obtain ⟨⟨sign, s₂⟩, -, h⟩ := Option.bind_eq_some_iff.mp h
    obtain ⟨rfl, -⟩ := Prod.mk.inj (Option.some.inj h)
    trivial
  · obtain ⟨⟨⟨⟨path, key⟩, node⟩, s₁⟩, hbinding, h⟩ := Option.bind_eq_some_iff.mp h
    obtain ⟨rfl, -⟩ := Prod.mk.inj (Option.some.inj h)
    exact wellFormed_of_readBinding (readsWellFormed_readNode nestingLimit) hbinding

/-- A line keeps the tables well-formed that were read before it. -/
theorem wellFormed_of_apply {progress progress' : Progress} {line : Line}
    (hprogress : Entries.WellFormed progress.root) (hline : line.WellFormed)
    (h : progress.apply line = some progress') : Entries.WellFormed progress'.root := by
  cases line with
  | binding path key node =>
    obtain ⟨root, hroot, h⟩ := Option.bind_eq_some_iff.mp h
    obtain rfl := Option.some.inj h
    exact (Entries.keeps_bindDotted path key hline).changeAt _ _ _ _ _ hprogress hroot
  | tableHeader path key =>
    obtain ⟨root, hroot, h⟩ := Option.bind_eq_some_iff.mp h
    obtain rfl := Option.some.inj h
    exact (Entries.keeps_defineTable key).changeAt _ _ _ _ _ hprogress hroot
  | arrayHeader path key =>
    obtain ⟨root, hroot, h⟩ := Option.bind_eq_some_iff.mp h
    obtain rfl := Option.some.inj h
    exact (Entries.keeps_appendTable key).changeAt _ _ _ _ _ hprogress hroot

theorem wellFormed_of_readLines {fuel : Nat} {progress progress' : Progress} {s : List Char}
    (hprogress : Entries.WellFormed progress.root)
    (h : readLines fuel progress s = some progress') : Entries.WellFormed progress'.root := by
  induction fuel generalizing progress s with
  | zero =>
    cases s with
    | nil =>
      obtain rfl : progress = progress' := by simpa [readLines] using h
      exact hprogress
    | cons c s => simp [readLines] at h
  | succ fuel ih =>
    cases s with
    | nil =>
      obtain rfl : progress = progress' := by simpa [readLines] using h
      exact hprogress
    | cons c s =>
      simp only [readLines] at h
      split at h
      · obtain ⟨s', -, h⟩ := Option.bind_eq_some_iff.mp h
        exact ih hprogress h
      · obtain ⟨⟨line, s₁⟩, hline, h⟩ := Option.bind_eq_some_iff.mp h
        obtain ⟨next, hnext, h⟩ := Option.bind_eq_some_iff.mp h
        obtain ⟨s', -, h⟩ := Option.bind_eq_some_iff.mp h
        exact ih (wellFormed_of_apply hprogress (wellFormed_of_readLine hline) hnext) h

namespace Entries

/-- The finished document has the keys of the entries, and their values. -/
theorem wellFormed_of_toDocument? {entries : Entries} {doc : Document}
    (hdistinct : (entries.map Prod.fst).Nodup)
    (hvalues : ∀ e ∈ entries, ∀ v, nodeValue? e.2 = some v → v.WellFormed)
    (h : toDocument? entries = some doc) :
    doc.WellFormed ∧ doc.keys = entries.map Prod.fst := by
  induction entries generalizing doc with
  | nil =>
    obtain rfl : [] = doc := by simpa [toDocument?] using h
    exact ⟨Document.wellFormed_nil, rfl⟩
  | cons entry rest ih =>
    obtain ⟨key, node⟩ := entry
    rw [toDocument?] at h
    obtain ⟨v, hv, h⟩ := Option.bind_eq_some_iff.mp h
    obtain ⟨rest', hrest, h⟩ := Option.bind_eq_some_iff.mp h
    obtain rfl := Option.some.inj h
    obtain ⟨hhead, htail⟩ := List.nodup_cons.mp hdistinct
    obtain ⟨hwf, hkeys⟩ := ih htail (fun e he => hvalues e (List.mem_cons_of_mem _ he)) hrest
    refine ⟨⟨?_, ?_⟩, ?_⟩
    · rw [Document.distinct_cons, hkeys]
      exact ⟨hhead, hwf.distinct⟩
    · exact List.forall_mem_cons.mpr ⟨hvalues _ List.mem_cons_self v hv, hwf.values⟩
    · rw [Document.keys_cons, hkeys, List.map_cons]

theorem wellFormed_of_tableValue? {entries : Entries} {v : Value}
    (hdistinct : (entries.map Prod.fst).Nodup)
    (hvalues : ∀ e ∈ entries, ∀ v, nodeValue? e.2 = some v → v.WellFormed)
    (h : tableValue? entries = some v) : v.WellFormed := by
  cases entries with
  | nil =>
    obtain rfl : Value.table [] = v := by simpa [tableValue?] using h
    exact Value.wellFormed_table_iff.mpr Document.wellFormed_nil
  | cons entry rest =>
    obtain ⟨key, node⟩ := entry
    rw [tableValue?] at h
    split at h
    · -- the table stands for a moment, which is a text
      unfold moment? at h
      split at h
      · obtain ⟨text, -, rfl⟩ := Option.map_eq_some_iff.mp h
        exact .string _
      · simp at h
    · obtain ⟨w, hw, h⟩ := Option.bind_eq_some_iff.mp h
      obtain ⟨rest', hrest, h⟩ := Option.bind_eq_some_iff.mp h
      obtain rfl := Option.some.inj h
      have hdoc : toDocument? ((key, node) :: rest) = some ((key, w) :: rest') := by
        rw [toDocument?, hw, hrest]
        rfl
      exact Value.wellFormed_table_iff.mpr (wellFormed_of_toDocument? hdistinct hvalues hdoc).1

theorem forall_mem_of_nodesValues? {nodes : List Node} {vs : List Value}
    (hvalues : ∀ node ∈ nodes, ∀ v, nodeValue? node = some v → v.WellFormed)
    (h : nodesValues? nodes = some vs) : ∀ v ∈ vs, v.WellFormed := by
  induction nodes generalizing vs with
  | nil =>
    obtain rfl : [] = vs := by simpa [nodesValues?] using h
    simp
  | cons node rest ih =>
    rw [nodesValues?] at h
    obtain ⟨v, hv, h⟩ := Option.bind_eq_some_iff.mp h
    obtain ⟨rest', hrest, h⟩ := Option.bind_eq_some_iff.mp h
    obtain rfl := Option.some.inj h
    refine List.forall_mem_cons.mpr ⟨hvalues node List.mem_cons_self v hv, ?_⟩
    exact ih (fun n hn => hvalues n (List.mem_cons_of_mem _ hn)) hrest

theorem forall_mem_of_tablesValues? {items : List Entries} {vs : List Value}
    (hdistinct : ∀ entries ∈ items, (entries.map Prod.fst).Nodup)
    (hvalues : ∀ entries ∈ items, ∀ e ∈ entries, ∀ v, nodeValue? e.2 = some v → v.WellFormed)
    (h : tablesValues? items = some vs) : ∀ v ∈ vs, v.WellFormed := by
  induction items generalizing vs with
  | nil =>
    obtain rfl : [] = vs := by simpa [tablesValues?] using h
    simp
  | cons entries rest ih =>
    rw [tablesValues?] at h
    obtain ⟨v, hv, h⟩ := Option.bind_eq_some_iff.mp h
    obtain ⟨rest', hrest, h⟩ := Option.bind_eq_some_iff.mp h
    obtain rfl := Option.some.inj h
    refine List.forall_mem_cons.mpr ⟨?_, ?_⟩
    · exact wellFormed_of_tableValue? (hdistinct _ List.mem_cons_self)
        (hvalues _ List.mem_cons_self) hv
    · exact ih (fun e he => hdistinct e (List.mem_cons_of_mem _ he))
        (fun e he => hvalues e (List.mem_cons_of_mem _ he)) hrest

/-- The value of a well-formed node is well-formed. -/
theorem wellFormed_of_nodeValue? {node : Node} (hnode : node.WellFormed) {v : Value}
    (h : nodeValue? node = some v) : v.WellFormed := by
  induction hnode generalizing v with
  | string s =>
    obtain rfl : Value.string s = v := by simpa [nodeValue?] using h
    exact .string s
  | scalar hv =>
    obtain rfl := Option.some.inj (by simpa [nodeValue?] using h)
    exact hv
  | array hitems ih =>
    rw [nodeValue?] at h
    obtain ⟨vs, hvs, rfl⟩ := Option.map_eq_some_iff.mp h
    exact .array (forall_mem_of_nodesValues? (fun n hn v hv => ih n hn hv) hvs)
  | table hdistinct hnodes ih =>
    rw [nodeValue?] at h
    exact wellFormed_of_tableValue? hdistinct (fun e he v hv => ih e he hv) h
  | tables hdistinct hnodes ih =>
    rw [nodeValue?] at h
    obtain ⟨vs, hvs, rfl⟩ := Option.map_eq_some_iff.mp h
    exact .array (forall_mem_of_tablesValues? hdistinct
      (fun entries hentries e he v hv => ih entries hentries e he hv) hvs)

end Entries

/-- No table of a TOML document has a key twice. -/
theorem wellFormed_of_ofString {text : String} {doc : Document} (h : ofString text = some doc) :
    doc.WellFormed := by
  obtain ⟨progress, hprogress, hdoc⟩ := Option.bind_eq_some_iff.mp h
  have hroot := wellFormed_of_readLines Entries.wellFormed_nil hprogress
  have hvalues : ∀ e ∈ progress.root, ∀ v, Entries.nodeValue? e.2 = some v → v.WellFormed :=
    fun e he v hv => Entries.wellFormed_of_nodeValue? (hroot.nodes e he) hv
  exact (Entries.wellFormed_of_toDocument? hroot.distinct hvalues hdoc).1

end LayeredConfig.Toml
