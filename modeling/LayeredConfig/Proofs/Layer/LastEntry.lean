/-
  LayeredConfig.Proofs.Layer.LastEntry

  Lists of entries that each set a place, of which the last for a place counts.

  The layers above the files are made of such entries: environment variables set
  places to texts, and overrides set them to values.
-/
import LayeredConfig.Layer.Override
import Mathlib.Data.List.Nodup

namespace LayeredConfig

variable {α : Type} {entries : List (Address × α)} {address : Address}

/-- What the last entry for a place sets it to. -/
def lastAt (entries : List (Address × α)) (address : Address) : Option α :=
  (entries.reverse.find? fun e => e.1 = address).map Prod.snd

/-- No entry is for a key at the top or for a place in the section of its name. -/
def Untouched (entries : List (Address × α)) (key : String) : Prop :=
  ∀ e ∈ entries, e.1 ≠ ⟨none, key⟩ ∧ e.1.sectionName ≠ some key

instance (entries : List (Address × α)) (key : String) : Decidable (Untouched entries key) :=
  inferInstanceAs (Decidable (∀ e ∈ entries, e.1 ≠ ⟨none, key⟩ ∧ e.1.sectionName ≠ some key))

/-- Later entries come first. -/
theorem lastAt_append (earlier later : List (Address × α)) (address : Address) :
    lastAt (earlier ++ later) address = (lastAt later address).or (lastAt earlier address) := by
  rw [lastAt, List.reverse_append, List.find?_append, Option.map_or]
  rfl

theorem lastAt_singleton (target : Address) (v : α) (address : Address) :
    lastAt [(target, v)] address = if target = address then some v else none := by
  by_cases h : target = address <;> simp [lastAt, h]

theorem lastAt_concat_of_ne {target : Address} (h : target ≠ address)
    (entries : List (Address × α)) (v : α) :
    lastAt (entries ++ [(target, v)]) address = lastAt entries address := by
  rw [lastAt_append, lastAt_singleton, if_neg h, Option.none_or]

theorem lastAt_concat_self (entries : List (Address × α)) (address : Address) (v : α) :
    lastAt (entries ++ [(address, v)]) address = some v := by
  rw [lastAt_append, lastAt_singleton, if_pos rfl, Option.some_or]

theorem lastAt_eq_none_iff : lastAt entries address = none ↔ ∀ e ∈ entries, e.1 ≠ address := by
  simp [lastAt, List.find?_eq_none]

theorem mem_of_lastAt_eq_some {v : α} (h : lastAt entries address = some v) :
    (address, v) ∈ entries := by
  obtain ⟨⟨target, w⟩, hfind, rfl⟩ := Option.map_eq_some_iff.mp h
  obtain rfl : target = address := by simpa using List.find?_some hfind
  exact List.mem_reverse.mp (List.mem_of_find?_eq_some hfind)

theorem Untouched.lastAt_eq_none {key : String} (h : Untouched entries key)
    (hplace : address = ⟨none, key⟩ ∨ address.sectionName = some key) :
    lastAt entries address = none := by
  refine lastAt_eq_none_iff.mpr fun e he heq => ?_
  rcases hplace with rfl | hsection
  · exact (h e he).1 heq
  · exact (h e he).2 (heq ▸ hsection)

/-- Where all entries are for different places, each is the last for its own. -/
theorem lastAt_eq_some_iff_mem (h : (entries.map Prod.fst).Nodup) {v : α} :
    lastAt entries address = some v ↔ (address, v) ∈ entries := by
  refine ⟨mem_of_lastAt_eq_some, fun hmem => ?_⟩
  cases hlast : lastAt entries address with
  | none => exact absurd rfl (lastAt_eq_none_iff.mp hlast _ hmem)
  | some w =>
    have hsame : ((address, w) : Address × α) = (address, v) :=
      List.inj_on_of_nodup_map h (mem_of_lastAt_eq_some hlast) hmem rfl
    rw [(Prod.mk.inj hsame).2]

/-- The order of entries for different places does not count. -/
theorem lastAt_eq_of_perm {other : List (Address × α)} (h : (entries.map Prod.fst).Nodup)
    (hperm : entries.Perm other) (address : Address) :
    lastAt entries address = lastAt other address := by
  have hother : (other.map Prod.fst).Nodup := (hperm.map Prod.fst).nodup_iff.mp h
  refine Option.ext fun v => ?_
  rw [lastAt_eq_some_iff_mem h, lastAt_eq_some_iff_mem hother]
  exact hperm.mem_iff

end LayeredConfig
