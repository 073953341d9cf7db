/-
  LayeredConfig.Proofs.Document.Paths

  Documents seen path by path.

  A path of keys leads through tables to a value.  Laying one document over
  another decides every path by itself: a leaf, which is anything but a table,
  is that of the upper document, or that of the lower one where the upper one
  neither binds the path nor cuts it off by another leaf
  (`at?_overlay_eq_some_iff`).  Where both have a table the keys are those of
  both (`at?_overlay_of_tables`).  So a layer that is laid over a document once
  more only turns keys round (`sameUpToOrder_overlay_overlay`).
-/
import LayeredConfig.Proofs.Document.WellFormed

namespace LayeredConfig

/-! ## Paths -/

namespace Value

/-- What a value has at the end of a path of keys, which leads through its
    tables.  The empty path ends at the value itself. -/
def at? : (v : Value) → (path : List String) → Option Value
  | v, [] => some v
  | .table entries, key :: path => (Document.find? key entries).bind fun v => v.at? path
  | _, _ :: _ => none

/-- Nothing of a value covers what lies below it at a path: the value has
    nothing there, and on the way it has tables only. -/
structure Exposes (v : Value) (path : List String) : Prop where
  unbound : v.at? path = none
  tables : ∀ start, start <+: path → ∀ w ∈ v.at? start, w.isTable = true

@[simp] theorem at?_nil (v : Value) : v.at? [] = some v := by
  cases v <;> rfl

@[simp] theorem at?_table_cons (entries : Document) (key : String) (path : List String) :
    (table entries).at? (key :: path) = (entries.find? key).bind fun v => v.at? path := rfl

/-- A path ends at what is no table. -/
theorem at?_cons_of_not_table {v : Value} (h : v.isTable = false) (key : String)
    (path : List String) : v.at? (key :: path) = none := by
  cases v with
  | table entries => exact absurd h (by simp [isTable])
  | _ => rfl

theorem not_exposes_of_not_table {v : Value} (h : v.isTable = false) (path : List String) :
    ¬v.Exposes path := by
  intro hexposes
  have htable := hexposes.tables [] (List.nil_prefix) v (at?_nil v)
  rw [h] at htable
  exact absurd htable (by simp)

/-- A table is as open as what it has at the first key of the path. -/
theorem exposes_table_cons_iff {entries : Document} {key : String} {path : List String} :
    (table entries).Exposes (key :: path) ↔ ∀ w ∈ entries.find? key, w.Exposes path := by
  cases hfind : entries.find? key with
  | none =>
    refine iff_of_true ⟨by simp [hfind], fun start hstart w hw => ?_⟩ (by simp)
    cases start with
    | nil => exact Option.some.inj hw ▸ rfl
    | cons k start =>
      obtain ⟨rfl, -⟩ := List.cons_prefix_cons.mp hstart
      simp [hfind] at hw
  | some v =>
    constructor
    · rintro ⟨hunbound, htables⟩ w ⟨⟩
      refine ⟨by simpa [hfind] using hunbound, fun start hstart u hu => ?_⟩
      exact htables (key :: start) (List.cons_prefix_cons.mpr ⟨rfl, hstart⟩) u
        (by simpa [hfind] using hu)
    · intro h
      obtain ⟨hunbound, htables⟩ := h v rfl
      refine ⟨by simpa [hfind] using hunbound, fun start hstart w hw => ?_⟩
      cases start with
      | nil => exact Option.some.inj hw ▸ rfl
      | cons k start =>
        obtain ⟨rfl, hrest⟩ := List.cons_prefix_cons.mp hstart
        exact htables start hrest w (by simpa [hfind] using hw)

/-- A path goes on in a table. -/
theorem exists_of_at?_cons {v w : Value} {key : String} {path : List String}
    (h : v.at? (key :: path) = some w) :
    ∃ (entries : Document) (u : Value), v = .table entries ∧ entries.find? key = some u
      ∧ u.at? path = some w := by
  cases v with
  | table entries =>
    obtain ⟨u, hu, hw⟩ := Option.bind_eq_some_iff.mp h
    exact ⟨entries, u, rfl, hu, hw⟩
  | _ => exact absurd h (by simp [at?])

theorem WellFormed.of_at? {v : Value} (hv : v.WellFormed) {path : List String} {w : Value}
    (h : v.at? path = some w) : w.WellFormed := by
  induction path generalizing v with
  | nil => exact Option.some.inj ((at?_nil v).symm.trans h) ▸ hv
  | cons key path ih =>
    obtain ⟨entries, u, rfl, hu, hw⟩ := exists_of_at?_cons h
    exact ih ((wellFormed_table_iff.mp hv).of_find? hu) hw

/-! ## Laying one value over another -/

/-- A leaf of what comes of laying a value over another is a leaf of the upper
    one, or one of the lower one that the upper one does not cover. -/
theorem at?_overlay_eq_some_iff {v : Value} (hv : v.WellFormed) {below : Option Value}
    (hbelow : ∀ w ∈ below, w.WellFormed) {path : List String} {x : Value}
    (hx : x.isTable = false) :
    (overlay below v).at? path = some x ↔
      v.at? path = some x ∨ ((below.bind fun w => w.at? path) = some x ∧ v.Exposes path) := by
  -- on the path: behind its first key lies what the two bind that key to
  induction path generalizing below v with
  | nil =>
    have hexposes : ¬v.Exposes [] := fun h => by simpa using h.unbound
    simp only [at?_nil, Option.some.injEq, hexposes, and_false, or_false]
    cases hv' : v.isTable with
    | false => rw [overlay_of_not_table hv']
    | true =>
      refine iff_of_false ?_ ?_
      · rintro rfl
        rw [isTable_overlay, hv'] at hx
        exact absurd hx (by simp)
      · rintro rfl
        rw [hv'] at hx
        exact absurd hx (by simp)
  | cons key path ih =>
    rcases isTable_or (some v) with ⟨upper, hupper⟩ | hflat
    · obtain rfl : v = .table upper := Option.some.inj hupper
      have hwf := wellFormed_table_iff.mp hv
      rcases isTable_or below with ⟨lower, rfl⟩ | hother
      · have hlower := wellFormed_table_iff.mp (hbelow _ rfl)
        rw [overlay_table_table, Option.bind_some, exposes_table_cons_iff, at?_table_cons,
          at?_table_cons, at?_table_cons, Document.find?_overlay hlower.distinct hwf.distinct]
        cases hfind : Document.find? key upper with
        | none => simp [stack]
        | some w =>
          have hw := hwf.of_find? hfind
          simpa [stack] using ih hw fun u hu => hlower.of_find? hu
      · -- what is no table has nothing at a longer path
        have hnone : (below.bind fun w => w.at? (key :: path)) = none := by
          cases below with
          | none => rfl
          | some w => exact at?_cons_of_not_table (isTable_eq_false hother) key path
        have hkept : overlay below (.table upper) = .table upper :=
          Option.some.inj (stack_of_below hother _)
        simp [hkept, hnone]
    · have hleaf := isTable_eq_false hflat
      rw [overlay_of_not_table hleaf, at?_cons_of_not_table hleaf]
      simp [not_exposes_of_not_table hleaf]

/-- Where two values have tables at the end of a path, the one laid over the
    other has the one table laid over the other there. -/
theorem at?_overlay_of_tables {below v : Value} (hv : v.WellFormed) (hbelow : below.WellFormed)
    {path : List String} {lower upper : Document} (hlow : below.at? path = some (.table lower))
    (hup : v.at? path = some (.table upper)) :
    (overlay (some below) v).at? path = some (.table (Document.overlay lower upper)) := by
  induction path generalizing below v with
  | nil =>
    obtain rfl : below = .table lower := Option.some.inj ((at?_nil below).symm.trans hlow)
    obtain rfl : v = .table upper := Option.some.inj ((at?_nil v).symm.trans hup)
    rw [overlay_table_table, at?_nil]
  | cons key path ih =>
    obtain ⟨bottom, first, rfl, hfirst, hlow⟩ := exists_of_at?_cons hlow
    obtain ⟨top, second, rfl, hsecond, hup⟩ := exists_of_at?_cons hup
    have hbottom := wellFormed_table_iff.mp hbelow
    have htop := wellFormed_table_iff.mp hv
    rw [overlay_table_table, at?_table_cons,
      Document.find?_overlay hbottom.distinct htop.distinct, hfirst, hsecond]
    exact ih (htop.of_find? hsecond) (hbottom.of_find? hfirst) hlow hup

end Value

/-! ## The order of keys -/

/-- One value is another but for the order in which the keys of its tables
    stand, however deep these lie. -/
inductive Value.SameUpToOrder : Value → Value → Prop where
  | refl (v : Value) : SameUpToOrder v v
  | table {first second : Document} (hkeys : (Document.keys first).Perm (Document.keys second))
      (hvalues : ∀ key v w, first.find? key = some v → second.find? key = some w →
        SameUpToOrder v w) : SameUpToOrder (.table first) (.table second)

namespace Document

/-- One document is another but for the order in which the keys stand, at the
    top and in its tables. -/
def SameUpToOrder (first second : Document) : Prop :=
  (Value.table first).SameUpToOrder (.table second)

/-- Documents with different keys are the same up to order if they bind the same
    keys, and these to the same up to order. -/
theorem sameUpToOrder_of_find? {first second : Document} (hfirst : first.Distinct)
    (hsecond : second.Distinct) (hbinds : ∀ key, first.binds key = second.binds key)
    (hvalues : ∀ key v w, first.find? key = some v → second.find? key = some w →
      v.SameUpToOrder w) : first.SameUpToOrder second := by
  refine .table ((List.perm_ext_iff_of_nodup hfirst hsecond).mpr fun key => ?_) hvalues
  rw [← binds_iff, ← binds_iff, hbinds]

/-- Documents with different keys that bind every key to the same only differ in
    the order of their keys. -/
theorem sameUpToOrder_of_find?_eq {first second : Document} (hfirst : first.Distinct)
    (hsecond : second.Distinct) (h : ∀ key, first.find? key = second.find? key) :
    first.SameUpToOrder second := by
  refine sameUpToOrder_of_find? hfirst hsecond (fun key => ?_) fun key v w hv hw => ?_
  · rw [binds, binds, h]
  · obtain rfl : v = w := Option.some.inj (hv.symm.trans ((h key).trans hw))
    exact .refl v

end Document

/-- Laying a value over something once more only turns keys round. -/
theorem Value.sameUpToOrder_overlay_overlay {v : Value} (hv : v.WellFormed)
    {below : Option Value} (hbelow : ∀ w ∈ below, w.WellFormed) :
    (overlay (some (overlay below v)) v).SameUpToOrder (overlay below v) := by
  induction hv generalizing below with
  | @table upper hdistinct hvalues ih =>
    have hupper : Document.WellFormed upper := ⟨hdistinct, hvalues⟩
    -- below a table nothing but a table counts
    obtain ⟨lower, hlower, hkept⟩ : ∃ lower : Document, lower.WellFormed
        ∧ overlay below (.table upper) = .table (Document.overlay lower upper) := by
      rcases isTable_or below with ⟨lower, rfl⟩ | hother
      · exact ⟨lower, wellFormed_table_iff.mp (hbelow _ rfl), overlay_table_table lower upper⟩
      · refine ⟨[], Document.wellFormed_nil, ?_⟩
        rw [Document.nil_overlay hdistinct]
        exact Option.some.inj (stack_of_below hother _)
    have honce := hlower.overlay hupper
    rw [hkept, overlay_table_table]
    refine Document.sameUpToOrder_of_find? (honce.overlay hupper).distinct honce.distinct
      (fun key => ?_) fun key u w hu hw => ?_
    · rw [Document.binds_overlay honce.distinct hdistinct,
        Document.binds_overlay hlower.distinct hdistinct, Bool.or_assoc, Bool.or_self]
    · rw [Document.find?_overlay honce.distinct hdistinct, hw] at hu
      rw [Document.find?_overlay hlower.distinct hdistinct] at hw
      cases hfind : upper.find? key with
      | none =>
        obtain rfl : w = u := by simpa [hfind] using hu
        exact .refl w
      | some x =>
        rw [hfind, stack, Option.some.injEq] at hu hw
        subst hw
        subst hu
        exact ih (key, x) (Document.mem_of_find?_eq_some hfind) fun y hy => hlower.of_find? hy
  | null => simpa [overlay] using SameUpToOrder.refl _
  | bool b => simpa [overlay] using SameUpToOrder.refl _
  | number n => simpa [overlay] using SameUpToOrder.refl _
  | string s => simpa [overlay] using SameUpToOrder.refl _
  | array hitems _ => simpa [overlay] using SameUpToOrder.refl _

/-! ## Documents over one another -/

namespace Document

/-- What a document has at the end of a path of keys. -/
abbrev at? (doc : Document) (path : List String) : Option Value :=
  (Value.table doc).at? path

variable {lower upper : Document}

/-- Laying one document over another, leaf by leaf.  No key comes to stand twice.
    Where both have a table, the document itself included, the keys are those of
    both.  A leaf is that of the upper document, or that of the lower one where
    the upper one has nothing and does not cut off the path by a leaf of its own.
    So an empty document adds nothing, and up to the order of keys neither does
    a document over itself, or the upper one once more. -/
theorem overlay_leaf_by_leaf (hlower : lower.WellFormed) (hupper : upper.WellFormed) :
    (overlay lower upper).WellFormed
      ∧ (∀ path (below above : Document), lower.at? path = some (.table below) →
          upper.at? path = some (.table above) →
          ∃ merged : Document, (overlay lower upper).at? path = some (.table merged)
            ∧ ∀ key, key ∈ keys merged ↔ key ∈ keys below ∨ key ∈ keys above)
      ∧ (∀ path x, x.isTable = false →
          ((overlay lower upper).at? path = some x ↔
            upper.at? path = some x
              ∨ lower.at? path = some x ∧ (Value.table upper).Exposes path))
      ∧ overlay [] upper = upper ∧ overlay lower [] = lower
      ∧ (overlay upper upper).SameUpToOrder upper
      ∧ (overlay (overlay lower upper) upper).SameUpToOrder (overlay lower upper) := by
  have hbelow := Value.wellFormed_table_iff.mpr hlower
  have habove := Value.wellFormed_table_iff.mpr hupper
  have hsome : ∀ w ∈ some (Value.table lower), w.WellFormed := by rintro _ ⟨⟩; exact hbelow
  have hnone : ∀ w ∈ (none : Option Value), w.WellFormed := by simp
  refine ⟨hlower.overlay hupper, fun path below above hlow hup => ?_, fun path x hx => ?_,
    nil_overlay hupper.distinct, overlay_nil lower, ?_, ?_⟩
  · have hmerged := Value.at?_overlay_of_tables habove hbelow hlow hup
    rw [Value.overlay_table_table] at hmerged
    refine ⟨overlay below above, hmerged, fun key => ?_⟩
    have hfirst := (Value.wellFormed_table_iff.mp (hbelow.of_at? hlow)).distinct
    have hsecond := (Value.wellFormed_table_iff.mp (habove.of_at? hup)).distinct
    rw [← binds_iff, ← binds_iff, ← binds_iff, binds_overlay hfirst hsecond, Bool.or_eq_true]
  · show (Value.table (overlay lower upper)).at? path = some x ↔ _
    rw [← Value.overlay_table_table, Value.at?_overlay_eq_some_iff habove hsome hx]
    rfl
  · have hself := Value.sameUpToOrder_overlay_overlay habove hnone
    rwa [Value.overlay_none, Value.overlay_table_table] at hself
  · have htwice := Value.sameUpToOrder_overlay_overlay habove hsome
    rwa [Value.overlay_table_table, Value.overlay_table_table] at htwice

/-- A document with two sections, one of which gets a key and the other of which
    gives way to a number. -/
theorem overlay_leaf_by_leaf_sections :
    let lower : Document := [("edge", .table [("host", .string "a"), ("port", .int 80)]),
      ("core", .table [("host", .string "b")])]
    let upper : Document := [("core", .int 1), ("edge", .table [("port", .int 90)])]
    let merged := overlay lower upper
    lower.WellFormed ∧ upper.WellFormed ∧ merged.WellFormed
      ∧ (∃ edge : Document, merged.at? ["edge"] = some (.table edge)
        ∧ ∀ key, key ∈ keys edge ↔ key ∈ ["host", "port"] ∨ key ∈ ["port"])
      ∧ merged.at? ["edge", "host"] = some (.string "a")
      ∧ merged.at? ["core", "host"] ≠ some (.string "b")
      ∧ (overlay merged upper).SameUpToOrder merged := by
  intro lower upper merged
  obtain ⟨hlower, hupper⟩ : lower.WellFormed ∧ upper.WellFormed := by
    simp [lower, upper, wellFormed_cons, wellFormed_nil, Value.wellFormed_table_iff,
      Value.WellFormed.string, Value.WellFormed.number]
  obtain ⟨hmerged, htables, hleaves, -, -, -, htwice⟩ := overlay_leaf_by_leaf hlower hupper
  refine ⟨hlower, hupper, hmerged, htables ["edge"] _ _ rfl rfl, ?_, ?_, htwice⟩
  · refine (hleaves _ _ rfl).mpr (.inr ⟨rfl, ?_⟩)
    simp [upper, Value.exposes_table_cons_iff, find?]
  · rw [ne_eq, hleaves _ _ rfl]
    rintro (habove | ⟨-, hexposes⟩)
    · exact absurd habove (by simp [upper, find?, Value.at?])
    · have hcore := Value.exposes_table_cons_iff.mp hexposes (.int 1) rfl
      exact Value.not_exposes_of_not_table rfl _ hcore

end Document

end LayeredConfig
