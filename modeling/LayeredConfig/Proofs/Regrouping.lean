/-
  LayeredConfig.Proofs.Regrouping

  Laying three layers over one another in one order or the other.

  Whether the upper two are merged first or the lower two is not always the
  same: something that is no table hides the table below it from the table above
  it in one grouping and not in the other, and keys may come out in different
  orders.  `Value.Regroups` says when a place is safe.  Of the keys that a schema
  does not declare only the sections count, and in these only the settings, so
  that documents that regroup there agree (`Regroups.agree`).
-/
import LayeredConfig.Proofs.Agreement
import LayeredConfig.Proofs.Layers

namespace LayeredConfig

/-! ## Places -/

/-- Three layers at one place come to the same in either grouping.  Only where
    the layers at the bottom and on top have tables something is asked: with a
    table between them that the three tables merge to the same, and with
    something else between them that the bottom adds nothing to the top. -/
def Value.Regroups (bottom middle top : Option Value) : Prop :=
  ∀ lower upper, bottom = some (.table lower) → top = some (.table upper) →
    match middle with
    | none => True
    | some (.table between) =>
      Document.overlay lower (Document.overlay between upper)
        = Document.overlay (Document.overlay lower between) upper
    | some _ => Document.overlay lower upper = upper

namespace Value

theorem regroups_of_not_table {v : Value} (h : v.isTable = false) {lower upper : Document} :
    Regroups (some (.table lower)) (some v) (some (.table upper)) ↔
      Document.overlay lower upper = upper := by
  cases v with
  | table between => exact absurd h (by simp [isTable])
  | _ => simp [Regroups]

/-- `Regroups` is what it takes to regroup. -/
theorem stack_stack_eq_iff {bottom middle top : Option Value} :
    stack bottom (stack middle top) = stack (stack bottom middle) top ↔
      Regroups bottom middle top := by
  -- the bottom matters only where it and the top are tables
  rcases isTable_or top with ⟨upper, rfl⟩ | htop
  · rcases isTable_or bottom with ⟨lower, rfl⟩ | hbottom
    · cases middle with
      | none => simp [Regroups]
      | some m =>
        rcases isTable_or (some m) with ⟨between, hm⟩ | hm
        · obtain rfl : m = .table between := Option.some.inj hm
          simp [Regroups]
        · have hflat := isTable_eq_false hm
          rw [regroups_of_not_table hflat, stack_of_not_table hflat, stack_of_below hm,
            stack_table_table, Option.some.injEq, table.injEq]
    · have hregroups : Regroups bottom middle (some (.table upper)) :=
        fun lower _ hlower _ => absurd hlower (hbottom lower)
      refine iff_of_true ?_ hregroups
      cases middle with
      | none => rw [none_stack, stack_none]
      | some m => rw [stack_of_below hbottom m, stack, stack_of_below hbottom]
  · have hregroups : Regroups bottom middle top :=
      fun _ upper _ hupper => absurd hupper (htop upper)
    refine iff_of_true ?_ hregroups
    cases top with
    | none => rfl
    | some t =>
      have ht := isTable_eq_false htop
      rw [stack_of_not_table ht, stack_of_not_table ht, stack_of_not_table ht]

/-- Only a table over something over a table can fail to regroup. -/
theorem tables_of_not_regroups {bottom middle top : Option Value}
    (h : ¬Regroups bottom middle top) : ∃ (lower : Document) (between : Value) (upper : Document),
      bottom = some (.table lower) ∧ middle = some between ∧ top = some (.table upper) := by
  rcases isTable_or top with ⟨upper, rfl⟩ | htop
  · rcases isTable_or bottom with ⟨lower, rfl⟩ | hbottom
    · cases middle with
      | none => exact absurd (stack_stack_eq_iff.mp (by rw [none_stack, stack_none])) h
      | some between => exact ⟨lower, between, upper, rfl, rfl, rfl⟩
    · exact absurd (fun lower _ hlower _ => absurd hlower (hbottom lower)) h
  · exact absurd (fun _ upper _ hupper => absurd hupper (htop upper)) h

/-- Where the groupings differ they differ in the table that they make. -/
theorem exists_tables_of_not_regroups {bottom middle top : Option Value}
    (h : ¬Regroups bottom middle top) : ∃ first second,
      stack bottom (stack middle top) = some (.table first)
        ∧ stack (stack bottom middle) top = some (.table second) ∧ first ≠ second := by
  have hne : stack bottom (stack middle top) ≠ stack (stack bottom middle) top :=
    fun heq => h (stack_stack_eq_iff.mp heq)
  obtain ⟨_, _, upper, -, -, rfl⟩ := tables_of_not_regroups h
  obtain ⟨above, habove⟩ := exists_stack_table middle upper
  obtain ⟨first, hfirst⟩ := exists_stack_table bottom above
  obtain ⟨second, hsecond⟩ := exists_stack_table (stack bottom middle) upper
  rw [habove, hfirst, hsecond] at hne
  rw [habove]
  refine ⟨first, second, hfirst, hsecond, ?_⟩
  rintro rfl
  exact hne rfl

end Value

/-! ## Documents in turn -/

namespace Document

/-- Laying three documents over one another, the upper two first. -/
theorem find?_overlay_overlay_right {bottom middle top : Document} (hbottom : bottom.Distinct)
    (hmiddle : middle.Distinct) (htop : top.Distinct) (key : String) :
    find? key (overlay bottom (overlay middle top))
      = Value.stack (bottom.find? key) (Value.stack (middle.find? key) (top.find? key)) := by
  rw [find?_overlay hbottom (hmiddle.overlay top), find?_overlay hmiddle htop]

/-- Laying three documents over one another in turn. -/
theorem find?_overlay_overlay_left {bottom middle top : Document} (hbottom : bottom.Distinct)
    (hmiddle : middle.Distinct) (htop : top.Distinct) (key : String) :
    find? key (overlay (overlay bottom middle) top)
      = Value.stack (Value.stack (bottom.find? key) (middle.find? key)) (top.find? key) := by
  rw [find?_overlay (hbottom.overlay middle) htop, find?_overlay hbottom hmiddle]

end Document

namespace Schema

variable {environment : Environment} {schema : Schema} {strict : Bool}

/-- Three documents come to the same for a schema in either grouping: at the
    settings, and at the settings in the sections. -/
structure Regroups (schema : Schema) (bottom middle top : Document) : Prop where
  settings : ∀ key, schema.declares key = true →
    Value.Regroups (bottom.find? key) (middle.find? key) (top.find? key)
  sections : ∀ name, schema.declares name = false → ∀ lower upper : Document,
    bottom.find? name = some (.table lower) → top.find? name = some (.table upper) →
    ∀ key, schema.declares key = true →
      match middle.find? name with
      | none => True
      | some (.table between) =>
        Value.Regroups (lower.find? key) (Document.find? key between) (upper.find? key)
      | some _ => Value.stack (lower.find? key) (upper.find? key) = upper.find? key

/-- In strict mode the sections of a document only have keys that are settings. -/
def KnowsSections (schema : Schema) (strict : Bool) (doc : Document) : Prop :=
  strict = true → ∀ name (entries : Document), schema.declares name = false →
    doc.find? name = some (.table entries) → ∀ key ∈ Document.keys entries,
      schema.declares key = true

theorem Admits.knowsSections {doc : Document} (h : schema.Admits strict doc) :
    schema.KnowsSections strict doc := by
  intro hstrict name entries hname hfind key hkey
  have hknown := List.flatMap_eq_nil_iff.mp (h.known hstrict) _
    (Document.mem_of_find?_eq_some hfind)
  simp only [hname, Bool.false_eq_true, if_false, unknownKeysOf, List.map_eq_nil_iff,
    List.filter_eq_nil_iff, Bool.not_eq_true', Bool.not_eq_false] at hknown
  exact hknown key hkey

theorem KnowsSections.overlay {lower upper : Document} (hlower : lower.WellFormed)
    (hupper : upper.WellFormed) (hbelow : schema.KnowsSections strict lower)
    (habove : schema.KnowsSections strict upper) :
    schema.KnowsSections strict (Document.overlay lower upper) := by
  intro hstrict name entries hname hfind key hkey
  -- a table that is on top of another has the keys of both, and any other is one of the two
  rw [Document.find?_overlay hlower.distinct hupper.distinct] at hfind
  rcases Value.isTable_or (upper.find? name) with ⟨above, hup⟩ | hup
  · rcases Value.isTable_or (lower.find? name) with ⟨below, hlow⟩ | hlow
    · rw [hlow, hup, Value.stack_table_table, Option.some.injEq, Value.table.injEq] at hfind
      have hdistinct := hlower.distinct_of_find? hlow
      have hdistinct' := hupper.distinct_of_find? hup
      rw [← hfind, ← Document.binds_iff, Document.binds_overlay hdistinct hdistinct',
        Bool.or_eq_true, Document.binds_iff, Document.binds_iff] at hkey
      rcases hkey with hkey | hkey
      · exact hbelow hstrict name below hname hlow key hkey
      · exact habove hstrict name above hname hup key hkey
    · rw [hup, Value.stack_of_below hlow, Option.some.injEq, Value.table.injEq] at hfind
      exact habove hstrict name above hname hup key (hfind ▸ hkey)
  · cases hupper' : upper.find? name with
    | none =>
      rw [hupper', Value.stack_none] at hfind
      exact hbelow hstrict name entries hname hfind key hkey
    | some v =>
      have htable : v.isTable = true := by
        rw [hupper', Value.stack, Option.some.injEq] at hfind
        rw [← Value.isTable_overlay (lower.find? name) v, hfind]
        rfl
      obtain ⟨above, rfl⟩ := Value.isTable_iff.mp htable
      exact absurd hupper' (hup above)

theorem knowsSections_ofLayers {docs : List Document} (hdocs : ∀ doc ∈ docs, doc.WellFormed)
    (hadmits : ∀ doc ∈ docs, schema.Admits strict doc) :
    schema.KnowsSections strict (Document.ofLayers docs) := by
  -- what is merged so far has to be well-formed for the next layer to be laid over it
  have hfold : (Document.ofLayers docs).WellFormed
      ∧ schema.KnowsSections strict (Document.ofLayers docs) := by
    refine List.foldlRecOn (motive := fun merged : Document =>
      merged.WellFormed ∧ schema.KnowsSections strict merged) docs _
        ⟨Document.wellFormed_nil, ?_⟩ ?_
    · intro _ name entries _ hfind
      simp [Document.find?] at hfind
    · rintro merged ⟨hmerged, hknows⟩ doc hdoc
      exact ⟨hmerged.overlay (hdocs doc hdoc),
        hknows.overlay hmerged (hdocs doc hdoc) (hadmits doc hdoc).knowsSections⟩
  exact hfold.2

/-- Sections of three layers, each of them a table. -/
theorem sectionsAgree_overlay_overlay {lower between upper : Document}
    (hlower : lower.Distinct) (hbetween : between.Distinct) (hupper : upper.Distinct)
    (h : ∀ key, schema.declares key = true →
      Value.Regroups (lower.find? key) (between.find? key) (upper.find? key)) :
    schema.SectionsAgree strict (Document.overlay lower (Document.overlay between upper))
      (Document.overlay (Document.overlay lower between) upper) := by
  refine ⟨fun key hkey => ?_, fun _ key _ => ?_⟩
  · rw [Document.find?_overlay_overlay_right hlower hbetween hupper,
      Document.find?_overlay_overlay_left hlower hbetween hupper]
    exact Value.stack_stack_eq_iff.mpr (h key hkey)
  · rw [Document.binds_overlay hlower (hbetween.overlay upper),
      Document.binds_overlay hbetween hupper,
      Document.binds_overlay (hlower.overlay between) hupper,
      Document.binds_overlay hlower hbetween, Bool.or_assoc]

/-- Sections of three layers, that in the middle no table. -/
theorem sectionsAgree_overlay {lower upper : Document} (hlower : lower.Distinct)
    (hupper : upper.Distinct)
    (h : ∀ key, schema.declares key = true →
      Value.stack (lower.find? key) (upper.find? key) = upper.find? key)
    (hknown : strict = true → ∀ key ∈ Document.keys lower, schema.declares key = true) :
    schema.SectionsAgree strict (Document.overlay lower upper) upper := by
  refine ⟨fun key hkey => ?_, fun hstrict key hkey => ?_⟩
  · rw [Document.find?_overlay hlower hupper, h key hkey]
  · have hnone : lower.binds key = false := by
      rw [Bool.eq_false_iff]
      intro hbinds
      have hdeclared := hknown hstrict key (Document.binds_iff.mp hbinds)
      rw [hkey] at hdeclared
      exact absurd hdeclared (by simp)
    rw [Document.binds_overlay hlower hupper, hnone, Bool.false_or]

/-- Where three documents regroup for a schema, the sections of a name agree even
    if they are not the same. -/
theorem Regroups.sections_agree {bottom middle top : Document}
    (h : schema.Regroups bottom middle top) (hbottom : bottom.WellFormed)
    (hmiddle : middle.WellFormed) (htop : top.WellFormed)
    (hknows : schema.KnowsSections strict bottom) {name : String}
    (hname : schema.declares name = false) {lower upper : Document} {between : Value}
    (hlow : bottom.find? name = some (.table lower)) (hmid : middle.find? name = some between)
    (hup : top.find? name = some (.table upper)) :
    ∃ first second,
      Value.stack (some (.table lower)) (Value.stack (some between) (some (.table upper)))
          = some (.table first)
        ∧ Value.stack (Value.stack (some (.table lower)) (some between)) (some (.table upper))
          = some (.table second)
        ∧ schema.SectionsAgree strict first second := by
  have hlower := hbottom.distinct_of_find? hlow
  have hupper := htop.distinct_of_find? hup
  have hsettings := h.sections name hname lower upper hlow hup
  rw [hmid] at hsettings
  -- whether the middle is a section too decides what is left of the bottom
  rcases Value.isTable_or (some between) with ⟨entries, hentries⟩ | hflat
  · obtain rfl : between = .table entries := Option.some.inj hentries
    refine ⟨Document.overlay lower (Document.overlay entries upper),
      Document.overlay (Document.overlay lower entries) upper, ?_, ?_, ?_⟩
    · rw [Value.stack_table_table, Value.stack_table_table]
    · rw [Value.stack_table_table, Value.stack_table_table]
    · exact sectionsAgree_overlay_overlay hlower (hmiddle.distinct_of_find? hmid) hupper hsettings
  · -- in turn nothing of the bottom shows, so it must add nothing
    have hhidden : ∀ key, schema.declares key = true →
        Value.stack (lower.find? key) (upper.find? key) = upper.find? key := by
      intro key hkey
      have hkept := hsettings key hkey
      cases between with
      | table entries => exact absurd rfl (hflat entries)
      | _ => exact hkept
    refine ⟨Document.overlay lower upper, upper, ?_, ?_, ?_⟩
    · rw [Value.stack_of_below hflat, Value.stack_table_table]
    · rw [Value.stack_of_not_table (Value.isTable_eq_false hflat), Value.stack_of_below hflat]
    · exact sectionsAgree_overlay hlower hupper hhidden fun hstrict =>
        hknows hstrict name lower hname hlow

/-- Where three documents regroup for a schema, the two groupings agree. -/
theorem Regroups.agree {bottom middle top : Document} (h : schema.Regroups bottom middle top)
    (hbottom : bottom.WellFormed) (hmiddle : middle.WellFormed) (htop : top.WellFormed)
    (hknows : schema.KnowsSections strict bottom) :
    schema.Agree strict (Document.overlay bottom (Document.overlay middle top))
      (Document.overlay (Document.overlay bottom middle) top) := by
  refine ⟨fun key hkey => ?_, fun name hname => ?_⟩
  all_goals
    rw [Document.find?_overlay_overlay_right hbottom.distinct hmiddle.distinct htop.distinct,
      Document.find?_overlay_overlay_left hbottom.distinct hmiddle.distinct htop.distinct]
  · exact Value.stack_stack_eq_iff.mpr (h.settings key hkey)
  · by_cases hplace : Value.Regroups (bottom.find? name) (middle.find? name) (top.find? name)
    · exact Or.inl (Value.stack_stack_eq_iff.mpr hplace)
    · -- as values the two may differ, and still agree as sections
      obtain ⟨lower, between, upper, hlow, hmid, hup⟩ := Value.tables_of_not_regroups hplace
      rw [hlow, hmid, hup]
      exact Or.inr (h.sections_agree hbottom hmiddle htop hknows hname hlow hmid hup)

/-- What regroups at every key regroups for every schema. -/
theorem regroups_of_forall {bottom middle top : Document} (hbottom : bottom.WellFormed)
    (hmiddle : middle.WellFormed) (htop : top.WellFormed)
    (h : ∀ key, Value.Regroups (bottom.find? key) (middle.find? key) (top.find? key)) :
    schema.Regroups bottom middle top := by
  refine ⟨fun key _ => h key, fun name _ lower upper hlow hup key _ => ?_⟩
  have hplace := h name lower upper hlow hup
  have hlower := hbottom.distinct_of_find? hlow
  have hupper := htop.distinct_of_find? hup
  cases hmid : middle.find? name with
  | none => trivial
  | some between =>
    rw [hmid] at hplace
    cases between with
    | table entries =>
      have hentries := hmiddle.distinct_of_find? hmid
      have hfind := congrArg (Document.find? key) hplace
      rw [Document.find?_overlay_overlay_right hlower hentries hupper,
        Document.find?_overlay_overlay_left hlower hentries hupper] at hfind
      exact Value.stack_stack_eq_iff.mp hfind
    | _ =>
      have hfind := congrArg (Document.find? key) hplace
      rw [Document.find?_overlay hlower hupper] at hfind
      exact hfind

end Schema

end LayeredConfig
