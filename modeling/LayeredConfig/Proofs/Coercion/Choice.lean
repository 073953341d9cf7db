/-
  LayeredConfig.Proofs.Coercion.Choice

  Unions as ordered choice.

  However the unions of a nest are grouped, all that counts is the row of their
  alternatives from left to right.  The first alternative that does not decline a
  value decides about it, with its value or with a failure that ends the search.
  If all decline, so does the nest, in the name of its outermost union
  (`coerce_nest`).
-/
import LayeredConfig.Proofs.Coercion.Steps

namespace LayeredConfig.TypeDesc

variable {environment : Environment} {type : TypeDesc} {raw : Value}

/-! ## Alternatives -/

/-- The alternatives of a nest of unions, from left to right. -/
def alternatives : TypeDesc → List TypeDesc
  | .union first second => first.alternatives ++ second.alternatives
  | type => [type]

/-- An alternative is no union itself. -/
theorem ne_union_of_mem_alternatives {t : TypeDesc} (h : t ∈ type.alternatives)
    (first second : TypeDesc) : t ≠ union first second := by
  induction type with
  | union a b ihFirst ihSecond =>
    rcases List.mem_append.mp h with h | h
    · exact ihFirst h
    · exact ihSecond h
  | _ =>
    obtain rfl := List.mem_singleton.mp h
    simp

theorem declines_union (first second : TypeDesc) (environment : Environment) (raw : Value) :
    (union first second).declines environment raw
      = (first.declines environment raw && second.declines environment raw) := by
  rw [declines, coerce_union]
  by_cases hfirst : first.declines environment raw = true
  · by_cases hsecond : second.declines environment raw = true
    · rw [if_pos hfirst, if_pos hsecond, hfirst, hsecond]
      rfl
    · rw [if_pos hfirst, if_neg hsecond, hfirst, Bool.true_and, declines]
  · rw [if_neg hfirst, Bool.eq_false_iff.mpr hfirst, Bool.false_and, ← declines]
    exact Bool.eq_false_iff.mpr hfirst

/-! ## The deciding alternative -/

/-- The alternative that decides about a value: the first that does not decline it. -/
def chosen? (environment : Environment) (type : TypeDesc) (raw : Value) : Option TypeDesc :=
  type.alternatives.find? fun t => !t.declines environment raw

theorem chosen?_union (first second : TypeDesc) (environment : Environment) (raw : Value) :
    (union first second).chosen? environment raw
      = (first.chosen? environment raw).or (second.chosen? environment raw) :=
  List.find?_append

theorem chosen?_eq_none_iff :
    type.chosen? environment raw = none
      ↔ ∀ t ∈ type.alternatives, t.declines environment raw = true := by
  simp [chosen?]

/-- A nest declines what none of its alternatives decides about. -/
theorem declines_eq_true_iff_chosen? :
    type.declines environment raw = true ↔ type.chosen? environment raw = none := by
  induction type with
  | union first second ihFirst ihSecond =>
    rw [declines_union, Bool.and_eq_true, ihFirst, ihSecond, chosen?_union, Option.or_eq_none_iff]
  | _ => simp [chosen?, alternatives]

/-- The deciding alternative has the outcome of the nest. -/
theorem coerce_of_chosen? {t : TypeDesc} (h : type.chosen? environment raw = some t) :
    type.coerce environment raw = t.coerce environment raw := by
  induction type with
  | union first second ihFirst ihSecond =>
    rw [chosen?_union] at h
    rw [coerce_union]
    -- the nest on the left decides unless none of its own alternatives does
    cases hfirst : first.chosen? environment raw with
    | none =>
      rw [hfirst, Option.none_or] at h
      have hsecond : ¬second.declines environment raw = true := by
        rw [declines_eq_true_iff_chosen?, h]
        simp
      rw [if_pos (declines_eq_true_iff_chosen?.mpr hfirst), if_neg hsecond]
      exact ihSecond h
    | some s =>
      have hdecides : ¬first.declines environment raw = true := by
        rw [declines_eq_true_iff_chosen?, hfirst]
        simp
      rw [hfirst, Option.some_or] at h
      rw [if_neg hdecides]
      exact ihFirst (hfirst.trans h)
  | _ =>
    obtain rfl := List.mem_singleton.mp (List.mem_of_find?_eq_some h)
    rfl

/-- Without a deciding alternative the outermost union fails. -/
theorem coerce_union_of_chosen?_eq_none {first second : TypeDesc}
    (h : (union first second).chosen? environment raw = none) :
    (union first second).coerce environment raw
      = .error (.conversion (union first second) raw .noAlternative) := by
  rw [chosen?_union, Option.or_eq_none_iff] at h
  rw [coerce_union, if_pos (declines_eq_true_iff_chosen?.mpr h.1),
    if_pos (declines_eq_true_iff_chosen?.mpr h.2)]

theorem chosen?_of_declines_before {before : List TypeDesc} {t : TypeDesc}
    (h : before ++ [t] <+: type.alternatives)
    (hbefore : ∀ s ∈ before, s.declines environment raw = true)
    (ht : t.declines environment raw = false) : type.chosen? environment raw = some t := by
  obtain ⟨after, hafter⟩ := h
  rw [chosen?, List.find?_eq_some_iff_append]
  refine ⟨by simp [ht], before, after, ?_, fun s hs => by simp [hbefore s hs]⟩
  rw [← hafter, List.append_assoc, List.singleton_append]

/-! ## Nests of unions -/

/-- A nest of unions is an ordered choice between its alternatives, none of which
    is a union.  If all decline, the outermost union reports the value as one that
    it cannot convert.  Otherwise the outcome is that of the first alternative that
    does not decline, whatever stands behind it.  Grouping the same alternatives in
    another way changes at most the name that a failed conversion is reported in. -/
theorem coerce_nest (environment : Environment) (first second : TypeDesc) (raw : Value) :
    (∀ t ∈ (union first second).alternatives, ∀ a b, t ≠ union a b)
      ∧ ((∀ t ∈ (union first second).alternatives, t.declines environment raw = true) →
        (union first second).coerce environment raw
          = .error (.conversion (union first second) raw .noAlternative))
      ∧ (∀ before t, before ++ [t] <+: (union first second).alternatives →
        (∀ s ∈ before, s.declines environment raw = true) → t.declines environment raw = false →
        (union first second).coerce environment raw = t.coerce environment raw)
      ∧ ∀ a b, (union a b).alternatives = (union first second).alternatives →
        (union a b).coerce environment raw = (union first second).coerce environment raw
          ∨ (union a b).coerce environment raw
              = .error (.conversion (union a b) raw .noAlternative)
            ∧ (union first second).coerce environment raw
              = .error (.conversion (union first second) raw .noAlternative) := by
  refine ⟨fun t ht => ne_union_of_mem_alternatives ht,
    fun hall => coerce_union_of_chosen?_eq_none (chosen?_eq_none_iff.mpr hall),
    fun before t hprefix hbefore ht =>
      coerce_of_chosen? (chosen?_of_declines_before hprefix hbefore ht),
    fun a b hsame => ?_⟩
  -- the row of alternatives is all that the deciding one depends on
  have hchosen : (union a b).chosen? environment raw
      = (union first second).chosen? environment raw := by
    rw [chosen?, chosen?, hsame]
  cases h : (union first second).chosen? environment raw with
  | none =>
    exact Or.inr ⟨coerce_union_of_chosen?_eq_none (hchosen.trans h),
      coerce_union_of_chosen?_eq_none h⟩
  | some t =>
    exact Or.inl ((coerce_of_chosen? (hchosen.trans h)).trans (coerce_of_chosen? h).symm)

/-- Lists between integers and strings: an empty list text ends the search, so that
    the strings never see it, in whichever way the three are grouped.  Without the
    strings all decline what is no value. -/
theorem coerce_nest_sizes :
    (union (union int (list int)) string).coerce .empty (.string "[]")
        = .error (.malformed (list int) "[]")
      ∧ (union int (union (list int) string)).coerce .empty (.string "[]")
        = .error (.malformed (list int) "[]")
      ∧ (union int (list int)).coerce .empty .null
        = .error (.conversion (union int (list int)) .null .noAlternative) := by
  have hlist : (list int).coerce .empty (.string "[]") = .error (.malformed (list int) "[]") := rfl
  obtain ⟨-, -, hfirst, hgrouped⟩ := coerce_nest .empty (union int (list int)) string (.string "[]")
  obtain ⟨-, hdeclined, -, -⟩ := coerce_nest .empty int (list int) .null
  have hleft := hfirst [int] (list int) ⟨[string], rfl⟩ (by decide) rfl
  refine ⟨hleft.trans hlist, ?_, hdeclined (by decide)⟩
  rcases hgrouped int (union (list int) string) rfl with hsame | ⟨-, hdeclined⟩
  · exact hsame.trans (hleft.trans hlist)
  · exact absurd (hleft.symm.trans hdeclined) (by rw [hlist]; simp)

end LayeredConfig.TypeDesc
