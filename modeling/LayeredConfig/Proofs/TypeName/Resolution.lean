/-
  LayeredConfig.Proofs.TypeName.Resolution

  Types of names, and what is reported of names without one.

  The names inside of a name are entered one at a time, in the order in which
  they are resolved: the second part of a union is only entered behind a first
  part that denotes a type (`Enters`).  A name fails as the name that it enters
  fails, and what is reported in the end is the innermost name on that way, the
  one that no rule recognises (`resolveBy_eq_error_iff`).  That is the way of
  every name that denotes nothing.
-/
import Mathlib.Logic.Relation
import LayeredConfig.Error
import LayeredConfig.Proofs.TypeName.Denotation

namespace LayeredConfig.TypeDesc

open LayeredConfig.Text
open Relation (ReflTransGen)

/-! ## Steps to inner names -/

/-- One step from a name to a trimmed name inside of it, into the second part of
    a union only if the first denotes a type. -/
inductive Enters : List Char → List Char → Prop where
  | optional {name x : List Char} (hname : Encloses "Optional".toList x name)
      (hx : Balanced x) : Enters name (trim x)
  | list {name x : List Char} (hname : Encloses "List".toList x name)
      (hx : Balanced x) : Enters name (trim x)
  | first {name x y : List Char} (hname : Encloses "Union".toList (x ++ ',' :: y) name)
      (hx : IsUnionPart x) (hy : IsUnionPart y) : Enters name (trim x)
  | second {name x y : List Char} {t : TypeDesc}
      (hname : Encloses "Union".toList (x ++ ',' :: y) name)
      (hx : IsUnionPart x) (hy : IsUnionPart y) (ht : Denotes x t) : Enters name (trim y)

section Steps

variable {name part culprit : List Char}

theorem Enters.trim_eq (h : Enters name part) : trim part = part := by
  cases h <;> exact trim_trim _

theorem Enters.isInfix (h : Enters name part) : part <:+: name := by
  cases h with
  | optional hname hx => exact (isInfix_trim _).trans hname.inner_isInfix
  | list hname hx => exact (isInfix_trim _).trans hname.inner_isInfix
  | first hname hx hy => exact (isInfix_trim _).trans hname.parts_isInfix.1
  | second hname hx hy ht => exact (isInfix_trim _).trans hname.parts_isInfix.2

theorem Enters.length_lt (h : Enters name part) : part.length < name.length := by
  cases h with
  | optional hname hx => exact Nat.lt_of_le_of_lt (length_trim_le _) hname.length_lt
  | list hname hx => exact Nat.lt_of_le_of_lt (length_trim_le _) hname.length_lt
  | first hname hx hy =>
    have hparts := hname.length_lt
    rw [List.length_append, List.length_cons] at hparts
    exact Nat.lt_of_le_of_lt (length_trim_le _) (by omega)
  | second hname hx hy ht =>
    have hparts := hname.length_lt
    rw [List.length_append, List.length_cons] at hparts
    exact Nat.lt_of_le_of_lt (length_trim_le _) (by omega)

/-- A form fails with what a name that is entered fails with. -/
theorem Enters.exists_form (h : Enters name part) (hpart : resolveBy rules part = .error culprit) :
    ∃ (rule : Rule) (form : Form), rule.form? name = some form ∧ form.type = .error culprit := by
  cases h with
  | optional hname hx =>
    rw [resolveBy_trim] at hpart
    exact ⟨_, _, form?_optional_eq_some_iff.mpr ⟨_, hname, hx, rfl⟩,
      bind_eq_error_iff.mpr (Or.inl hpart)⟩
  | list hname hx =>
    rw [resolveBy_trim] at hpart
    exact ⟨_, _, form?_list_eq_some_iff.mpr ⟨_, hname, hx, rfl⟩,
      bind_eq_error_iff.mpr (Or.inl hpart)⟩
  | first hname hx hy =>
    exact ⟨_, _, form?_union_eq_some_iff.mpr ⟨_, _, hname, hx, hy, rfl⟩,
      bind_eq_error_iff.mpr (Or.inl hpart)⟩
  | second hname hx hy ht =>
    -- the first part has a type, so that it is the second part's turn
    have hfirst := (resolveBy_trim _).trans (resolveBy_of_denotes ht)
    exact ⟨_, _, form?_union_eq_some_iff.mpr ⟨_, _, hname, hx, hy, rfl⟩,
      bind_eq_error_iff.mpr (Or.inr ⟨_, hfirst, bind_eq_error_iff.mpr (Or.inl hpart)⟩)⟩

/-- If a form fails, a name is entered that fails with the same. -/
theorem exists_enters_of_type_eq_error {rule : Rule} {form : Form}
    (hform : rule.form? name = some form) (h : form.type = .error culprit) :
    ∃ part, Enters name part ∧ resolveBy rules part = .error culprit := by
  cases rule with
  | scalar =>
    obtain ⟨e, -, -, rfl⟩ := form?_scalar_eq_some_iff.mp hform
    cases h
  | optional =>
    obtain ⟨x, hname, hx, rfl⟩ := form?_optional_eq_some_iff.mp hform
    rcases bind_eq_error_iff.mp h with h | ⟨t, -, h⟩
    · exact ⟨trim x, .optional hname hx, (resolveBy_trim x).trans h⟩
    · cases h
  | list =>
    obtain ⟨x, hname, hx, rfl⟩ := form?_list_eq_some_iff.mp hform
    rcases bind_eq_error_iff.mp h with h | ⟨t, -, h⟩
    · exact ⟨trim x, .list hname hx, (resolveBy_trim x).trans h⟩
    · cases h
  | union =>
    obtain ⟨x, y, hname, hx, hy, rfl⟩ := form?_union_eq_some_iff.mp hform
    rcases bind_eq_error_iff.mp h with h | ⟨t, hfirst, h⟩
    · exact ⟨trim x, .first hname hx hy, h⟩
    · rw [resolveBy_trim] at hfirst
      rcases bind_eq_error_iff.mp h with h | ⟨u, -, h⟩
      · exact ⟨trim y, .second hname hx hy (denotes_of_resolveBy hfirst), h⟩
      · cases h
  | envExpression =>
    obtain ⟨-, rfl⟩ := form?_envExpression_eq_some_iff.mp hform
    cases h
  | expression =>
    obtain ⟨-, rfl⟩ := form?_expression_eq_some_iff.mp hform
    cases h

end Steps

/-! ## The way to the culprit -/

section Chains

variable {name part : List Char}

theorem trim_eq_of_reaches (h : ReflTransGen Enters name part) (hname : trim name = name) :
    trim part = part := by
  cases h with
  | refl => exact hname
  | tail _ hstep => exact hstep.trim_eq

theorem isInfix_of_reaches (h : ReflTransGen Enters name part) : part <:+: name := by
  induction h with
  | refl => exact List.infix_rfl
  | tail _ hstep ih => exact hstep.isInfix.trans ih

/-- Every name on the way to a name that no rule recognises fails with it. -/
theorem resolveBy_of_reaches (h : ReflTransGen Enters name part)
    (hpart : ∀ rule : Rule, rule.form? part = none) (hname : trim name = name) :
    resolveBy rules name = .error part := by
  -- from the culprit outwards: what a name enters is trimmed, as the name is
  induction h using ReflTransGen.head_induction_on with
  | refl => rw [resolveBy_rules, hname, formBy?_rules_eq_none_iff.mpr hpart]
  | head hstep _ ih =>
    obtain ⟨rule, form, hform, htype⟩ := hstep.exists_form (ih hstep.trim_eq)
    rw [← hname] at hform
    rw [resolveBy_of_form hform, htype]

/-- The way to what a name fails with. -/
theorem reaches_of_resolveBy {s part : List Char} (h : resolveBy rules s = .error part) :
    ReflTransGen Enters (trim s) part ∧ ∀ rule : Rule, rule.form? part = none := by
  rw [resolveBy_rules] at h
  split at h
  · -- no rule recognises the name: it is the culprit itself
    rename_i hnone
    obtain rfl := Except.error.inj h
    exact ⟨.refl, formBy?_rules_eq_none_iff.mp hnone⟩
  · -- otherwise the fault lies further inside, at the end of the way of a shorter name
    rename_i form hform
    obtain ⟨rule, hrule⟩ := formBy?_rules_eq_some_iff.mp hform
    obtain ⟨inner, hstep, hinner⟩ := exists_enters_of_type_eq_error hrule h
    obtain ⟨hchain, hnone⟩ := reaches_of_resolveBy hinner
    rw [hstep.trim_eq] at hchain
    exact ⟨hchain.head hstep, hnone⟩
termination_by s.length
decreasing_by exact Nat.lt_of_lt_of_le hstep.length_lt (length_trim_le s)

theorem resolveBy_eq_error_iff {s : List Char} :
    resolveBy rules s = .error part ↔
      ReflTransGen Enters (trim s) part ∧ ∀ rule : Rule, rule.form? part = none := by
  refine ⟨reaches_of_resolveBy, ?_⟩
  rintro ⟨hchain, hnone⟩
  exact (resolveBy_trim s).symm.trans (resolveBy_of_reaches hchain hnone (trim_trim s))

end Chains

/-! ## Names and their types -/

/-- A name fails with a connected part of it that denotes nothing. -/
theorem part_of_resolveBy_eq_error {s part : List Char} (h : resolveBy rules s = .error part) :
    part <:+: s ∧ ∀ t, ¬Denotes part t := by
  obtain ⟨hchain, hnone⟩ := reaches_of_resolveBy h
  refine ⟨(isInfix_of_reaches hchain).trans (isInfix_trim s), fun t ht => ?_⟩
  have hpart := resolveBy_of_reaches .refl hnone (trim_eq_of_reaches hchain (trim_trim s))
  rw [resolveBy_of_denotes ht] at hpart
  cases hpart

/-- A name has a type exactly if it denotes it, and every other name is an
    unknown type, which is reported by a part of the name that denotes
    nothing. -/
theorem ofName_eq_ok_iff_denotes (name : String) :
    (∀ t, ofName name = .ok t ↔ Denotes name.toList t)
      ∧ ((∃ part, (ofName name).mapError ConfigError.unknownType = .error (.unknownType part)
            ∧ part.toList <:+: name.toList ∧ ∀ t, ¬Denotes part.toList t) ↔
          ∀ t, ¬Denotes name.toList t) := by
  have hok : ∀ t, ofName name = .ok t ↔ Denotes name.toList t := fun t => by
    rw [ofName, mapError_eq_ok_iff, resolveBy_eq_ok_iff_denotes]
  refine ⟨hok, ?_⟩
  constructor
  · rintro ⟨part, herror, -⟩ t ht
    rw [(hok t).mpr ht] at herror
    cases herror
  · intro hnone
    cases hname : ofName name with
    | ok t => exact absurd ((hok t).mp hname) (hnone t)
    | error part =>
      obtain ⟨chars, hchars, rfl⟩ := mapError_eq_error_iff.mp hname
      obtain ⟨hslice, hdenotes⟩ := part_of_resolveBy_eq_error hchars
      rw [← String.toList_ofList (l := chars)] at hslice hdenotes
      exact ⟨_, rfl, hslice, hdenotes⟩

/-- A name fails with the trimmed part of it that is reached by entering
    well-formed names and that every rule declines. -/
theorem ofName_eq_error_iff (name : String) (e : ConfigError) :
    (ofName name).mapError ConfigError.unknownType = .error e ↔
      ∃ part : String, e = .unknownType part
        ∧ trim part.toList = part.toList ∧ part.toList <:+: name.toList
        ∧ (∀ rule : Rule, rule.apply part = .ok none)
        ∧ ReflTransGen Enters (trim name.toList) part.toList := by
  simp only [apply_eq_ok_none_iff]
  constructor
  · intro h
    obtain ⟨part, hname, rfl⟩ := mapError_eq_error_iff.mp h
    obtain ⟨chars, hchars, rfl⟩ := mapError_eq_error_iff.mp hname
    obtain ⟨hchain, hnone⟩ := reaches_of_resolveBy hchars
    have hslice := (isInfix_of_reaches hchain).trans (isInfix_trim name.toList)
    refine ⟨_, rfl, ?_⟩
    rw [String.toList_ofList]
    exact ⟨trim_eq_of_reaches hchain (trim_trim _), hslice, hnone, hchain⟩
  · rintro ⟨part, rfl, -, -, hnone, hchain⟩
    have hname := resolveBy_eq_error_iff.mpr ⟨hchain, hnone⟩
    rw [ofName, hname, mapError_error, String.ofList_toList, mapError_error]

end LayeredConfig.TypeDesc
