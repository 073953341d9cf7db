/-
  LayeredConfig.Proofs.TypeName.RuleOrder

  The order of the rules for type names.

  No two rules have something to say about the same name: a name resolves to what
  one rule makes of it (`apply_eq_map_ofName`), or every rule declines it.  So
  every table with all of the rules finds the same forms.  By induction on the
  names inside of a name it resolves every name to the same type, or fails with
  the same part of it (`resolveBy_eq_rules`).
-/
import Mathlib.Data.Set.Subsingleton
import LayeredConfig.Proofs.TypeName.Denotation

namespace LayeredConfig.TypeDesc

open LayeredConfig.Text

/-! ## The one rule that applies -/

theorem exists_form_of_apply_ne {rule : Rule} {name : String} (h : rule.apply name ≠ .ok none) :
    ∃ form, rule.form? name.toList = some form :=
  Option.ne_none_iff_exists'.mp (mt apply_eq_ok_none_iff.mpr h)

/-- What the rules make of a name is what the one of them makes of it that does not
    decline it once it is trimmed. -/
theorem apply_eq_map_ofName {rule : Rule} {name : String}
    (h : rule.apply (trimmed name) ≠ .ok none) :
    rule.apply (trimmed name) = (ofName name).map some := by
  obtain ⟨form, hform⟩ := exists_form_of_apply_ne h
  rw [trimmed, String.toList_ofList] at hform
  have happly : rule.apply (trimmed name) = (form.type.map some).mapError String.ofList := by
    rw [Rule.apply, trimmed, String.toList_ofList, hform]
  rw [happly, ofName, resolveBy_of_form hform]
  cases form.type <;> rfl

/-- A name that all rules decline once it is trimmed fails. -/
theorem ofName_of_apply_eq_none {name : String}
    (h : ∀ rule : Rule, rule.apply (trimmed name) = .ok none) :
    ofName name = .error (trimmed name) := by
  simp only [apply_eq_ok_none_iff, trimmed, String.toList_ofList] at h
  rw [ofName, resolveBy_rules, formBy?_rules_eq_none_iff.mpr h]
  rfl

/-! ## Other orders -/

theorem formBy?_eq_rules {table : List Rule} (htable : ∀ rule : Rule, rule ∈ table)
    (name : List Char) : formBy? table name = formBy? rules name :=
  Option.ext fun form => by rw [formBy?_eq_some_iff htable, formBy?_rules_eq_some_iff]

/-- A table with all of the rules resolves names as the rules do. -/
theorem resolveBy_eq_rules {table : List Rule} (htable : ∀ rule : Rule, rule ∈ table)
    (s : List Char) : resolveBy table s = resolveBy rules s := by
  -- at each name the forms are the same, and at the names inside of it the
  -- results are, by induction along the names that the table enters
  fun_induction resolveBy table s with
  | case1 s hform => rw [resolveBy_rules, ← formBy?_eq_rules htable, hform]
  | case2 s t hform =>
    rw [resolveBy_rules, ← formBy?_eq_rules htable, hform]
    rfl
  | case3 s x hform ih =>
    rw [resolveBy_rules, ← formBy?_eq_rules htable, hform, ih]
    rfl
  | case4 s x hform ih =>
    rw [resolveBy_rules, ← formBy?_eq_rules htable, hform, ih]
    rfl
  | case5 s x y hform ihx ihy =>
    rw [resolveBy_rules, ← formBy?_eq_rules htable, hform, ihx, ihy]
    rfl

/-- At most one rule has something to say about a name.  A name that one does not
    decline once it is trimmed is what that rule makes of it, and one that all of them
    decline fails.  So every order of the rules, also for the names inside of a name,
    leads to the same type or to the same failure. -/
theorem ofName_of_perm_rules :
    (∀ name : String, {rule : Rule | rule.apply name ≠ .ok none}.Subsingleton)
      ∧ (∀ name : String,
          (∃ rule : Rule, rule.apply (trimmed name) ≠ .ok none
            ∧ rule.apply (trimmed name) = (ofName name).map some)
          ∨ (∀ rule : Rule, rule.apply (trimmed name) = .ok none)
            ∧ ofName name = .error (trimmed name))
      ∧ ∀ table : List Rule, table.Perm rules → ∀ name : String,
          (resolveBy table name.toList).mapError String.ofList = ofName name := by
  refine ⟨?_, fun name => ?_, ?_⟩
  · intro name rule hrule other hother
    obtain ⟨form, hform⟩ := exists_form_of_apply_ne hrule
    obtain ⟨form', hform'⟩ := exists_form_of_apply_ne hother
    exact rule_unique hform hform'
  · by_cases hall : ∀ rule : Rule, rule.apply (trimmed name) = .ok none
    · exact Or.inr ⟨hall, ofName_of_apply_eq_none hall⟩
    · obtain ⟨rule, hrule⟩ := not_forall.mp hall
      exact Or.inl ⟨rule, hrule, apply_eq_map_ofName hrule⟩
  · intro table hperm name
    rw [ofName, resolveBy_eq_rules fun rule => hperm.mem_iff.mpr (mem_rules rule)]

theorem ofName_of_perm_rules_reverse :
    rules.reverse.Perm rules
      ∧ (resolveBy rules.reverse "List[ Bar ]".toList).mapError String.ofList
          = ofName "List[ Bar ]"
      ∧ ofName "List[ Bar ]" = .error "Bar" := by
  refine ⟨List.reverse_perm rules,
    ofName_of_perm_rules.2.2 rules.reverse (List.reverse_perm rules) "List[ Bar ]", ?_⟩
  have hform : Rule.list.form? (trim "List[ Bar ]".toList) = some (.list " Bar ".toList) := by
    decide
  have hinner : formBy? rules (trim " Bar ".toList) = none := by decide
  rw [ofName, resolveBy_of_form hform, Form.type, resolveBy_rules, hinner]
  rfl

end LayeredConfig.TypeDesc
