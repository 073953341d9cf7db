/-
  LayeredConfig.Proofs.TypeName.Denotation

  The language of type names.

  `Denotes` says which names denote which type, by the form that a name has once
  it is trimmed.  The rules for names are the same language: the words that
  names begin with tell the rules apart, so that their order does not count
  (`formBy?_eq_some_iff`), and each rule recognises the form of its word.  What
  a name denotes is therefore what it resolves to
  (`resolveBy_eq_ok_iff_denotes`).
-/
import LayeredConfig.Proofs.Results
import LayeredConfig.Proofs.TypeName.Brackets

namespace LayeredConfig.TypeDesc

open LayeredConfig.Text

/-! ## The language -/

/-- A name denotes a type.  White space around it does not count. -/
inductive Denotes : List Char → TypeDesc → Prop where
  | int {s : List Char} (hs : "Int".toList <+: trim s) : Denotes s .int
  | float {s : List Char} (hs : "Float".toList <+: trim s) : Denotes s .float
  | string {s : List Char} (hs : "String".toList <+: trim s) : Denotes s .string
  | bool {s : List Char} (hs : "Bool".toList <+: trim s) : Denotes s .bool
  | optional {s x : List Char} {t : TypeDesc} (hs : Encloses "Optional".toList x (trim s))
      (hx : Balanced x) (ht : Denotes x t) : Denotes s (.optional t)
  | list {s x : List Char} {t : TypeDesc} (hs : Encloses "List".toList x (trim s))
      (hx : Balanced x) (ht : Denotes x t) : Denotes s (.list t)
  | union {s x y : List Char} {t u : TypeDesc}
      (hs : Encloses "Union".toList (x ++ ',' :: y) (trim s)) (hx : IsUnionPart x)
      (hy : IsUnionPart y) (ht : Denotes x t) (hu : Denotes y u) : Denotes s (.union t u)
  | envExpression {s : List Char} (hs : trim s = "EnvExpression".toList) :
      Denotes s (.expression true)
  | expression {s : List Char} (hs : trim s = "Expression".toList) :
      Denotes s (.expression false)

/-! ## Single rules -/

theorem form?_scalar_eq_some_iff {name : List Char} {form : Form} :
    Rule.scalar.form? name = some form ↔ ∃ e ∈ scalars, e.1 <+: name ∧ form = .leaf e.2 := by
  -- no word of a scalar begins another one
  have hwords : ∀ e ∈ scalars, ∀ e' ∈ scalars, e.1 <+: e'.1 → e = e' := by decide
  simp only [Rule.form?, Option.map_eq_some_iff, Prod.exists]
  constructor
  · rintro ⟨word, t, hfind, rfl⟩
    have hfound := List.find?_some hfind
    exact ⟨word, t, List.mem_of_find?_eq_some hfind, List.isPrefixOf_iff_prefix.mp hfound, rfl⟩
  · rintro ⟨word, t, hmem, hprefix, rfl⟩
    have hsome : (scalars.find? fun e => e.1.isPrefixOf name).isSome = true :=
      List.find?_isSome.mpr ⟨(word, t), hmem, List.isPrefixOf_iff_prefix.mpr hprefix⟩
    obtain ⟨e, he⟩ := Option.isSome_iff_exists.mp hsome
    have hfound := List.find?_some he
    have hother : e.1 <+: name := List.isPrefixOf_iff_prefix.mp hfound
    have hsame : e = (word, t) := by
      rcases List.prefix_or_prefix_of_prefix hother hprefix with h | h
      · exact hwords e (List.mem_of_find?_eq_some he) (word, t) hmem h
      · exact (hwords (word, t) hmem e (List.mem_of_find?_eq_some he) h).symm
    exact ⟨word, t, hsame ▸ he, rfl⟩

theorem map_bracketed?_eq_some_iff {word name : List Char} {make : List Char → Form}
    {form : Form} : (bracketed? word name).map make = some form ↔
      ∃ x, Encloses word x name ∧ Balanced x ∧ form = make x := by
  simp only [Option.map_eq_some_iff, bracketed?_eq_some_iff, and_assoc, @eq_comm _ form]

theorem form?_optional_eq_some_iff {name : List Char} {form : Form} :
    Rule.optional.form? name = some form ↔
      ∃ x, Encloses "Optional".toList x name ∧ Balanced x ∧ form = .optional x :=
  map_bracketed?_eq_some_iff

theorem form?_list_eq_some_iff {name : List Char} {form : Form} :
    Rule.list.form? name = some form ↔
      ∃ x, Encloses "List".toList x name ∧ Balanced x ∧ form = .list x :=
  map_bracketed?_eq_some_iff

theorem form?_union_eq_some_iff {name : List Char} {form : Form} :
    Rule.union.form? name = some form ↔
      ∃ x y, Encloses "Union".toList (x ++ ',' :: y) name ∧ IsUnionPart x ∧ IsUnionPart y
        ∧ form = .union (trim x) (trim y) := by
  simp only [Rule.form?, Option.bind_eq_bind, Option.bind_eq_some_iff, bracketed?_eq_some_iff,
    Prod.exists, Option.some.injEq]
  constructor
  · rintro ⟨inner, ⟨hname, hinner⟩, first, second, hpair, rfl⟩
    obtain ⟨x, y, rfl, hx, hy, rfl, rfl⟩ := (splitPair?_eq_some_iff hinner).mp hpair
    exact ⟨x, y, hname, hx, hy, rfl⟩
  · rintro ⟨x, y, hname, hx, hy, rfl⟩
    have hinner := hx.balanced_comma hy
    exact ⟨_, ⟨hname, hinner⟩, _, _,
      (splitPair?_eq_some_iff hinner).mpr ⟨x, y, rfl, hx, hy, rfl, rfl⟩, rfl⟩

theorem form?_envExpression_eq_some_iff {name : List Char} {form : Form} :
    Rule.envExpression.form? name = some form ↔
      name = "EnvExpression".toList ∧ form = .leaf (.expression true) := by
  simp only [Rule.form?, Option.ite_none_right_eq_some, Option.some.injEq, @eq_comm _ form]

theorem form?_expression_eq_some_iff {name : List Char} {form : Form} :
    Rule.expression.form? name = some form ↔
      name = "Expression".toList ∧ form = .leaf (.expression false) := by
  simp only [Rule.form?, Option.ite_none_right_eq_some, Option.some.injEq, @eq_comm _ form]

/-- A rule declines a name exactly if it recognises no form of it. -/
theorem apply_eq_ok_none_iff {rule : Rule} {name : String} :
    rule.apply name = .ok none ↔ rule.form? name.toList = none := by
  rw [Rule.apply]
  cases rule.form? name.toList with
  | none => exact iff_of_true rfl rfl
  | some form =>
    refine iff_of_false (fun h => ?_) (by rintro ⟨⟩)
    have hmap := mapError_eq_ok_iff.mp h
    cases htype : form.type <;> rw [htype] at hmap <;> cases hmap

/-! ## The table of rules -/

/-- The words that names begin with, each with the rule that looks for it. -/
def words : List (List Char × Rule) :=
  [("Int".toList, .scalar), ("Float".toList, .scalar), ("String".toList, .scalar),
   ("Bool".toList, .scalar), ("Optional".toList, .optional), ("List".toList, .list),
   ("Union".toList, .union), ("EnvExpression".toList, .envExpression),
   ("Expression".toList, .expression)]

/-- A rule only recognises names that begin with one of its words. -/
theorem exists_word_of_form? {rule : Rule} {name : List Char} {form : Form}
    (h : rule.form? name = some form) : ∃ word, (word, rule) ∈ words ∧ word <+: name := by
  cases rule with
  | scalar =>
    have hscalars : ∀ e ∈ scalars, (e.1, Rule.scalar) ∈ words := by decide
    obtain ⟨e, he, hprefix, -⟩ := form?_scalar_eq_some_iff.mp h
    exact ⟨e.1, hscalars e he, hprefix⟩
  | optional =>
    obtain ⟨x, hname, -⟩ := form?_optional_eq_some_iff.mp h
    exact ⟨_, by decide, hname.word_isPrefix⟩
  | list =>
    obtain ⟨x, hname, -⟩ := form?_list_eq_some_iff.mp h
    exact ⟨_, by decide, hname.word_isPrefix⟩
  | union =>
    obtain ⟨x, y, hname, -⟩ := form?_union_eq_some_iff.mp h
    exact ⟨_, by decide, hname.word_isPrefix⟩
  | envExpression =>
    obtain ⟨rfl, -⟩ := form?_envExpression_eq_some_iff.mp h
    exact ⟨_, by decide, List.prefix_rfl⟩
  | expression =>
    obtain ⟨rfl, -⟩ := form?_expression_eq_some_iff.mp h
    exact ⟨_, by decide, List.prefix_rfl⟩

/-- At most one rule recognises a name. -/
theorem rule_unique {rule other : Rule} {name : List Char} {form form' : Form}
    (h : rule.form? name = some form) (h' : other.form? name = some form') : rule = other := by
  -- no word begins another one
  have hwords : ∀ e ∈ words, ∀ e' ∈ words, e.1 <+: e'.1 → e.2 = e'.2 := by decide
  obtain ⟨word, hword, hprefix⟩ := exists_word_of_form? h
  obtain ⟨word', hword', hprefix'⟩ := exists_word_of_form? h'
  rcases List.prefix_or_prefix_of_prefix hprefix hprefix' with hle | hle
  · exact hwords _ hword _ hword' hle
  · exact (hwords _ hword' _ hword hle).symm

theorem mem_rules (rule : Rule) : rule ∈ rules := by
  cases rule <;> decide

/-- Whatever the order of its rules, a table that has them all finds the form
    that one of them recognises. -/
theorem formBy?_eq_some_iff {table : List Rule} (htable : ∀ rule : Rule, rule ∈ table)
    {name : List Char} {form : Form} :
    formBy? table name = some form ↔ ∃ rule : Rule, rule.form? name = some form := by
  constructor
  · intro h
    obtain ⟨rule, -, hrule⟩ := List.exists_of_findSome?_eq_some h
    exact ⟨rule, hrule⟩
  · rintro ⟨rule, hrule⟩
    have hsome : (formBy? table name).isSome = true :=
      List.findSome?_isSome_iff.mpr ⟨rule, htable rule, by rw [hrule]; rfl⟩
    obtain ⟨form', hform'⟩ := Option.isSome_iff_exists.mp hsome
    obtain ⟨other, -, hother⟩ := List.exists_of_findSome?_eq_some hform'
    obtain rfl := rule_unique hrule hother
    rw [hform', ← hother, hrule]

theorem formBy?_rules_eq_some_iff {name : List Char} {form : Form} :
    formBy? rules name = some form ↔ ∃ rule : Rule, rule.form? name = some form :=
  formBy?_eq_some_iff mem_rules

theorem formBy?_rules_eq_none_iff {name : List Char} :
    formBy? rules name = none ↔ ∀ rule : Rule, rule.form? name = none := by
  rw [formBy?, List.findSome?_eq_none_iff]
  exact ⟨fun h rule => h rule (mem_rules rule), fun h rule _ => h rule⟩

/-! ## Resolution -/

theorem resolveBy_rules (s : List Char) :
    resolveBy rules s = match formBy? rules (trim s) with
      | none => .error (trim s)
      | some form => form.type := by
  rw [resolveBy]
  split <;> rename_i hform <;> rw [hform] <;> rfl

theorem resolveBy_of_form {s : List Char} {rule : Rule} {form : Form}
    (h : rule.form? (trim s) = some form) : resolveBy rules s = form.type := by
  rw [resolveBy_rules, formBy?_rules_eq_some_iff.mpr ⟨rule, h⟩]

theorem resolveBy_trim (s : List Char) : resolveBy rules (trim s) = resolveBy rules s := by
  rw [resolveBy_rules, resolveBy_rules, trim_trim]

/-- The type of a name comes from the form that some rule recognises in it. -/
theorem resolveBy_eq_ok_iff {s : List Char} {t : TypeDesc} :
    resolveBy rules s = .ok t ↔
      ∃ rule form, Rule.form? (trim s) rule = some form ∧ form.type = .ok t := by
  rw [resolveBy_rules]
  constructor
  · intro h
    split at h
    · cases h
    · rename_i form hform
      obtain ⟨rule, hrule⟩ := formBy?_rules_eq_some_iff.mp hform
      exact ⟨rule, form, hrule, h⟩
  · rintro ⟨rule, form, hrule, h⟩
    rw [formBy?_rules_eq_some_iff.mpr ⟨rule, hrule⟩]
    exact h

theorem resolveBy_of_scalar {s word : List Char} {t : TypeDesc} (hmem : (word, t) ∈ scalars)
    (hs : word <+: trim s) : resolveBy rules s = .ok t :=
  resolveBy_of_form (form?_scalar_eq_some_iff.mpr ⟨(word, t), hmem, hs, rfl⟩)

/-- What a name denotes is what it resolves to. -/
theorem resolveBy_of_denotes {s : List Char} {t : TypeDesc} (h : Denotes s t) :
    resolveBy rules s = .ok t := by
  -- each case names the rule that recognises the form; the parts resolve by induction
  induction h with
  | int hs => exact resolveBy_of_scalar (by decide : ("Int".toList, .int) ∈ scalars) hs
  | float hs => exact resolveBy_of_scalar (by decide : ("Float".toList, .float) ∈ scalars) hs
  | string hs => exact resolveBy_of_scalar (by decide : ("String".toList, .string) ∈ scalars) hs
  | bool hs => exact resolveBy_of_scalar (by decide : ("Bool".toList, .bool) ∈ scalars) hs
  | optional hs hx ht iht =>
    rw [resolveBy_of_form (form?_optional_eq_some_iff.mpr ⟨_, hs, hx, rfl⟩), Form.type, iht]
    rfl
  | list hs hx ht iht =>
    rw [resolveBy_of_form (form?_list_eq_some_iff.mpr ⟨_, hs, hx, rfl⟩), Form.type, iht]
    rfl
  | union hs hx hy ht hu iht ihu =>
    rw [resolveBy_of_form (form?_union_eq_some_iff.mpr ⟨_, _, hs, hx, hy, rfl⟩), Form.type,
      resolveBy_trim, resolveBy_trim, iht, ihu]
    rfl
  | envExpression hs => exact resolveBy_of_form (form?_envExpression_eq_some_iff.mpr ⟨hs, rfl⟩)
  | expression hs => exact resolveBy_of_form (form?_expression_eq_some_iff.mpr ⟨hs, rfl⟩)

/-! ## Names that resolve -/

theorem denotes_of_scalar {s word : List Char} {t : TypeDesc} (hmem : (word, t) ∈ scalars)
    (hs : word <+: trim s) : Denotes s t := by
  simp only [scalars, List.mem_cons, Prod.mk.injEq, List.not_mem_nil, or_false] at hmem
  rcases hmem with ⟨rfl, rfl⟩ | ⟨rfl, rfl⟩ | ⟨rfl, rfl⟩ | ⟨rfl, rfl⟩
  · exact .int hs
  · exact .float hs
  · exact .string hs
  · exact .bool hs

/-- Only the trimmed form of a name counts. -/
theorem Denotes.of_trim_eq {s s' : List Char} {t : TypeDesc} (h : Denotes s t)
    (heq : trim s = trim s') : Denotes s' t := by
  cases h with
  | int hs => exact .int (heq ▸ hs)
  | float hs => exact .float (heq ▸ hs)
  | string hs => exact .string (heq ▸ hs)
  | bool hs => exact .bool (heq ▸ hs)
  | optional hs hx ht => exact .optional (heq ▸ hs) hx ht
  | list hs hx ht => exact .list (heq ▸ hs) hx ht
  | union hs hx hy ht hu => exact .union (heq ▸ hs) hx hy ht hu
  | envExpression hs => exact .envExpression (heq ▸ hs)
  | expression hs => exact .expression (heq ▸ hs)

/-- A recognised form denotes its type, if the inner names that resolve denote
    what they resolve to. -/
theorem denotes_of_form {s : List Char} {rule : Rule} {form : Form}
    (h : rule.form? (trim s) = some form)
    (hinner : ∀ x ∈ form.inner, ∀ u, resolveBy rules x = .ok u → Denotes x u) {t : TypeDesc}
    (ht : form.type = .ok t) : Denotes s t := by
  cases rule with
  | scalar =>
    obtain ⟨e, he, hprefix, rfl⟩ := form?_scalar_eq_some_iff.mp h
    obtain rfl := Except.ok.inj ht
    exact denotes_of_scalar he hprefix
  | optional =>
    obtain ⟨x, hname, hx, rfl⟩ := form?_optional_eq_some_iff.mp h
    obtain ⟨u, hu, heq⟩ := bind_eq_ok_iff.mp ht
    obtain rfl := Except.ok.inj heq
    exact .optional hname hx (hinner x List.mem_cons_self u hu)
  | list =>
    obtain ⟨x, hname, hx, rfl⟩ := form?_list_eq_some_iff.mp h
    obtain ⟨u, hu, heq⟩ := bind_eq_ok_iff.mp ht
    obtain rfl := Except.ok.inj heq
    exact .list hname hx (hinner x List.mem_cons_self u hu)
  | union =>
    obtain ⟨x, y, hname, hx, hy, rfl⟩ := form?_union_eq_some_iff.mp h
    obtain ⟨u, hu, ht⟩ := bind_eq_ok_iff.mp ht
    obtain ⟨v, hv, heq⟩ := bind_eq_ok_iff.mp ht
    obtain rfl := Except.ok.inj heq
    have hfirst := hinner (trim x) List.mem_cons_self u hu
    have hsecond := hinner (trim y) (List.mem_cons_of_mem _ List.mem_cons_self) v hv
    exact .union hname hx hy (hfirst.of_trim_eq (trim_trim x)) (hsecond.of_trim_eq (trim_trim y))
  | envExpression =>
    obtain ⟨hname, rfl⟩ := form?_envExpression_eq_some_iff.mp h
    obtain rfl := Except.ok.inj ht
    exact .envExpression hname
  | expression =>
    obtain ⟨hname, rfl⟩ := form?_expression_eq_some_iff.mp h
    obtain rfl := Except.ok.inj ht
    exact .expression hname

/-- A name that resolves denotes what it resolves to. -/
theorem denotes_of_resolveBy {s : List Char} {t : TypeDesc} (h : resolveBy rules s = .ok t) :
    Denotes s t := by
  obtain ⟨rule, form, hrule, htype⟩ := resolveBy_eq_ok_iff.mp h
  exact denotes_of_form hrule (fun x hx u hu => denotes_of_resolveBy hu) htype
termination_by s.length
decreasing_by exact Nat.lt_of_lt_of_le (Rule.inner_length_lt hrule hx) (length_trim_le s)

theorem resolveBy_eq_ok_iff_denotes {s : List Char} {t : TypeDesc} :
    resolveBy rules s = .ok t ↔ Denotes s t :=
  ⟨denotes_of_resolveBy, resolveBy_of_denotes⟩

end LayeredConfig.TypeDesc
