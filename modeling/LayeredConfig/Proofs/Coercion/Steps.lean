/-
  LayeredConfig.Proofs.Coercion.Steps

  What each kind of type makes of a value.

  There is one lemma for each kind.  A scalar type either has a result of its own
  kind or reports that this very value cannot be converted to it.  A list type
  coerces the items of an array, or the elements of a text as if they were an
  array of strings.  An optional type leaves all but the absence of a value to its
  inner type, and a union decides by what its alternatives decline.  All that is
  proved about coercion elsewhere is put together from these lemmas.
-/
import LayeredConfig.Coercion
import LayeredConfig.Proofs.Results
import Mathlib.Data.List.Forall2

namespace LayeredConfig

/-! ## Kinds of types -/

namespace TypeDesc

/-- The types that a type is made of, itself included. -/
def parts : TypeDesc → List TypeDesc
  | .optional inner => .optional inner :: inner.parts
  | .list inner => .list inner :: inner.parts
  | .union first second => .union first second :: (first.parts ++ second.parts)
  | type => [type]

/-- Whether there is no type of expressions in a type. -/
def expressionFree : TypeDesc → Bool
  | .int | .float | .string | .bool => true
  | .optional inner | .list inner => inner.expressionFree
  | .union first second => first.expressionFree && second.expressionFree
  | .expression _ => false

/-- Whether there is no union in a type. -/
def unionFree : TypeDesc → Bool
  | .int | .float | .string | .bool | .expression _ => true
  | .optional inner | .list inner => inner.unionFree
  | .union _ _ => false

theorem self_mem_parts (type : TypeDesc) : type ∈ type.parts := by
  cases type <;> simp [parts]

theorem expressionFree_iff {type : TypeDesc} :
    type.expressionFree = true ↔ ∀ withEnv, expression withEnv ∉ type.parts := by
  induction type with
  | optional inner ih => simpa [expressionFree, parts] using ih
  | list inner ih => simpa [expressionFree, parts] using ih
  | union first second ihFirst ihSecond =>
    simp [expressionFree, parts, ihFirst, ihSecond, forall_and]
  | _ => simp [expressionFree, parts]

theorem union_notMem_parts {type : TypeDesc} (h : type.unionFree = true) (first second : TypeDesc) :
    union first second ∉ type.parts := by
  induction type with
  | optional inner ih => simpa [parts] using ih h
  | list inner ih => simpa [parts] using ih h
  | union a b => exact absurd h (by simp [unionFree])
  | _ => simp [parts]

end TypeDesc

/-! ## Integers -/

theorem isInt64_of_extendInteger {negative : Bool} {n m : Int} {digits : List Char}
    (hn : isInt64 n = true) (h : extendInteger negative n digits = .ok m) : isInt64 m = true := by
  induction digits generalizing n with
  | nil =>
    obtain rfl : n = m := Except.ok.inj h
    exact hn
  | cons c digits ih =>
    rw [extendInteger] at h
    simp only at h
    generalize (if negative = true then 10 * n - (digitValue c : Int)
      else 10 * n + digitValue c) = next at h
    by_cases hc : c.isDigit = true
    · by_cases hnext : isInt64 next = true
      · rw [if_pos hc, if_pos hnext] at h
        exact ih hnext h
      · rw [if_pos hc, if_neg hnext] at h
        exact absurd h (by simp)
    · rw [if_neg hc] at h
      exact absurd h (by simp)

theorem isInt64_of_readInteger {s : List Char} {n : Int} (h : readInteger s = .ok n) :
    isInt64 n = true := by
  unfold readInteger at h
  split at h
  · exact absurd h (by simp)
  · simp only at h
    split at h
    · exact absurd h (by simp)
    · exact isInt64_of_extendInteger (by decide) h

namespace TypeDesc

variable {environment other : Environment} {type inner first second : TypeDesc}
  {raw v : Value} {e : CoercionError}

/-! ## Scalars -/

theorem coerceInt_float (x : Double) :
    coerceInt (.float x) = (ExtendedDouble.finite x).toInt64?.elim
      (.error (.conversion .int (.float x) .outOfRange)) fun n => .ok (.int n) := rfl

theorem coerceInt_cases (raw : Value) :
    (∃ n, isInt64 n = true ∧ coerceInt raw = .ok (.int n))
      ∨ ∃ reason, coerceInt raw = .error (.conversion .int raw reason) := by
  cases raw with
  | number n =>
    cases n with
    | int n =>
      by_cases hn : isInt64 n = true
      · exact Or.inl ⟨n, hn, if_pos hn⟩
      · exact Or.inr ⟨.outOfRange, if_neg hn⟩
    | float x =>
      cases hx : (ExtendedDouble.finite x).toInt64? with
      | some n =>
        refine Or.inl ⟨n, ExtendedDouble.isInt64_of_toInt64? hx, ?_⟩
        rw [coerceInt_float, hx, Option.elim_some]
      | none =>
        refine Or.inr ⟨.outOfRange, ?_⟩
        rw [coerceInt_float, hx, Option.elim_none]
  | bool b =>
    refine Or.inl ⟨if b then 1 else 0, ?_, rfl⟩
    cases b <;> decide
  | string s =>
    cases hread : readInteger (Text.trim s.toList) with
    | ok n => exact Or.inl ⟨n, isInt64_of_readInteger hread, by simp [coerceInt, hread]⟩
    | error fault => exact Or.inr ⟨.badInteger fault, by simp [coerceInt, hread]⟩
  | null => exact Or.inr ⟨.notANumber, rfl⟩
  | array items => exact Or.inr ⟨.notANumber, rfl⟩
  | table entries => exact Or.inr ⟨.notANumber, rfl⟩

theorem coerceFloat_cases (raw : Value) :
    (∃ x, coerceFloat raw = .ok (.float x))
      ∨ ∃ reason, coerceFloat raw = .error (.conversion .float raw reason) := by
  have hfinite (raw : Value) (x : ExtendedDouble) :
      (∃ y, finiteFloat raw x = .ok (.float y))
        ∨ ∃ reason, finiteFloat raw x = .error (.conversion .float raw reason) := by
    cases x with
    | finite x => exact Or.inl ⟨x, rfl⟩
    | infinite negative => exact Or.inr ⟨.notFinite, rfl⟩
    | nan => exact Or.inr ⟨.notFinite, rfl⟩
  cases raw with
  | number n =>
    cases n with
    | int n => exact hfinite _ _
    | float x => exact Or.inl ⟨x, rfl⟩
  | bool b => exact hfinite _ _
  | string s =>
    cases hread : readFloat (Text.trim s.toList) with
    | ok x => simpa [coerceFloat, hread] using hfinite (.string s) x
    | error fault => exact Or.inr ⟨.badFloat fault, by simp [coerceFloat, hread]⟩
  | null => exact Or.inr ⟨.notANumber, rfl⟩
  | array items => exact Or.inr ⟨.notANumber, rfl⟩
  | table entries => exact Or.inr ⟨.notANumber, rfl⟩

theorem coerceBool_cases (raw : Value) :
    (∃ b, coerceBool raw = .ok (.bool b))
      ∨ ∃ reason, coerceBool raw = .error (.conversion .bool raw reason) := by
  cases raw with
  | bool b => exact Or.inl ⟨b, rfl⟩
  | string s =>
    by_cases htrue : s = "true" ∨ s = "True"
    · exact Or.inl ⟨true, if_pos htrue⟩
    · by_cases hfalse : s = "false" ∨ s = "False"
      · exact Or.inl ⟨false, by simp [coerceBool, htrue, hfalse]⟩
      · exact Or.inr ⟨.notATruthWord, by simp [coerceBool, htrue, hfalse]⟩
  | null => exact Or.inr ⟨.notABoolean, rfl⟩
  | number n => exact Or.inr ⟨.notABoolean, rfl⟩
  | array items => exact Or.inr ⟨.notABoolean, rfl⟩
  | table entries => exact Or.inr ⟨.notABoolean, rfl⟩

theorem exists_int_of_coerceInt (h : coerceInt raw = .ok v) :
    ∃ n, v = .int n ∧ isInt64 n = true := by
  rcases coerceInt_cases raw with ⟨n, hn, hok⟩ | ⟨reason, herror⟩
  · exact ⟨n, Except.ok.inj (h.symm.trans hok), hn⟩
  · exact absurd (h.symm.trans herror) (by simp)

theorem exists_float_of_coerceFloat (h : coerceFloat raw = .ok v) : ∃ x, v = .float x := by
  rcases coerceFloat_cases raw with ⟨x, hok⟩ | ⟨reason, herror⟩
  · exact ⟨x, Except.ok.inj (h.symm.trans hok)⟩
  · exact absurd (h.symm.trans herror) (by simp)

theorem exists_bool_of_coerceBool (h : coerceBool raw = .ok v) : ∃ b, v = .bool b := by
  rcases coerceBool_cases raw with ⟨b, hok⟩ | ⟨reason, herror⟩
  · exact ⟨b, Except.ok.inj (h.symm.trans hok)⟩
  · exact absurd (h.symm.trans herror) (by simp)

theorem exists_of_coerceInt_eq_error (h : coerceInt raw = .error e) :
    ∃ reason, e = .conversion .int raw reason := by
  rcases coerceInt_cases raw with ⟨n, -, hok⟩ | ⟨reason, herror⟩
  · exact absurd (h.symm.trans hok) (by simp)
  · exact ⟨reason, Except.error.inj (h.symm.trans herror)⟩

theorem exists_of_coerceFloat_eq_error (h : coerceFloat raw = .error e) :
    ∃ reason, e = .conversion .float raw reason := by
  rcases coerceFloat_cases raw with ⟨x, hok⟩ | ⟨reason, herror⟩
  · exact absurd (h.symm.trans hok) (by simp)
  · exact ⟨reason, Except.error.inj (h.symm.trans herror)⟩

theorem exists_of_coerceBool_eq_error (h : coerceBool raw = .error e) :
    ∃ reason, e = .conversion .bool raw reason := by
  rcases coerceBool_cases raw with ⟨b, hok⟩ | ⟨reason, herror⟩
  · exact absurd (h.symm.trans hok) (by simp)
  · exact ⟨reason, Except.error.inj (h.symm.trans herror)⟩

/-! ## Items one by one -/

section Each

variable {coerce : Value → Except CoercionError Value} {items coerced : List Value}

theorem coerceEach_eq_ok_iff : coerceEach coerce items = .ok coerced
    ↔ List.Forall₂ (fun item w => coerce item = .ok w) items coerced := by
  induction items generalizing coerced with
  | nil => simp [coerceEach, eq_comm]
  | cons item items ih =>
    rw [coerceEach, bind_eq_ok_iff, List.forall₂_cons_left_iff]
    constructor
    · rintro ⟨w, hw, h⟩
      obtain ⟨ws, hws, h⟩ := bind_eq_ok_iff.mp h
      exact ⟨w, ws, hw, ih.mp hws, (Except.ok.inj h).symm⟩
    · rintro ⟨w, ws, hw, hws, rfl⟩
      exact ⟨w, hw, bind_eq_ok_iff.mpr ⟨ws, ih.mpr hws, rfl⟩⟩

/-- A failure of the items is the failure of an item. -/
theorem exists_mem_of_coerceEach_eq_error (h : coerceEach coerce items = .error e) :
    ∃ item ∈ items, coerce item = .error e := by
  induction items with
  | nil => exact absurd h (by simp [coerceEach])
  | cons item items ih =>
    rcases bind_eq_error_iff.mp h with hitem | ⟨w, -, h⟩
    · exact ⟨item, List.mem_cons_self, hitem⟩
    · rcases bind_eq_error_iff.mp h with hitems | ⟨ws, -, h⟩
      · obtain ⟨failing, hmem, hfailing⟩ := ih hitems
        exact ⟨failing, List.mem_cons_of_mem item hmem, hfailing⟩
      · exact absurd h (by simp [pure, Except.pure])

end Each

/-! ## Lists -/

theorem coerce_list_array (items : List Value) : (list inner).coerce environment (.array items)
    = (coerceEach (inner.coerce environment) items >>= fun coerced => .ok (.array coerced)) := rfl

/-- An array is coerced item by item, in order. -/
theorem coerce_list_array_eq_ok_iff {items : List Value} :
    (list inner).coerce environment (.array items) = .ok v
      ↔ ∃ coerced, v = .array coerced
        ∧ List.Forall₂ (fun item w => inner.coerce environment item = .ok w) items coerced := by
  rw [coerce_list_array, bind_eq_ok_iff]
  constructor
  · rintro ⟨coerced, heach, h⟩
    exact ⟨coerced, (Except.ok.inj h).symm, coerceEach_eq_ok_iff.mp heach⟩
  · rintro ⟨coerced, rfl, heach⟩
    exact ⟨coerced, coerceEach_eq_ok_iff.mpr heach, rfl⟩

theorem exists_mem_of_coerce_list_array_eq_error {items : List Value}
    (h : (list inner).coerce environment (.array items) = .error e) :
    ∃ item ∈ items, inner.coerce environment item = .error e := by
  rw [coerce_list_array] at h
  rcases bind_eq_error_iff.mp h with heach | ⟨coerced, -, h⟩
  · exact exists_mem_of_coerceEach_eq_error heach
  · exact absurd h (by simp)

theorem coerce_list_text (s : String) : (list inner).coerce environment (.string s)
    = match listElements s with
      | [] => .error (.malformed (list inner) s)
      | elements => coerceEach (inner.coerce environment) (elements.map Value.string)
          >>= fun coerced => .ok (.array coerced) := rfl

/-- A list text with elements stands for the array of these. -/
theorem coerce_list_string {s : String} (hs : listElements s ≠ []) :
    (list inner).coerce environment (.string s)
      = (list inner).coerce environment (.array ((listElements s).map .string)) := by
  rw [coerce_list_text]
  split
  · rename_i hnil
    exact absurd hnil hs
  · rfl

/-- A list type coerces arrays, takes texts with elements as if they were arrays,
    and fails on everything else. -/
theorem coerce_list_cases (inner : TypeDesc) (environment : Environment) (raw : Value) :
    (∃ items, raw = .array items)
      ∨ (∃ s, raw = .string s ∧ (list inner).coerce environment raw
        = (list inner).coerce environment (.array ((listElements s).map .string)))
      ∨ (∃ s, raw = .string s ∧ listElements s = []
        ∧ (list inner).coerce environment raw = .error (.malformed (list inner) s))
      ∨ (list inner).coerce environment raw
        = .error (.conversion (list inner) raw .notASequence) := by
  cases raw with
  | array items => exact Or.inl ⟨items, rfl⟩
  | string s =>
    by_cases hs : listElements s = []
    · exact Or.inr (Or.inr (Or.inl ⟨s, rfl, hs, by rw [coerce_list_text, hs]⟩))
    · exact Or.inr (Or.inl ⟨s, rfl, coerce_list_string hs⟩)
  | null => exact Or.inr (Or.inr (Or.inr rfl))
  | bool b => exact Or.inr (Or.inr (Or.inr rfl))
  | number n => exact Or.inr (Or.inr (Or.inr rfl))
  | table entries => exact Or.inr (Or.inr (Or.inr rfl))

/-- The result for a list type is an array of results for the inner type. -/
theorem exists_array_of_coerce_list (h : (list inner).coerce environment raw = .ok v) :
    ∃ coerced, v = .array coerced
      ∧ ∀ w ∈ coerced, ∃ item, inner.coerce environment item = .ok w := by
  have harray {items : List Value} (h : (list inner).coerce environment (.array items) = .ok v) :
      ∃ coerced, v = .array coerced
        ∧ ∀ w ∈ coerced, ∃ item, inner.coerce environment item = .ok w := by
    obtain ⟨coerced, rfl, heach⟩ := coerce_list_array_eq_ok_iff.mp h
    refine ⟨coerced, rfl, fun w hw => ?_⟩
    obtain ⟨i, hi, rfl⟩ := List.mem_iff_getElem.mp hw
    exact ⟨_, heach.get (heach.length_eq ▸ hi) hi⟩
  rcases coerce_list_cases inner environment raw with ⟨items, rfl⟩ | ⟨s, -, hitems⟩
    | ⟨s, -, -, herror⟩ | herror
  · exact harray h
  · exact harray (hitems.symm.trans h)
  · exact absurd (h.symm.trans herror) (by simp)
  · exact absurd (h.symm.trans herror) (by simp)

/-- A list type fails on what is no list, on a text without elements, and with an
    item or an element that its inner type fails on. -/
theorem coerce_list_error_cases (h : (list inner).coerce environment raw = .error e) :
    e = .conversion (list inner) raw .notASequence
      ∨ (∃ s, raw = .string s ∧ listElements s = [] ∧ e = .malformed (list inner) s)
      ∨ (∃ items, raw = .array items ∧ ∃ item ∈ items, inner.coerce environment item = .error e)
      ∨ ∃ s, raw = .string s
        ∧ ∃ element ∈ listElements s, inner.coerce environment (.string element) = .error e := by
  rcases coerce_list_cases inner environment raw with ⟨items, rfl⟩ | ⟨s, rfl, hitems⟩
    | ⟨s, rfl, hs, herror⟩ | herror
  · exact Or.inr (Or.inr (Or.inl ⟨items, rfl, exists_mem_of_coerce_list_array_eq_error h⟩))
  · obtain ⟨item, hitem, herror⟩ :=
      exists_mem_of_coerce_list_array_eq_error (hitems.symm.trans h)
    obtain ⟨element, helement, rfl⟩ := List.mem_map.mp hitem
    exact Or.inr (Or.inr (Or.inr ⟨s, rfl, element, helement, herror⟩))
  · exact Or.inr (Or.inl ⟨s, rfl, hs, Except.error.inj (h.symm.trans herror)⟩)
  · exact Or.inl (Except.error.inj (h.symm.trans herror))

/-! ## Optional types -/

theorem coerce_optional_of_ne (hnull : raw ≠ .null) (hname : raw ≠ .string "None") :
    (optional inner).coerce environment raw = inner.coerce environment raw := by
  rw [coerce]
  · exact hnull
  · exact hname

/-- An optional type takes the absence of a value by either of its names, and
    leaves everything else to its inner type. -/
theorem coerce_optional_cases (inner : TypeDesc) (environment : Environment) (raw : Value) :
    (optional inner).coerce environment raw = .ok .null
      ∨ (optional inner).coerce environment raw = inner.coerce environment raw
        ∧ raw ≠ .null ∧ raw ≠ .string "None" := by
  by_cases hnull : raw = .null
  · rw [hnull]
    exact Or.inl rfl
  · by_cases hname : raw = .string "None"
    · rw [hname]
      exact Or.inl rfl
    · exact Or.inr ⟨coerce_optional_of_ne hnull hname, hnull, hname⟩

/-- The result for an optional type is null, or that for the inner type of
    something else than null and its name. -/
theorem coerce_optional_ok_cases (h : (optional inner).coerce environment raw = .ok v) :
    v = .null ∨ inner.coerce environment raw = .ok v ∧ raw ≠ .null ∧ raw ≠ .string "None" := by
  rcases coerce_optional_cases inner environment raw with hnone | ⟨hinner, hne⟩
  · exact Or.inl (Except.ok.inj (h.symm.trans hnone))
  · exact Or.inr ⟨hinner.symm.trans h, hne⟩

theorem coerce_of_coerce_optional_eq_error
    (h : (optional inner).coerce environment raw = .error e) :
    inner.coerce environment raw = .error e := by
  rcases coerce_optional_cases inner environment raw with hnone | ⟨hinner, -⟩
  · exact absurd (h.symm.trans hnone) (by simp)
  · exact hinner.symm.trans h

/-! ## Unions -/

/-- Whether a type turns a value down in the way that lets a union go on. -/
def declines (environment : Environment) (type : TypeDesc) (v : Value) : Bool :=
  match type.coerce environment v with
  | .ok _ => false
  | .error e => e.isConversion

theorem declines_of_ok (h : type.coerce environment raw = .ok v) :
    type.declines environment raw = false := by
  rw [declines, h]

/-- A union is its first alternative unless that declines, and then its second
    unless that declines, too. -/
theorem coerce_union (first second : TypeDesc) (environment : Environment) (raw : Value) :
    (union first second).coerce environment raw
      = if first.declines environment raw then
          if second.declines environment raw then
            .error (.conversion (union first second) raw .noAlternative)
          else second.coerce environment raw
        else first.coerce environment raw := by
  rw [coerce]
  unfold declines
  cases first.coerce environment raw with
  | ok w => rfl
  | error e =>
    cases e with
    | conversion named value reason =>
      cases second.coerce environment raw with
      | ok w => rfl
      | error e' => cases e' <;> rfl
    | malformed named input => rfl
    | expression source reason => rfl

/-- The result for a union is that of an alternative, and that of the second only
    where the first declines. -/
theorem coerce_union_ok_cases (h : (union first second).coerce environment raw = .ok v) :
    first.coerce environment raw = .ok v
      ∨ first.declines environment raw = true ∧ second.coerce environment raw = .ok v := by
  rw [coerce_union] at h
  split at h
  · rename_i hfirst
    split at h
    · exact absurd h (by simp)
    · exact Or.inr ⟨hfirst, h⟩
  · exact Or.inl h

/-- A union fails with what an alternative fails with, or with a conversion of its
    own. -/
theorem coerce_union_error_cases (h : (union first second).coerce environment raw = .error e) :
    e = .conversion (union first second) raw .noAlternative
      ∨ first.coerce environment raw = .error e ∨ second.coerce environment raw = .error e := by
  rw [coerce_union] at h
  split at h
  · split at h
    · exact Or.inl (Except.error.inj h).symm
    · exact Or.inr (Or.inr h)
  · exact Or.inr (Or.inl h)

/-! ## Expressions -/

theorem exists_of_coerce_expression_eq_error {withEnv : Bool}
    (h : (expression withEnv).coerce environment raw = .error e) :
    ∃ source reason, raw = .string source ∧ e = .expression source reason := by
  cases raw with
  | string source =>
    obtain ⟨reason, -, hreason⟩ := mapError_eq_error_iff.mp h
    exact ⟨source, reason, rfl, hreason.symm⟩
  -- every other value is taken as it is
  | null => exact nomatch (h : Except.ok _ = Except.error e)
  | bool b => exact nomatch (h : Except.ok _ = Except.error e)
  | number n => exact nomatch (h : Except.ok _ = Except.error e)
  | array items => exact nomatch (h : Except.ok _ = Except.error e)
  | table entries => exact nomatch (h : Except.ok _ = Except.error e)

/-- Types without expressions do not look at the environment. -/
theorem coerce_eq_of_expressionFree (htype : type.expressionFree = true)
    (environment other : Environment) : type.coerce environment = type.coerce other := by
  induction type with
  | optional inner ih =>
    funext raw
    by_cases hnull : raw = .null
    · rw [hnull]
      rfl
    · by_cases hname : raw = .string "None"
      · rw [hname]
        rfl
      · rw [coerce_optional_of_ne hnull hname, coerce_optional_of_ne hnull hname, ih htype]
  | list inner ih =>
    funext raw
    cases raw with
    | array items => rw [coerce_list_array, coerce_list_array, ih htype]
    | string s => rw [coerce_list_text, coerce_list_text, ih htype]
    | _ => rfl
  | union first second ihFirst ihSecond =>
    obtain ⟨hfirst, hsecond⟩ := Bool.and_eq_true_iff.mp htype
    have hdeclines {t : TypeDesc} (ht : t.coerce environment = t.coerce other) (raw : Value) :
        t.declines environment raw = t.declines other raw := by
      rw [declines, declines, ht]
    funext raw
    rw [coerce_union, coerce_union, hdeclines (ihFirst hfirst), hdeclines (ihSecond hsecond),
      ihFirst hfirst, ihSecond hsecond]
  | expression withEnv => exact absurd htype (by simp [expressionFree])
  | _ => rfl

end TypeDesc

end LayeredConfig
