/-
  LayeredConfig.Proofs.Recoercion

  Coercing once more what has been coerced.

  Types without expressions only give null, truth values, integers of 64 bits,
  numbers, strings and arrays of these (`isPlainResult_of_coerce`).  The one text
  that an optional type does not keep, `None`, never comes out of it as a text
  (`eq_of_coerce_eq_none`), so that among these types only unions can change a
  result: the first alternative may take what has come out of the second.  Where
  it does not, a coerced value stays what it is when it is coerced again
  (`coerce_idempotent`).
-/
import LayeredConfig.Proofs.Coercion.Inhabitants
import LayeredConfig.Proofs.Number.Layout

namespace LayeredConfig

/-! ## Texts -/

theorem Number.exists_intChars_cons (n : Int) :
    ∃ c rest, Number.intChars n = c :: rest ∧ (c = '-' ∨ c.isDigit = true) := by
  obtain ⟨c, digits, hdigits⟩ := List.exists_cons_of_ne_nil (Nat.toDigits_ne_nil (n := n.natAbs))
  have hc : c.isDigit = true := isDigit_of_mem_toDigits (hdigits ▸ List.mem_cons_self)
  rw [intChars]
  split
  · exact ⟨'-', _, rfl, Or.inl rfl⟩
  · exact ⟨c, digits, hdigits, Or.inr hc⟩

theorem Number.exists_chars_cons (n : Number) :
    ∃ c rest, n.chars = c :: rest ∧ (c = '-' ∨ c.isDigit = true) := by
  cases n with
  | int n => exact exists_intChars_cons n
  | float x => exact x.exists_render_cons Value.floatLayout

/-- Only the absence of a value and its name are shown by that name. -/
theorem Value.eq_of_display_eq_none {v : Value} (h : v.display = "None") :
    v = .null ∨ v = .string "None" := by
  have htext (hdisplay : v.display = v.text) : v.chars = "None".toList := by
    rw [← h, hdisplay, text, String.toList_ofList]
  cases v with
  | null => exact Or.inl rfl
  | string s =>
    obtain rfl : s = "None" := h
    exact Or.inr rfl
  | bool b => cases b <;> exact absurd (htext rfl) (by decide)
  | number n =>
    obtain ⟨c, rest, hchars, hc⟩ := n.exists_chars_cons
    have hhead : c = 'N' := by
      have hnone : n.chars = "None".toList := htext rfl
      rw [hchars] at hnone
      exact (List.cons.inj hnone).1
    subst hhead
    rcases hc with hc | hc
    · exact absurd hc (by decide)
    · exact absurd hc (by decide)
  | array items =>
    have hnone : '[' :: itemsChars items ++ [']'] = "None".toList := htext rfl
    exact absurd (List.cons.inj hnone).1 (by decide)
  | table entries =>
    have hnone : '\x7b' :: entriesChars entries ++ ['\x7d'] = "None".toList := htext rfl
    exact absurd (List.cons.inj hnone).1 (by decide)

/-! ## Results -/

/-- The values that types without expressions have. -/
inductive IsPlainResult : Value → Prop where
  | null : IsPlainResult .null
  | bool (b : Bool) : IsPlainResult (.bool b)
  | int {n : Int} (h : isInt64 n = true) : IsPlainResult (.int n)
  | float (x : Double) : IsPlainResult (.float x)
  | string (s : String) : IsPlainResult (.string s)
  | array {items : List Value} (h : ∀ v ∈ items, IsPlainResult v) : IsPlainResult (.array items)

namespace TypeDesc

variable {environment other : Environment} {type inner first second : TypeDesc} {raw v : Value}

/-- Without expressions, a type has plain values only. -/
theorem isPlainResult_of_inhabits (htype : type.expressionFree = true) (h : Inhabits type v) :
    IsPlainResult v := by
  induction h with
  | int hn => exact .int hn
  | float x => exact .float x
  | string s => exact .string s
  | bool b => exact .bool b
  | null => exact .null
  | optional _ ih => exact ih htype
  | list _ ih => exact .array fun w hw => ih w hw htype
  | first _ ih => exact ih (Bool.and_eq_true_iff.mp htype).1
  | second _ ih => exact ih (Bool.and_eq_true_iff.mp htype).2
  | expression v => exact absurd htype (by simp [expressionFree])

/-- Types without expressions have plain results only. -/
theorem isPlainResult_of_coerce (htype : type.expressionFree = true)
    (h : type.coerce environment raw = .ok v) : IsPlainResult v :=
  isPlainResult_of_inhabits htype (inhabits_of_coerce h)

/-- The name of no value only comes out of no value and of itself. -/
theorem eq_of_coerce_eq_none (htype : type.expressionFree = true)
    (h : type.coerce environment raw = .ok (.string "None")) :
    raw = .null ∨ raw = .string "None" := by
  induction type generalizing raw with
  | int => cases inhabits_of_coerce h
  | float => cases inhabits_of_coerce h
  | string =>
    have hdisplay : Value.string raw.display = .string "None" := Except.ok.inj h
    exact Value.eq_of_display_eq_none (Value.string.inj hdisplay)
  | bool => cases inhabits_of_coerce h
  | optional inner ih =>
    rcases coerce_optional_ok_cases h with hnull | ⟨hinner, -, -⟩
    · exact absurd hnull (by simp)
    · exact ih htype hinner
  | list inner ih => cases inhabits_of_coerce h
  | union first second ihFirst ihSecond =>
    obtain ⟨hfirst, hsecond⟩ := Bool.and_eq_true_iff.mp htype
    rcases coerce_union_ok_cases h with h | ⟨-, h⟩
    · exact ihFirst hfirst h
    · exact ihSecond hsecond h
  | expression withEnv => exact absurd htype (by simp [expressionFree])

/-! ## Coercing again -/

/-- Coercing a result of the type again changes nothing. -/
def KeepsResults (environment : Environment) (type : TypeDesc) : Prop :=
  ∀ raw v, type.coerce environment raw = .ok v → type.coerce environment v = .ok v

theorem KeepsResults.optional (htype : inner.expressionFree = true)
    (h : inner.KeepsResults environment) : (optional inner).KeepsResults environment := by
  intro raw v hv
  rcases coerce_optional_ok_cases hv with rfl | ⟨hinner, hnull, hname⟩
  · rfl
  · by_cases hv : v = .null
    · rw [hv]
      rfl
    · -- its name as a text, the one result that would be lost, cannot come out of the inner type
      have hv' : v ≠ .string "None" := by
        rintro rfl
        exact (eq_of_coerce_eq_none htype hinner).elim hnull hname
      rw [coerce_optional_of_ne hv hv']
      exact h raw v hinner

theorem KeepsResults.list (h : inner.KeepsResults environment) :
    (list inner).KeepsResults environment := by
  intro raw v hv
  obtain ⟨items, rfl, hitems⟩ := exists_array_of_coerce_list hv
  refine coerce_list_array_eq_ok_iff.mpr ⟨items, rfl, List.forall₂_same.mpr fun w hw => ?_⟩
  obtain ⟨item, hitem⟩ := hitems w hw
  exact h item w hitem

/-- A union keeps its results if both alternatives do and the first does not make
    something else of what comes out of the second. -/
theorem KeepsResults.union (hfirst : first.KeepsResults environment)
    (hsecond : second.KeepsResults environment)
    (hclear : ∀ raw w, second.coerce environment raw = .ok w →
      first.coerce environment w = .ok w ∨ first.declines environment w = true) :
    (union first second).KeepsResults environment := by
  intro raw v hv
  have hkept (h : first.coerce environment v = .ok v) :
      (TypeDesc.union first second).coerce environment v = .ok v := by
    rw [coerce_union, declines_of_ok h]
    exact h
  rcases coerce_union_ok_cases hv with h | ⟨-, h⟩
  · exact hkept (hfirst raw v h)
  · -- the second time the value may be taken by the other alternative than the first time
    rcases hclear raw v h with hsame | hdeclines
    · exact hkept hsame
    · have hagain := hsecond raw v h
      rw [coerce_union, hdeclines, declines_of_ok hagain]
      exact hagain

/-- In every union of a type, a result of the second alternative is kept by the
    first one or cannot be converted to it. -/
def Unambiguous (environment : Environment) (type : TypeDesc) : Prop :=
  ∀ first second, union first second ∈ type.parts →
    ∀ raw w, second.coerce environment raw = .ok w →
      first.coerce environment w = .ok w ∨ first.declines environment w = true

theorem unambiguous_of_unionFree (h : type.unionFree = true) : type.Unambiguous environment :=
  fun first second hmem => absurd hmem (union_notMem_parts h first second)

theorem keepsResults_of_unambiguous (htype : type.expressionFree = true)
    (hclear : type.Unambiguous environment) : type.KeepsResults environment := by
  induction type with
  | int =>
    intro raw v h
    obtain ⟨n, rfl, hn⟩ := exists_int_of_coerceInt h
    exact if_pos hn
  | float =>
    intro raw v h
    obtain ⟨x, rfl⟩ := exists_float_of_coerceFloat h
    rfl
  | string =>
    intro raw v h
    obtain rfl := Except.ok.inj h
    rfl
  | bool =>
    intro raw v h
    obtain ⟨b, rfl⟩ := exists_bool_of_coerceBool h
    rfl
  | optional inner ih =>
    exact (ih htype fun a b hmem => hclear a b (List.mem_cons_of_mem _ hmem)).optional htype
  | list inner ih =>
    exact (ih htype fun a b hmem => hclear a b (List.mem_cons_of_mem _ hmem)).list
  | union first second ihFirst ihSecond =>
    obtain ⟨hfirst, hsecond⟩ := Bool.and_eq_true_iff.mp htype
    have hparts {part : TypeDesc} (hmem : part ∈ first.parts ++ second.parts) :
        part ∈ (union first second).parts := List.mem_cons_of_mem _ hmem
    exact (ihFirst hfirst fun a b hmem => hclear a b (hparts (List.mem_append_left _ hmem))).union
      (ihSecond hsecond fun a b hmem => hclear a b (hparts (List.mem_append_right _ hmem)))
      (hclear first second (self_mem_parts _))
  | expression withEnv => exact absurd htype (by simp [expressionFree])

/-- Without unions and expressions, coercing a coerced value changes nothing, be it
    in another environment. -/
theorem coerce_coerce (htype : type.expressionFree = true) (hunion : type.unionFree = true)
    (h : type.coerce environment raw = .ok v) : type.coerce other v = .ok v := by
  rw [coerce_eq_of_expressionFree htype other environment]
  exact keepsResults_of_unambiguous htype (unambiguous_of_unionFree hunion) raw v h

/-- Coercing a coerced value changes nothing for a type without expressions in which
    no union is ambiguous, and without unions there is nothing to be ambiguous. -/
theorem coerce_idempotent (htype : type.expressionFree = true) :
    (type.Unambiguous environment →
        ∀ raw v, type.coerce environment raw = .ok v → type.coerce environment v = .ok v)
      ∧ (type.unionFree = true → type.Unambiguous environment) :=
  ⟨fun hclear => keepsResults_of_unambiguous htype hclear, unambiguous_of_unionFree⟩

/-- Truth values before integers: no integer is a truth value. -/
theorem coerce_idempotent_switches :
    let type := optional (list (union bool int))
    let v := Value.array [.bool true, .int 2]
    type.Unambiguous .empty ∧ type.coerce .empty (.string "[True, 2]") = .ok v
      ∧ type.coerce .empty v = .ok v := by
  intro type v
  have hclear : type.Unambiguous .empty := by
    intro first second hmem raw w hw
    obtain ⟨rfl, rfl⟩ : first = bool ∧ second = int := by simpa [type, parts] using hmem
    obtain ⟨n, rfl, -⟩ := exists_int_of_coerceInt hw
    exact Or.inr rfl
  have hv : type.coerce .empty (.string "[True, 2]") = .ok v := rfl
  exact ⟨hclear, hv, (coerce_idempotent rfl).1 hclear _ _ hv⟩

/-- The other way round each truth value is an integer, too. -/
example :
    (union int bool).coerce .empty (.string "true") = .ok (.bool true)
      ∧ (union int bool).coerce .empty (.bool true) = .ok (.int 1) := by
  constructor <;> rfl

/-- Only optional types have no value, and they take it from its name. -/
theorem coerce_none (htype : type.expressionFree = true) (hunion : type.unionFree = true)
    (h : type.coerce environment raw = .ok .null) :
    type.coerce other (.string "None") = .ok .null := by
  cases type with
  | optional inner => rfl
  | union first second => exact absurd hunion (by simp [unionFree])
  | expression withEnv => exact absurd htype (by simp [expressionFree])
  | _ => cases inhabits_of_coerce h

end TypeDesc

end LayeredConfig
