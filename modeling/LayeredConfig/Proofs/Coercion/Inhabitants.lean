/-
  LayeredConfig.Proofs.Coercion.Inhabitants

  The values of a type.

  `Inhabits` says which values a type has, by the form of the type and without
  a word about coercion.  Whatever is coerced into a type inhabits it, and a list
  type keeps the items of an array apart and in order (`coerce_sound`).
-/
import LayeredConfig.Proofs.Coercion.Steps

namespace LayeredConfig.TypeDesc

/-- The values of a type. -/
inductive Inhabits : TypeDesc → Value → Prop where
  /-- Integers are those of 64 bits with a sign. -/
  | int {n : Int} (h : isInt64 n = true) : Inhabits .int (.int n)
  /-- There are no floating-point numbers but finite ones. -/
  | float (x : Double) : Inhabits .float (.float x)
  | string (s : String) : Inhabits .string (.string s)
  | bool (b : Bool) : Inhabits .bool (.bool b)
  | null {inner : TypeDesc} : Inhabits (.optional inner) .null
  | optional {inner : TypeDesc} {v : Value} (h : Inhabits inner v) : Inhabits (.optional inner) v
  | list {inner : TypeDesc} {items : List Value} (h : ∀ v ∈ items, Inhabits inner v) :
    Inhabits (.list inner) (.array items)
  | first {first second : TypeDesc} {v : Value} (h : Inhabits first v) :
    Inhabits (.union first second) v
  | second {first second : TypeDesc} {v : Value} (h : Inhabits second v) :
    Inhabits (.union first second) v
  /-- An expression may have any value. -/
  | expression {withEnv : Bool} (v : Value) : Inhabits (.expression withEnv) v

variable {environment : Environment} {type : TypeDesc} {raw v : Value}

/-- What is coerced into a type is a value of that type. -/
theorem inhabits_of_coerce (h : type.coerce environment raw = .ok v) : Inhabits type v := by
  induction type generalizing raw v with
  | int =>
    obtain ⟨n, rfl, hn⟩ := exists_int_of_coerceInt h
    exact .int hn
  | float =>
    obtain ⟨x, rfl⟩ := exists_float_of_coerceFloat h
    exact .float x
  | string =>
    obtain rfl := Except.ok.inj h
    exact .string raw.display
  | bool =>
    obtain ⟨b, rfl⟩ := exists_bool_of_coerceBool h
    exact .bool b
  | optional inner ih =>
    rcases coerce_optional_ok_cases h with rfl | ⟨hinner, -, -⟩
    · exact .null
    · exact .optional (ih hinner)
  | list inner ih =>
    obtain ⟨items, rfl, hitems⟩ := exists_array_of_coerce_list h
    refine .list fun w hw => ?_
    obtain ⟨item, hitem⟩ := hitems w hw
    exact ih hitem
  | union first second ihFirst ihSecond =>
    rcases coerce_union_ok_cases h with hfirst | ⟨-, hsecond⟩
    · exact .first (ihFirst hfirst)
    · exact .second (ihSecond hsecond)
  | expression withEnv => exact .expression v

/-- Coercion only gives values of the type.  Into a list type, an array is coerced
    item by item: the result has one item for each, in the same order, and there
    is one as soon as every item can be coerced. -/
theorem coerce_sound (environment : Environment) :
    (∀ type raw v, coerce environment type raw = .ok v → Inhabits type v)
      ∧ ∀ inner items v, (list inner).coerce environment (.array items) = .ok v
        ↔ ∃ coerced, v = .array coerced
          ∧ List.Forall₂ (fun item w => inner.coerce environment item = .ok w) items coerced :=
  ⟨fun _ _ _ => inhabits_of_coerce, fun _ _ _ => coerce_list_array_eq_ok_iff⟩

/-- The number 2.5. -/
def twoAndAHalf : Double := ⟨false, 4612811918334230528, by decide⟩

/-- A list text whose elements go to different alternatives. -/
theorem coerce_sound_levels :
    let type := optional (list (union bool float))
    let v := Value.array [.bool true, .float twoAndAHalf, .bool false]
    type.coerce .empty (.string "(True, 2.5, [false])") = .ok v ∧ Inhabits type v := by
  intro type v
  have hfloat : float.coerce .empty (.string "2.5") = .ok (.float twoAndAHalf) := by
    have htrim : Text.trim "2.5".toList = "2.5".toList := by decide
    have hread : readFloat "2.5".toList = .ok (.finite twoAndAHalf) := by decide +kernel
    show coerceFloat (.string "2.5") = _
    rw [coerceFloat, htrim, hread]
    rfl
  have hunion : (union bool float).coerce .empty (.string "2.5") = .ok (.float twoAndAHalf) := by
    rw [coerce_union, declines_of_ok hfloat]
    exact hfloat
  have helements : listElements "(True, 2.5, [false])" = ["True", "2.5", "false"] := by decide
  obtain ⟨hvalues, hitems⟩ := coerce_sound .empty
  have hv : type.coerce .empty (.string "(True, 2.5, [false])") = .ok v := by
    rw [coerce_optional_of_ne (by simp) (by simp), coerce_list_string (by simp [helements]),
      helements, hitems]
    exact ⟨_, rfl, .cons rfl (.cons hunion (.cons rfl .nil))⟩
  exact ⟨hv, hvalues type _ v hv⟩

end LayeredConfig.TypeDesc
