/-
  LayeredConfig.Value.Equality

  Equality of values can be decided, so that what a text is read as can be computed.
-/
import LayeredConfig.Value

namespace LayeredConfig.Value

mutual

/-- Whether two values are the same. -/
def same : Value → Value → Bool
  | .null, .null => true
  | .bool a, .bool b => a == b
  | .number m, .number n => decide (m = n)
  | .string s, .string t => s == t
  | .array items, .array others => sameItems items others
  | .table entries, .table others => sameEntries entries others
  | _, _ => false

/-- Whether two arrays have the same items. -/
def sameItems : List Value → List Value → Bool
  | [], [] => true
  | v :: items, w :: others => same v w && sameItems items others
  | _, _ => false

/-- Whether two tables have the same entries in the same order. -/
def sameEntries : List (String × Value) → List (String × Value) → Bool
  | [], [] => true
  | (key, v) :: entries, (other, w) :: others =>
    key == other && same v w && sameEntries entries others
  | _, _ => false

end

mutual

theorem same_iff : (v w : Value) → (same v w = true ↔ v = w)
  | .null, w => by cases w <;> simp [same]
  | .bool a, w => by cases w <;> simp [same]
  | .number m, w => by cases w <;> simp [same]
  | .string s, w => by cases w <;> simp [same]
  | .array items, w => by
    cases w with
    | array others => simp [same, sameItems_iff items others]
    | _ => simp [same]
  | .table entries, w => by
    cases w with
    | table others => simp [same, sameEntries_iff entries others]
    | _ => simp [same]

theorem sameItems_iff : (items others : List Value) →
    (sameItems items others = true ↔ items = others)
  | [], others => by cases others <;> simp [sameItems]
  | v :: items, others => by
    cases others with
    | nil => simp [sameItems]
    | cons w others => simp [sameItems, same_iff v w, sameItems_iff items others]

theorem sameEntries_iff : (entries others : List (String × Value)) →
    (sameEntries entries others = true ↔ entries = others)
  | [], others => by cases others <;> simp [sameEntries]
  | (key, v) :: entries, others => by
    cases others with
    | nil => simp [sameEntries]
    | cons e others =>
      obtain ⟨other, w⟩ := e
      simp [sameEntries, same_iff v w, sameEntries_iff entries others]

end

instance : DecidableEq Value :=
  fun v w => decidable_of_iff (same v w = true) (same_iff v w)

end LayeredConfig.Value
