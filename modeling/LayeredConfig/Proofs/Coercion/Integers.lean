/-
  LayeredConfig.Proofs.Coercion.Integers

  Integers from numbers.

  Every number has an exact value, whether it is held as an integer or as a
  floating-point number.  The integer it is coerced into is that value without
  what stands behind its point, if 64 bits hold it, and nothing else
  (`coerce_int_number`).
-/
import LayeredConfig.Proofs.Coercion.Steps
import LayeredConfig.Proofs.Number.Truncation

namespace LayeredConfig.TypeDesc

/-- Integers and floating-point numbers are coerced by their exact values. -/
theorem coerceInt_number (n : Number) :
    coerceInt (.number n) = if isInt64 (towardZero n.toRat) then .ok (.int (towardZero n.toRat))
      else .error (.conversion .int (.number n) .outOfRange) := by
  cases n with
  | int n =>
    rw [Number.toRat, towardZero_intCast]
    rfl
  | float x =>
    rw [coerceInt_float, Double.toInt64?_finite, Number.toRat, Double.truncate_eq_towardZero]
    split <;> rfl

theorem isInt64_iff_lt_two_pow {n : Int} : isInt64 n = true ↔ -2 ^ 63 ≤ n ∧ n < 2 ^ 63 := by
  rw [isInt64_iff, int64Min, int64Max]
  omega

theorem message_outOfRange (v : Value) :
    CoercionError.message (.conversion .int v .outOfRange)
      = "cannot convert " ++ v.text ++ " to Int: out of range" := by
  have hreason : " to " ++ (int.name ++ (": " ++ Mismatch.outOfRange.message))
      = " to Int: out of range" := by decide
  show "cannot convert " ++ v.text ++ " to " ++ int.name ++ ": " ++ Mismatch.outOfRange.message = _
  rw [String.append_assoc, String.append_assoc, String.append_assoc, hreason]

/-- A number is coerced into the integer that its value is truncated to, if that
    is one of 64 bits.  Every other number is out of range. -/
theorem coerce_int_number (environment : Environment) (n : Number) :
    (∀ v, int.coerce environment (.number n) = .ok v ↔
        (-2 ^ 63 ≤ towardZero n.toRat ∧ towardZero n.toRat < 2 ^ 63)
          ∧ v = .int (towardZero n.toRat))
      ∧ (∀ e, int.coerce environment (.number n) = .error e ↔
        ¬(-2 ^ 63 ≤ towardZero n.toRat ∧ towardZero n.toRat < 2 ^ 63)
          ∧ e = .conversion .int (.number n) .outOfRange)
      ∧ CoercionError.message (.conversion .int (.number n) .outOfRange)
          = "cannot convert " ++ (Value.number n).text ++ " to Int: out of range" := by
  have hcoerce : int.coerce environment (.number n) = coerceInt (.number n) := by rw [coerce]
  simp only [← isInt64_iff_lt_two_pow]
  rw [hcoerce, coerceInt_number]
  refine ⟨fun v => ?_, fun e => ?_, ?_⟩
  · by_cases hn : isInt64 (towardZero n.toRat) = true
    · rw [if_pos hn, Except.ok.injEq, and_iff_right hn, eq_comm]
    · rw [if_neg hn]
      exact iff_of_false (by rintro ⟨⟩) fun h => hn h.1
  · by_cases hn : isInt64 (towardZero n.toRat) = true
    · rw [if_pos hn]
      exact iff_of_false (by rintro ⟨⟩) fun h => h.1 hn
    · rw [if_neg hn, Except.error.injEq, and_iff_right hn, eq_comm]
  · exact message_outOfRange (.number n)

end LayeredConfig.TypeDesc
