/-
  LayeredConfig.Proofs.Number.Digits

  Runs of decimal digits and the numbers that they denote.

  The digits of a number denote it, have no needless zero in front
  (`isWhole_toDigits`), and are read as an integer of 64 bits wherever that
  holds the number: on the way to it no digit leaves the bounds
  (`extendInteger_of_digits`).
-/
import LayeredConfig.Number.Decimal
import Mathlib.Algebra.Ring.Nat

namespace LayeredConfig

/-! ## Values of digits -/

theorem digitsValue_toDigits (n : Nat) : digitsValue (Nat.toDigits 10 n) = n :=
  Nat.ofDigitChars_toDigits (by decide) (by decide)

theorem digitsValue_append (s t : List Char) :
    digitsValue (s ++ t) = 10 ^ t.length * digitsValue s + digitsValue t :=
  (Nat.ofDigitChars_append 0).trans Nat.ofDigitChars_eq_ofDigitChars_zero

theorem digitsValue_zeros (n : Nat) : digitsValue (List.replicate n '0') = 0 :=
  Nat.ofDigitChars_replicate_zero

/-- Digits as a whole number has them: one at least, and no zero in front of
    others. -/
structure IsWhole (digits : List Char) : Prop where
  ne_nil : digits ≠ []
  isDigit : ∀ c ∈ digits, c.isDigit = true
  lead : digits.head? = some '0' → digits = ['0']

theorem isDigit_of_mem_toDigits {n : Nat} {c : Char} (h : c ∈ Nat.toDigits 10 n) :
    c.isDigit = true :=
  Nat.isDigit_of_mem_toDigits (by decide) (by decide) h

theorem head?_append_of_ne_nil {s : List Char} (h : s ≠ []) (t : List Char) :
    (s ++ t).head? = s.head? := by
  cases s with
  | nil => exact absurd rfl h
  | cons c s => rfl

theorem head?_toDigits {n : Nat} (hn : n ≠ 0) : (Nat.toDigits 10 n).head? ≠ some '0' := by
  induction n using Nat.strongRecOn with
  | ind n ih =>
    rcases Nat.lt_or_ge n 10 with hlt | hge
    · rw [Nat.toDigits_of_lt_base hlt, List.head?_cons, ne_eq, Option.some.injEq]
      match n, hlt, hn with
      | 1, _, _ | 2, _, _ | 3, _, _ | 4, _, _ | 5, _, _ | 6, _, _ | 7, _, _ | 8, _, _ | 9, _, _ =>
        decide
    · have hne : n / 10 ≠ 0 := by omega
      rw [Nat.toDigits_of_base_le (by decide) hge, head?_append_of_ne_nil Nat.toDigits_ne_nil]
      exact ih (n / 10) (by omega) hne

theorem isWhole_toDigits (n : Nat) : IsWhole (Nat.toDigits 10 n) where
  ne_nil := Nat.toDigits_ne_nil
  isDigit := fun _ hc => isDigit_of_mem_toDigits hc
  lead := by
    intro hhead
    by_cases hn : n = 0
    · rw [hn, Nat.toDigits_zero]
    · exact absurd hhead (head?_toDigits hn)

/-- Digits may follow a number that is not zero. -/
theorem IsWhole.append {digits more : List Char} (h : IsWhole digits)
    (hlead : digits.head? ≠ some '0') (hmore : ∀ c ∈ more, c.isDigit = true) :
    IsWhole (digits ++ more) where
  ne_nil := by simp [h.ne_nil]
  isDigit := List.forall_mem_append.mpr ⟨h.isDigit, hmore⟩
  lead := fun hhead => by
    rw [head?_append_of_ne_nil h.ne_nil] at hhead
    exact absurd hhead hlead

/-! ## Integers of 64 bits -/

/-- A magnitude with a sign. -/
def signed (negative : Bool) (n : Nat) : Int :=
  if negative then -(n : Int) else n

theorem isInt64_signed_of_le {negative : Bool} {n m : Nat} (hle : n ≤ m)
    (h : isInt64 (signed negative m) = true) : isInt64 (signed negative n) = true := by
  rw [isInt64_iff, int64Min, int64Max] at *
  cases negative with
  | false =>
    simp only [signed, Bool.false_eq_true, if_false] at *
    omega
  | true =>
    simp only [signed, if_true] at *
    omega

/-- Digits extend a magnitude as long as 64 bits hold what comes of it. -/
theorem extendInteger_of_digits {negative : Bool} {digits : List Char} {n : Nat}
    (hdigits : ∀ c ∈ digits, c.isDigit = true)
    (h : isInt64 (signed negative (Nat.ofDigitChars 10 digits n)) = true) :
    extendInteger negative (signed negative n) digits
      = .ok (signed negative (Nat.ofDigitChars 10 digits n)) := by
  induction digits generalizing n with
  | nil => rfl
  | cons c digits ih =>
    obtain ⟨hc, htail⟩ := List.forall_mem_cons.mp hdigits
    have hnext : (if negative then 10 * signed negative n - digitValue c
        else 10 * signed negative n + digitValue c) = signed negative (10 * n + digitValue c) := by
      cases negative <;> simp only [signed, Bool.false_eq_true, if_false, if_true] <;> omega
    rw [Nat.ofDigitChars_cons] at h ⊢
    have hle : 10 * n + digitValue c ≤ Nat.ofDigitChars 10 digits (10 * n + digitValue c) := by
      have hpos : 0 < 10 ^ digits.length := Nat.pow_pos (by decide)
      rw [Nat.ofDigitChars_eq_ofDigitChars_zero]
      exact Nat.le_trans (Nat.le_mul_of_pos_left _ hpos) (Nat.le_add_right _ _)
    rw [extendInteger, if_pos hc]
    simp only [hnext, isInt64_signed_of_le hle h, if_true]
    exact ih htail h

theorem signed_natAbs (n : Int) : signed (decide (n < 0)) n.natAbs = n := by
  rw [signed]
  by_cases hn : n < 0
  · rw [decide_eq_true hn, if_pos rfl]
    omega
  · rw [decide_eq_false hn, if_neg (by decide)]
    omega

theorem signed_zero (negative : Bool) : signed negative 0 = 0 := by
  cases negative <;> rfl

/-- An integer of 64 bits is read from its digits, with its sign known. -/
theorem extendInteger_toDigits {n : Int} (h : isInt64 n = true) :
    extendInteger (decide (n < 0)) 0 (Nat.toDigits 10 n.natAbs) = .ok n := by
  have hvalue : Nat.ofDigitChars 10 (Nat.toDigits 10 n.natAbs) 0 = n.natAbs :=
    digitsValue_toDigits n.natAbs
  have hrange : isInt64 (signed (decide (n < 0)) (Nat.ofDigitChars 10
      (Nat.toDigits 10 n.natAbs) 0)) = true := by
    rw [hvalue, signed_natAbs]
    exact h
  have hread := extendInteger_of_digits (fun _ => isDigit_of_mem_toDigits) hrange
  rwa [hvalue, signed_natAbs, signed_zero] at hread

end LayeredConfig
