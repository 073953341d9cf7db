/-
  LayeredConfig.Proofs.Number.Layout

  The plain layout of a number reads back.

  Without bounds on the exponent a number is laid out with a point and digits on
  both sides of it.  Wherever the point stands, and however many zeros fill up
  the digits, the parts denote the decimal that was laid out (`Decimal.Same`),
  and with it the number (`exists_render`).
-/
import LayeredConfig.Proofs.Number.Digits
import LayeredConfig.Proofs.Number.Shortest

namespace LayeredConfig

/-! ## Decimals with the same value -/

/-- Decimals with the same sign and magnitude. -/
structure Decimal.Same (c d : Decimal) : Prop where
  negative : c.negative = d.negative
  magnitude : c.scaled * d.scale = d.scaled * c.scale

theorem Decimal.same_refl (d : Decimal) : d.Same d := ⟨rfl, rfl⟩

theorem Decimal.scaled_eq_zero_iff {d : Decimal} : d.scaled = 0 ↔ d.digits = 0 := by
  have hpow : Nat.pow 10 d.exponent.toNat ≠ 0 := (Nat.pow_pos (by decide)).ne'
  rw [scaled, Nat.mul_eq_zero, or_iff_left hpow]

namespace Double

theorem Interval.holds_congr {i : Interval} {s x s' x' : Nat} (hs : 0 < s) (hs' : 0 < s')
    (h : x * s' = x' * s) : i.holds s x = i.holds s' x' := by
  have hcross (bound : Nat) : bound * s * s' = bound * s' * s := Nat.mul_right_comm bound s s'
  have hle (bound : Nat) : bound * s ≤ x ↔ bound * s' ≤ x' := by
    rw [← Nat.mul_le_mul_right_iff hs', hcross, h, Nat.mul_le_mul_right_iff hs]
  have hge (bound : Nat) : x ≤ bound * s ↔ x' ≤ bound * s' := by
    rw [← Nat.mul_le_mul_right_iff hs', hcross, h, Nat.mul_le_mul_right_iff hs]
  simp only [holds, Nat.lt_iff_le_and_not_ge, hle, hge]

/-- A decimal that is the same as the shortest one of a number denotes it. -/
theorem toDouble_of_same {c : Decimal} {tie : Tie} {x : Double} (h : c.Same (x.shortest tie)) :
    c.toDouble = .finite x := by
  have hnegative : c.negative = x.negative := h.negative.trans (negative_shortest tie x)
  cases hx : x.isZero with
  | false =>
    have hlies := liesIn_shortest tie hx
    have hunits : (x.shortest tie).scaled * halfUnitsPerOne * c.scale
        = c.scaled * halfUnitsPerOne * (x.shortest tie).scale := by
      rw [Nat.mul_right_comm, ← h.magnitude, Nat.mul_right_comm]
    refine toDouble_of_liesIn hx hnegative ?_
    rw [Decimal.LiesIn, Interval.holds_congr (Decimal.scale_pos _) c.scale_pos hunits] at hlies
    exact hlies
  | true =>
    have hmagnitude := h.magnitude
    have hdigits : c.digits = 0 := by
      have hnone : (x.shortest tie).scaled = 0 := by
        rw [shortest, if_pos hx]
        exact Decimal.scaled_eq_zero_iff.mpr rfl
      rw [hnone, Nat.zero_mul, Nat.mul_eq_zero] at hmagnitude
      exact Decimal.scaled_eq_zero_iff.mp
        (hmagnitude.resolve_right (Decimal.scale_pos _).ne')
    rw [Decimal.toDouble_of_digits_eq_zero hdigits, hnegative, ← eq_zero_of_isZero hx]

/-! ## The parts around the point -/

/-- What plain digits consist of, and the decimal that the parts denote. -/
structure PlainParts (text whole fraction : List Char) (n : Nat) (exponent : Int) : Prop where
  eq : text = whole ++ '.' :: fraction
  isWhole : IsWhole whole
  ne_nil : fraction ≠ []
  isDigit : ∀ c ∈ fraction, c.isDigit = true
  same : ∀ negative, (Decimal.ofParts negative whole fraction 0).Same ⟨negative, n, exponent⟩

theorem isDigit_of_mem_zeros {n : Nat} {c : Char} (h : c ∈ List.replicate n '0') :
    c.isDigit = true := by
  rw [List.eq_of_mem_replicate h]
  rfl

/-- The point stands before the digits, behind zeros. -/
theorem plainParts_before {n : Nat} {exponent : Int}
    (h : exponent + (Nat.toDigits 10 n).length ≤ 0) :
    PlainParts (plainDigits (Nat.toDigits 10 n) (exponent + (Nat.toDigits 10 n).length)) ['0']
      (List.replicate (-(exponent + (Nat.toDigits 10 n).length)).toNat '0' ++ Nat.toDigits 10 n)
      n exponent where
  eq := by simp [plainDigits, h]
  isWhole := isWhole_toDigits 0
  ne_nil := by simp [Nat.toDigits_ne_nil]
  isDigit := List.forall_mem_append.mpr
    ⟨fun _ => isDigit_of_mem_zeros, fun _ => isDigit_of_mem_toDigits⟩
  same := fun negative => by
    have hdecimal : Decimal.ofParts negative ['0'] (List.replicate
        (-(exponent + (Nat.toDigits 10 n).length)).toNat '0' ++ Nat.toDigits 10 n) 0
        = ⟨negative, n, exponent⟩ := by
      have hzero : digitsValue ['0'] = 0 := rfl
      rw [Decimal.ofParts, digitsValue_append, digitsValue_append, digitsValue_zeros,
        digitsValue_toDigits, hzero, Nat.mul_zero, Nat.mul_zero, Nat.zero_add, Nat.zero_add]
      rw [List.length_append, List.length_replicate]
      congr 1
      omega
    rw [hdecimal]
    exact Decimal.same_refl _

/-- The point stands behind the digits and zeros. -/
theorem plainParts_behind {n : Nat} {exponent : Int} (hn : n ≠ 0 ∨ exponent = 0)
    (h : 0 ≤ exponent) :
    PlainParts (plainDigits (Nat.toDigits 10 n) (exponent + (Nat.toDigits 10 n).length))
      (Nat.toDigits 10 n ++ List.replicate exponent.toNat '0') ['0'] n exponent where
  eq := by
    have hlength : 0 < (Nat.toDigits 10 n).length := List.length_pos_iff.mpr Nat.toDigits_ne_nil
    rw [plainDigits, if_neg (by omega)]
    simp only
    rw [if_pos (by omega)]
    have hzeros : (exponent + (Nat.toDigits 10 n).length).toNat - (Nat.toDigits 10 n).length
        = exponent.toNat := by omega
    rw [hzeros]
  isWhole := by
    rcases hn with hn | rfl
    · exact (isWhole_toDigits n).append (head?_toDigits hn) fun _ => isDigit_of_mem_zeros
    · rw [Int.toNat_zero, List.replicate_zero, List.append_nil]
      exact isWhole_toDigits n
  ne_nil := by simp
  isDigit := by simp
  same := fun negative => by
    obtain ⟨k, rfl⟩ := Int.eq_ofNat_of_zero_le h
    have hdigits : digitsValue (Nat.toDigits 10 n ++ List.replicate k '0' ++ ['0'])
        = 10 ^ (k + 1) * n := by
      rw [List.append_assoc, ← List.replicate_succ', digitsValue_append, digitsValue_zeros,
        digitsValue_toDigits, List.length_replicate, Nat.add_zero]
    refine ⟨rfl, ?_⟩
    have hdown : (-(k : Int)).toNat = 0 := by omega
    have hup : (-((0 : Int) - (1 : Nat))).toNat = 1 := by decide
    rw [Int.toNat_natCast, Decimal.ofParts, hdigits]
    simp only [Decimal.scaled, Decimal.scale, List.length_singleton, Int.toNat_natCast, hdown, hup]
    -- the zero behind the point is made up for by one power of ten more
    show 10 ^ (k + 1) * n * 10 ^ 0 * 10 ^ 0 = n * 10 ^ k * 10 ^ 1
    rw [Nat.pow_succ]
    ring

/-- The point stands among the digits. -/
theorem plainParts_among {n : Nat} {exponent : Int} (hleast : exponent < 0)
    (hmost : 0 < exponent + (Nat.toDigits 10 n).length) :
    PlainParts (plainDigits (Nat.toDigits 10 n) (exponent + (Nat.toDigits 10 n).length))
      ((Nat.toDigits 10 n).take (exponent + (Nat.toDigits 10 n).length).toNat)
      ((Nat.toDigits 10 n).drop (exponent + (Nat.toDigits 10 n).length).toNat) n exponent where
  eq := by
    rw [plainDigits, if_neg (by omega)]
    simp only
    rw [if_neg (by omega), List.append_assoc, List.singleton_append]
  isWhole := by
    obtain ⟨k, hk⟩ : ∃ k, (exponent + (Nat.toDigits 10 n).length).toNat = k + 1 :=
      ⟨_, (Nat.succ_pred_eq_of_pos (by omega)).symm⟩
    have hhead : ((Nat.toDigits 10 n).take (k + 1)).head? = (Nat.toDigits 10 n).head? := by
      cases Nat.toDigits 10 n <;> rfl
    rw [hk]
    refine ⟨?_, fun c hc => isDigit_of_mem_toDigits (List.mem_of_mem_take hc), fun hzero => ?_⟩
    · simp [Nat.toDigits_ne_nil]
    · have hone := congrArg List.length ((isWhole_toDigits n).lead (hhead ▸ hzero))
      rw [List.length_singleton] at hone
      omega
  ne_nil := by
    rw [ne_eq, List.drop_eq_nil_iff]
    omega
  isDigit := fun c hc => isDigit_of_mem_toDigits (List.mem_of_mem_drop hc)
  same := fun negative => by
    have hdecimal : Decimal.ofParts negative
        ((Nat.toDigits 10 n).take (exponent + (Nat.toDigits 10 n).length).toNat)
        ((Nat.toDigits 10 n).drop (exponent + (Nat.toDigits 10 n).length).toNat) 0
        = ⟨negative, n, exponent⟩ := by
      rw [Decimal.ofParts, List.take_append_drop, digitsValue_toDigits, List.length_drop]
      congr 1
      omega
    rw [hdecimal]
    exact Decimal.same_refl _

theorem exists_plainParts {n : Nat} {exponent : Int} (hn : n ≠ 0 ∨ exponent = 0) :
    ∃ whole fraction, PlainParts
      (plainDigits (Nat.toDigits 10 n) (exponent + (Nat.toDigits 10 n).length))
      whole fraction n exponent := by
  by_cases hbefore : exponent + (Nat.toDigits 10 n).length ≤ 0
  · exact ⟨_, _, plainParts_before hbefore⟩
  · by_cases hbehind : 0 ≤ exponent
    · exact ⟨_, _, plainParts_behind hn hbehind⟩
    · exact ⟨_, _, plainParts_among (by omega) (by omega)⟩

/-! ## Rendered numbers -/

theorem exists_plainDigits_cons {c : Char} (hc : c.isDigit = true) (digits : List Char)
    (before : Int) :
    ∃ d rest, plainDigits (c :: digits) before = d :: rest ∧ d.isDigit = true := by
  rw [plainDigits]
  split
  · exact ⟨'0', _, rfl, by decide⟩
  · simp only
    split
    · exact ⟨c, _, rfl, hc⟩
    · obtain ⟨n, hn⟩ : ∃ n, before.toNat = n + 1 := Nat.exists_eq_add_one.mpr (by omega)
      rw [hn, List.take_succ_cons]
      exact ⟨c, _, rfl, hc⟩

theorem exists_scientificDigits_cons {c : Char} (hc : c.isDigit = true) (plusSign : Bool)
    (digits : List Char) (exponent : Int) :
    ∃ d rest, scientificDigits plusSign (c :: digits) exponent = d :: rest
      ∧ d.isDigit = true := by
  cases digits with
  | nil => exact ⟨c, _, rfl, hc⟩
  | cons d digits => exact ⟨c, _, rfl, hc⟩

/-- A number begins with a sign or a digit in every layout. -/
theorem exists_render_cons (layout : Layout) (x : Double) :
    ∃ c rest, x.render layout = c :: rest ∧ (c = '-' ∨ c.isDigit = true) := by
  obtain ⟨c, digits, hdigits⟩ :=
    List.exists_cons_of_ne_nil (Nat.toDigits_ne_nil (n := (x.shortest layout.tie).digits))
  have hc : c.isDigit = true :=
    isDigit_of_mem_toDigits (hdigits ▸ List.mem_cons_self)
  rw [render, hdigits]
  cases x.negative with
  | true => exact ⟨'-', _, rfl, Or.inl rfl⟩
  | false =>
    rw [if_neg Bool.false_ne_true, List.nil_append]
    split
    · obtain ⟨d, rest, heq, hd⟩ := exists_plainDigits_cons hc digits _
      exact ⟨d, rest, heq, Or.inr hd⟩
    · obtain ⟨d, rest, heq, hd⟩ := exists_scientificDigits_cons hc layout.plusSign digits _
      exact ⟨d, rest, heq, Or.inr hd⟩

theorem digits_shortest_ne_zero (tie : Tie) (x : Double) :
    (x.shortest tie).digits ≠ 0 ∨ (x.shortest tie).exponent = 0 := by
  cases hx : x.isZero with
  | true =>
    right
    rw [shortest, if_pos hx]
  | false =>
    refine Or.inl fun hdigits => ?_
    have hzero := toDouble_shortest tie x
    rw [Decimal.toDouble_of_digits_eq_zero hdigits, ExtendedDouble.finite.injEq] at hzero
    rw [← hzero] at hx
    exact absurd hx (by simp [isZero, zero])

/-- The digits on both sides of the point of a text of `x`. -/
structure Spells (x : Double) (whole fraction : List Char) : Prop where
  isWhole : IsWhole whole
  ne_nil : fraction ≠ []
  isDigit : ∀ c ∈ fraction, c.isDigit = true
  toDouble : (Decimal.ofParts x.negative whole fraction 0).toDouble = .finite x

/-- Without bounds on the plain form, a number is written with a point between
    digits that denote it. -/
theorem exists_render {layout : Layout} (hfrom : layout.plainFrom = none)
    (hto : layout.plainTo = none) (x : Double) :
    ∃ whole fraction, x.Spells whole fraction
      ∧ x.render layout = (if x.negative then ['-'] else []) ++ (whole ++ '.' :: fraction) := by
  obtain ⟨whole, fraction, hparts⟩ := exists_plainParts (digits_shortest_ne_zero layout.tie x)
  refine ⟨whole, fraction, ⟨hparts.isWhole, hparts.ne_nil, hparts.isDigit, ?_⟩, ?_⟩
  · have hsame := hparts.same x.negative
    rw [← negative_shortest layout.tie x] at hsame ⊢
    exact toDouble_of_same hsame
  · rw [← hparts.eq, render]
    simp only [hfrom, hto, Option.all_none, Bool.and_self, if_true, Int.sub_add_cancel]

end Double

end LayeredConfig
