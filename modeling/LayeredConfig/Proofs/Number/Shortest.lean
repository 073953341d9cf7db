/-
  LayeredConfig.Proofs.Number.Shortest

  The shortest decimal reads back.

  At a power of ten below the distance to the next rank one of the two multiples
  around a number lies in its interval, and the search comes to such a power
  within its twenty steps (`lt_spacingAt`).  What lies in the interval of a rank
  rounds to that rank, so the decimal that the search ends with denotes the
  number that it was made from (`toDouble_shortest`).
-/
import LayeredConfig.Proofs.Number.Rounding

namespace LayeredConfig

/-! ## Decimals in intervals -/

namespace Decimal

/-- The denominator of a decimal. -/
def scale (d : Decimal) : Nat :=
  Nat.pow 10 (-d.exponent).toNat

/-- The numerator of a decimal. -/
def scaled (d : Decimal) : Nat :=
  d.digits * Nat.pow 10 d.exponent.toNat

/-- Whether the magnitude of a decimal lies in an interval. -/
def LiesIn (d : Decimal) (i : Double.Interval) : Prop :=
  i.holds d.scale (d.scaled * Double.halfUnitsPerOne) = true

theorem scale_pos (d : Decimal) : 0 < d.scale :=
  Nat.pow_pos (by decide)

/-- How many digits a decimal has. -/
def places (d : Decimal) : Nat :=
  (Nat.toDigits 10 d.digits).length

/-- Between the bounds on the powers of ten a decimal is rounded as a
    fraction. -/
theorem toDouble_eq_ofRatio {d : Decimal} (hdigits : d.digits ≠ 0) {k : Nat} (hk : k = 400)
    (hmost : d.exponent + d.places ≤ k) (hleast : -k ≤ d.exponent + d.places) :
    d.toDouble = .ofRatio d.negative d.scaled d.scale := by
  rw [places] at hmost hleast
  simp only [toDouble, hdigits, if_false]
  rw [if_neg (by omega), if_neg (by omega)]
  obtain ⟨negative, digits, exponent⟩ := d
  cases exponent with
  | ofNat e =>
    have hscale : (-(Int.ofNat e)).toNat = 0 := by
      rw [Int.ofNat_eq_natCast]
      omega
    simp only [scaled, scale, hscale]
    rfl
  | negSucc e => exact congrArg (ExtendedDouble.ofRatio negative · _) (Nat.mul_one digits).symm

theorem toDouble_of_digits_eq_zero {d : Decimal} (h : d.digits = 0) :
    d.toDouble = .finite (.zero d.negative) := by
  rw [toDouble]
  exact if_pos h

theorem digits_lt_pow (d : Decimal) : d.digits < 10 ^ d.places :=
  (Nat.length_toDigits_le_iff (by decide) (List.length_pos_iff.mpr Nat.toDigits_ne_nil)).mp
    (Nat.le_refl _)

theorem pow_le_digits {d : Decimal} (hdigits : d.digits ≠ 0) {k : Nat} (hk : k < d.places) :
    10 ^ k ≤ d.digits := by
  cases k with
  | zero => exact Nat.pos_of_ne_zero hdigits
  | succ k =>
    by_contra hlt
    have hle := (Nat.length_toDigits_le_iff (by decide) k.succ_pos).mpr (Nat.lt_of_not_le hlt)
    exact absurd hle (Nat.not_le_of_lt hk)

/-- A decimal that is not large has no large exponent. -/
theorem exponent_le {d : Decimal} (hdigits : d.digits ≠ 0) {unit bound k : Nat}
    (h : d.scaled * unit ≤ bound * d.scale) (hbound : bound < unit * 10 ^ k) :
    d.exponent + d.places ≤ k := by
  by_contra hover
  have hplaces : 0 < d.places := List.length_pos_iff.mpr Nat.toDigits_ne_nil
  have hpow : 10 ^ k * d.scale ≤ d.scaled :=
    calc 10 ^ k * d.scale = 10 ^ (k + (-d.exponent).toNat) := (Nat.pow_add 10 k _).symm
      _ ≤ 10 ^ (d.places - 1 + d.exponent.toNat) := Nat.pow_le_pow_right (by decide) (by omega)
      _ = 10 ^ (d.places - 1) * 10 ^ d.exponent.toNat := Nat.pow_add 10 _ _
      _ ≤ d.scaled := Nat.mul_le_mul_right _ (pow_le_digits hdigits (by omega))
  have hlt : bound * d.scale < d.scaled * unit :=
    calc bound * d.scale < unit * 10 ^ k * d.scale := Nat.mul_lt_mul_of_pos_right hbound d.scale_pos
      _ = unit * (10 ^ k * d.scale) := Nat.mul_assoc _ _ _
      _ ≤ unit * d.scaled := Nat.mul_le_mul_left unit hpow
      _ = d.scaled * unit := Nat.mul_comm _ _
  omega

/-- A decimal that is not small has no small exponent. -/
theorem le_exponent {d : Decimal} {unit k : Nat} (h : d.scale ≤ d.scaled * unit)
    (hunit : unit < 10 ^ k) : -k ≤ d.exponent + d.places := by
  by_contra hunder
  have hpow : d.scaled * 10 ^ k < d.scale :=
    calc d.scaled * 10 ^ k = d.digits * 10 ^ (d.exponent.toNat + k) := by
          rw [scaled, Nat.pow_add, Nat.mul_assoc]
          rfl
      _ < 10 ^ d.places * 10 ^ (d.exponent.toNat + k) :=
        Nat.mul_lt_mul_of_pos_right d.digits_lt_pow (Nat.pow_pos (by decide))
      _ = 10 ^ (d.places + (d.exponent.toNat + k)) := (Nat.pow_add 10 _ _).symm
      _ ≤ 10 ^ (-d.exponent).toNat := Nat.pow_le_pow_right (by decide) (by omega)
      _ = d.scale := rfl
  have hle : d.scaled * unit ≤ d.scaled * 10 ^ k := Nat.mul_le_mul_left _ (Nat.le_of_lt hunit)
  omega

end Decimal

namespace Double

/-! ## Multiples of a power of ten -/

variable {i : Interval} {tie : Tie} {power : Int}

/-- The multiple that is chosen lies in the interval. -/
theorem holds_of_multiple? {count : Nat} (h : i.multiple? tie power = some count) :
    i.holds (Nat.pow 10 (-power).toNat)
      (count * (Nat.pow 10 power.toNat * halfUnitsPerOne)) = true := by
  simp only [Interval.multiple?, two_pow_eq_halfUnitsPerOne] at h
  generalize Nat.pow 10 power.toNat * halfUnitsPerOne = unit at *
  generalize Nat.pow 10 (-power).toNat = scale at *
  generalize i.middle * scale / unit = below at *
  have hnext : (below + 1) * unit = below * unit + unit := Nat.succ_mul below unit
  split at h
  · simp at h
  · rename_i hbelow habove
    obtain rfl := Option.some.inj h
    exact hbelow
  · rename_i hbelow habove
    obtain rfl := Option.some.inj h
    rw [hnext]
    exact habove
  · rename_i hbelow habove
    rw [← hnext] at habove
    have hchosen : count = below ∨ count = below + 1 := by
      split at h
      · exact Or.inl (Option.some.inj h).symm
      · split at h
        · exact Or.inr (Option.some.inj h).symm
        · split at h
          · exact Or.inr (Option.some.inj h).symm
          · obtain rfl := Option.some.inj h
            omega
    rcases hchosen with rfl | rfl
    · exact hbelow
    · exact habove

/-- If a power of ten is less than the distance from the middle to the upper
    bound, then its next multiple above the middle lies in the interval. -/
theorem exists_multiple? (hlow : i.low ≤ i.middle)
    (h : i.middle * Nat.pow 10 (-power).toNat + Nat.pow 10 power.toNat * halfUnitsPerOne
      < i.high * Nat.pow 10 (-power).toNat) : ∃ count, i.multiple? tie power = some count := by
  have hunit : 0 < Nat.pow 10 power.toNat * halfUnitsPerOne :=
    Nat.mul_pos (Nat.pow_pos (by decide)) halfUnitsPerOne_pos
  simp only [Interval.multiple?, two_pow_eq_halfUnitsPerOne]
  generalize Nat.pow 10 power.toNat * halfUnitsPerOne = unit at *
  generalize Nat.pow 10 (-power).toNat = scale at *
  have hlowScale : i.low * scale ≤ i.middle * scale := Nat.mul_le_mul_right scale hlow
  have hbelow : i.middle * scale / unit * unit ≤ i.middle * scale := Nat.div_mul_le_self _ _
  have habove : i.middle * scale < i.middle * scale / unit * unit + unit :=
    Nat.lt_div_mul_add hunit
  have hholds : i.holds scale (i.middle * scale / unit * unit + unit) = true := by
    rw [Interval.holds_eq_true_iff]
    omega
  rw [hholds]
  split
  · simp_all
  · simp_all
  · exact ⟨_, rfl⟩
  · split
    · exact ⟨_, rfl⟩
    · split
      · exact ⟨_, rfl⟩
      · cases tie <;> exact ⟨_, rfl⟩

/-- A search that comes to a power with a multiple ends with a multiple. -/
theorem multiple?_search {steps : Nat} (k : Nat) (hk : k < steps)
    (h : ∃ count, i.multiple? tie (power - k) = some count) :
    i.multiple? tie (i.search tie steps power).2 = some (i.search tie steps power).1 := by
  induction steps generalizing power k with
  | zero => omega
  | succ steps ih =>
    rw [Interval.search]
    split
    · assumption
    · rename_i hnone
      cases k with
      | zero =>
        obtain ⟨count, hcount⟩ := h
        rw [Int.natCast_zero, Int.sub_zero, hnone] at hcount
        simp at hcount
      | succ k =>
        refine ih k (Nat.lt_of_succ_lt_succ hk) ?_
        have hpower : power - 1 - (k : Int) = power - ((k + 1 : Nat) : Int) := by omega
        rwa [hpower]

/-! ## Powers of ten and of two -/

theorem ten_pow_mul_lt {p m s : Nat} (h : 196 * p + 59 * m < 59 * s) :
    10 ^ p * 2 ^ m < 2 ^ s := by
  -- 10^59 lies below 2^196
  have hten : (10 ^ p) ^ 59 ≤ 2 ^ (196 * p) := by
    calc (10 ^ p) ^ 59 = (10 ^ 59) ^ p := Nat.pow_right_comm 10 p 59
      _ ≤ (2 ^ 196) ^ p := Nat.pow_le_pow_left (by decide) p
      _ = 2 ^ (196 * p) := (Nat.pow_mul 2 196 p).symm
  refine lt_of_pow_lt_pow_left' 59 ?_
  calc (10 ^ p * 2 ^ m) ^ 59 = (10 ^ p) ^ 59 * (2 ^ m) ^ 59 := Nat.mul_pow _ _ 59
    _ ≤ 2 ^ (196 * p) * 2 ^ (m * 59) :=
      Nat.mul_le_mul hten (Nat.le_of_eq (Nat.pow_mul 2 m 59).symm)
    _ = 2 ^ (196 * p + m * 59) := (Nat.pow_add 2 _ _).symm
    _ < 2 ^ (s * 59) := Nat.pow_lt_pow_right (by decide) (by omega)
    _ = (2 ^ s) ^ 59 := Nat.pow_mul 2 s 59

theorem two_pow_lt_mul {n m s : Nat} (h : 28 * m < 28 * s + 93 * n) :
    2 ^ m < 2 ^ s * 10 ^ n := by
  -- 2^93 lies below 10^28
  have hten : 2 ^ (93 * n) ≤ (10 ^ n) ^ 28 := by
    calc 2 ^ (93 * n) = (2 ^ 93) ^ n := Nat.pow_mul 2 93 n
      _ ≤ (10 ^ 28) ^ n := Nat.pow_le_pow_left (by decide) n
      _ = (10 ^ n) ^ 28 := (Nat.pow_right_comm 10 n 28).symm
  refine lt_of_pow_lt_pow_left' 28 ?_
  calc (2 ^ m) ^ 28 = 2 ^ (m * 28) := (Nat.pow_mul 2 m 28).symm
    _ < 2 ^ (s * 28 + 93 * n) := Nat.pow_lt_pow_right (by decide) (by omega)
    _ = 2 ^ (s * 28) * 2 ^ (93 * n) := Nat.pow_add 2 _ _
    _ ≤ (2 ^ s) ^ 28 * (10 ^ n) ^ 28 :=
      Nat.mul_le_mul (Nat.le_of_eq (Nat.pow_mul 2 s 28)) hten
    _ = (2 ^ s * 10 ^ n) ^ 28 := (Nat.mul_pow _ _ 28).symm

/-! ## The last step of a search -/

theorem log2_unitsAt_le (rank : Nat) : (unitsAt rank).log2 ≤ 52 + (rank / 2 ^ 52 - 1) := by
  by_cases hzero : unitsAt rank = 0
  · rw [hzero, Nat.log2_zero]
    exact Nat.zero_le _
  · have hlt : unitsAt rank < 2 ^ (53 + (rank / 2 ^ 52 - 1)) :=
      Nat.pow_add 2 53 _ ▸ unitsAt_lt rank
    have hlog := (Nat.log2_lt hzero).mpr hlt
    omega

/-- The last power that a search comes to is less than the distance to the next
    rank. -/
theorem lt_spacingAt {rank : Nat} (hrank : rank < rankCount) :
    Nat.pow 10 (powerAbove rank - 19).toNat * halfUnitsPerOne
      < spacingAt rank * Nat.pow 10 (-(powerAbove rank - 19)).toNat := by
  have hlog := log2_unitsAt_le rank
  obtain ⟨m, hm, hunits⟩ : ∃ m, m = 1075 ∧ halfUnitsPerOne = Nat.pow 2 m :=
    ⟨1075, rfl, two_pow_eq_halfUnitsPerOne.symm⟩
  have hbinade : rank / 2 ^ 52 ≤ 2046 := by
    have hcount : rankCount = 2047 * 2 ^ 52 := rfl
    omega
  simp only [spacingAt, powerAbove, Nat.pow_eq, hunits]
  generalize (unitsAt rank).log2 = log at *
  generalize hspacing : rank / 2 ^ 52 - 1 = spacing at *
  generalize hpower : ((log - 1073 : Int) * 30103 / 100000 + 1 - 19) = power
  rcases Int.le_total 0 power with hpos | hneg
  · have hnone : (-power).toNat = 0 := by omega
    have hbound : 196 * power.toNat + 59 * m < 59 * spacing := by omega
    rw [hnone, Nat.pow_zero, Nat.mul_one]
    exact ten_pow_mul_lt hbound
  · have hnone : power.toNat = 0 := by omega
    have hbound : 28 * m < 28 * spacing + 93 * (-power).toNat := by omega
    rw [hnone, Nat.pow_zero, Nat.one_mul]
    exact two_pow_lt_mul hbound

/-- The shortest decimal of a number other than zero lies in its interval. -/
theorem liesIn_shortest (tie : Tie) {x : Double} (hx : x.isZero = false) :
    (x.shortest tie).LiesIn (intervalAt x.rank) := by
  have hmiddle : (intervalAt x.rank).middle + spacingAt x.rank = (intervalAt x.rank).high := by
    simp only [intervalAt, unitsAt_succ]
    omega
  have hlow : (intervalAt x.rank).low ≤ (intervalAt x.rank).middle := by
    have hmono := strictMono_unitsAt.monotone (Nat.sub_le x.rank 1)
    simp only [intervalAt]
    omega
  have hlast : (intervalAt x.rank).middle * Nat.pow 10 (-(powerAbove x.rank - 19)).toNat
      + Nat.pow 10 (powerAbove x.rank - 19).toNat * halfUnitsPerOne
      < (intervalAt x.rank).high * Nat.pow 10 (-(powerAbove x.rank - 19)).toNat := by
    rw [← hmiddle, Nat.add_mul]
    exact Nat.add_lt_add_left (lt_spacingAt x.rank.isLt) _
  have hsome : ∃ count,
      (intervalAt x.rank).multiple? tie (powerAbove x.rank - (19 : Nat)) = some count :=
    exists_multiple? hlow hlast
  have hholds := holds_of_multiple? (multiple?_search 19 (by decide : 19 < 20) hsome)
  simp only [shortest, hx, Bool.false_eq_true, if_false]
  rw [Decimal.LiesIn, Decimal.scaled, Nat.mul_assoc]
  exact hholds

/-! ## Reading back -/

theorem low_pos {rank : Nat} (h : 0 < rank) : 0 < (intervalAt rank).low :=
  Nat.add_pos_right _ (unitsAt_pos_iff.mpr h)

/-- No interval of a finite number goes beyond 2^1024. -/
theorem high_le {rank : Nat} (h : rank < rankCount) :
    (intervalAt rank).high ≤ 2 * unitsAt rankCount := by
  have hthis : unitsAt rank ≤ unitsAt rankCount := strictMono_unitsAt.monotone (Nat.le_of_lt h)
  have hnext : unitsAt (rank + 1) ≤ unitsAt rankCount := strictMono_unitsAt.monotone h
  exact (Nat.add_le_add hthis hnext).trans_eq (Nat.two_mul _).symm

theorem two_pow_three_mul_le (k : Nat) : 2 ^ (3 * k) ≤ 10 ^ k := by
  rw [Nat.pow_mul]
  exact Nat.pow_le_pow_left (by decide) k

/-- What 400 powers of ten are more than. -/
theorem exists_bound : ∃ bound k : Nat, k = 400
    ∧ (∀ rank < rankCount, (intervalAt rank).high ≤ bound)
    ∧ bound < halfUnitsPerOne * 10 ^ k ∧ halfUnitsPerOne < 10 ^ k := by
  obtain ⟨m, hm, hunits⟩ : ∃ m, m = 1075 ∧ halfUnitsPerOne = Nat.pow 2 m :=
    ⟨1075, rfl, two_pow_eq_halfUnitsPerOne.symm⟩
  obtain ⟨k, hk⟩ : ∃ k, k = 400 := ⟨400, rfl⟩
  obtain ⟨binade, hbinade, hcount⟩ : ∃ binade, binade = 2046
      ∧ rankCount = (binade + 1) * 2 ^ 52 + 0 := ⟨2046, rfl, rfl⟩
  have hlast : 2 * unitsAt rankCount = 2 ^ (53 + binade) := by
    rw [hcount, unitsAt_of_binade binade (by decide), Nat.pow_add]
    ring
  have hpower := two_pow_three_mul_le k
  refine ⟨2 * unitsAt rankCount, k, hk, fun _ h => high_le h, ?_, ?_⟩
  · calc 2 * unitsAt rankCount = 2 ^ (53 + binade) := hlast
      _ < 2 ^ (m + 3 * k) := Nat.pow_lt_pow_right (by decide) (by omega)
      _ = 2 ^ m * 2 ^ (3 * k) := Nat.pow_add 2 m (3 * k)
      _ ≤ 2 ^ m * 10 ^ k := Nat.mul_le_mul_left _ hpower
      _ = halfUnitsPerOne * 10 ^ k := by rw [hunits, Nat.pow_eq]
  · calc halfUnitsPerOne = 2 ^ m := hunits
      _ < 2 ^ (3 * k) := Nat.pow_lt_pow_right (by decide) (by omega)
      _ ≤ 10 ^ k := hpower

theorem isZero_eq_false_iff {x : Double} : x.isZero = false ↔ 0 < x.rank.val := by
  rw [isZero, beq_eq_false_iff_ne, Nat.pos_iff_ne_zero, ne_eq, ne_eq, Fin.ext_iff]
  rfl

/-- A decimal in the interval of a number other than zero denotes that number. -/
theorem toDouble_of_liesIn {d : Decimal} {x : Double} (hx : x.isZero = false)
    (hnegative : d.negative = x.negative) (h : d.LiesIn (intervalAt x.rank)) :
    d.toDouble = .finite x := by
  have hnearest : nearestRank d.scaled d.scale = x.rank := nearestRank_eq_of_holds d.scale_pos h
  obtain ⟨hlow, hhigh, -⟩ := Interval.holds_eq_true_iff.mp h
  have hbelow : d.scale ≤ d.scaled * halfUnitsPerOne :=
    (Nat.le_mul_of_pos_left _ (low_pos (isZero_eq_false_iff.mp hx))).trans hlow
  obtain ⟨bound, k, hk, hbound, hlarge, hsmall⟩ := exists_bound
  have habove : d.scaled * halfUnitsPerOne ≤ bound * d.scale :=
    hhigh.trans (Nat.mul_le_mul_right _ (hbound _ x.rank.isLt))
  have hdigits : d.digits ≠ 0 := by
    intro hzero
    rw [Decimal.scaled, hzero, Nat.zero_mul, Nat.zero_mul] at hbelow
    exact absurd d.scale_pos (Nat.not_lt_of_le hbelow)
  have hmost : d.exponent + d.places ≤ k := Decimal.exponent_le hdigits habove hlarge
  have hleast : -k ≤ d.exponent + d.places := Decimal.le_exponent hbelow hsmall
  exact (Decimal.toDouble_eq_ofRatio hdigits hk hmost hleast).trans
    (ofRatio_of_nearestRank hnegative hnearest)

theorem eq_zero_of_isZero {x : Double} (hx : x.isZero = true) : x = .zero x.negative := by
  have hrank : x.rank = 0 := by simpa only [isZero, beq_iff_eq] using hx
  cases x with
  | mk negative rank => exact congrArg (Double.mk negative) hrank

theorem negative_shortest (tie : Tie) (x : Double) : (x.shortest tie).negative = x.negative := by
  rw [shortest]
  split <;> rfl

/-- The shortest decimal of a number denotes it. -/
theorem toDouble_shortest (tie : Tie) (x : Double) : (x.shortest tie).toDouble = .finite x := by
  cases hx : x.isZero with
  | false => exact toDouble_of_liesIn hx (negative_shortest tie x) (liesIn_shortest tie hx)
  | true =>
    rw [shortest, if_pos hx, Decimal.toDouble_of_digits_eq_zero rfl, ← eq_zero_of_isZero hx]

end Double

end LayeredConfig
