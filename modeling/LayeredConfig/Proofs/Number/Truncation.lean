/-
  LayeredConfig.Proofs.Number.Truncation

  The integer parts of floating-point numbers.

  Dropping the digits behind the point leaves a floating-point number, without
  rounding (`whole_finite`).  The bounds that it is compared with are -2^63 and
  2^63, the latter being what the greatest integer of 64 bits is rounded to.
  The integers that come out are therefore just the integer parts that fit into
  64 bits (`toInt64?_finite`).
-/
import Mathlib.Data.Rat.Floor
import LayeredConfig.Number.Truncation
import LayeredConfig.Proofs.Number.Rounding
import LayeredConfig.Value

namespace LayeredConfig

namespace Double

/-! ## The unit

As in the proofs about rounding, the exponent is no literal where powers of two
are compared. -/

theorem exists_unitsPerOne_eq : ∃ exponent, unitsPerOne = 2 ^ exponent := by
  delta unitsPerOne
  generalize 1074 = n
  exact ⟨n, rfl⟩

theorem two_pow_eq_mul_unitsPerOne {m k : Nat} (h : m = 1074 + k) :
    2 ^ m = 2 ^ k * unitsPerOne := by
  delta unitsPerOne
  revert h
  generalize 1074 = n
  rintro rfl
  exact (Nat.pow_add 2 n k).trans (Nat.mul_comm _ _)

/-! ## Whole numbers among the ranks -/

theorem two_pow_le_div_mul {top bits count : Nat} (hbits : bits ≤ top) (h : 2 ^ top ≤ count) :
    2 ^ top ≤ count / 2 ^ bits * 2 ^ bits := by
  obtain ⟨rest, rfl⟩ := Nat.exists_eq_add_of_le' hbits
  rw [Nat.pow_add] at *
  exact Nat.mul_le_mul_right _ ((Nat.le_div_iff_mul_le (Nat.two_pow_pos bits)).mpr h)

/-- Below every rank there is one whose units are those of the rank down to a
    multiple of a power of two. -/
theorem exists_rank_multiple (rank exponent : Nat) :
    ∃ rank' ≤ rank, unitsAt rank' = unitsAt rank / 2 ^ exponent * 2 ^ exponent := by
  obtain ⟨count, hlow, hhigh, hrank⟩ := exists_count rank
  generalize rank / 2 ^ 52 - 1 = spacing at *
  have hunits : unitsAt rank = count * 2 ^ spacing := by
    rw [hrank, unitsAt_add hlow (Nat.le_of_lt hhigh)]
  rcases Nat.le_total exponent spacing with hle | hle
  · -- the units are a multiple already
    obtain ⟨more, rfl⟩ := Nat.exists_eq_add_of_le hle
    have hdvd : 2 ^ exponent ∣ unitsAt rank :=
      hunits ▸ Dvd.dvd.mul_left (pow_dvd_pow 2 (Nat.le_add_right exponent more)) count
    exact ⟨rank, Nat.le_refl rank, (Nat.div_mul_cancel hdvd).symm⟩
  · -- the last bits of the count are dropped: all of them, or not the first one
    obtain ⟨bits, rfl⟩ := Nat.exists_eq_add_of_le hle
    have hkept : unitsAt rank / 2 ^ (spacing + bits) * 2 ^ (spacing + bits)
        = count / 2 ^ bits * 2 ^ bits * 2 ^ spacing := by
      rw [hunits, Nat.add_comm spacing bits, Nat.pow_add,
        Nat.mul_div_mul_right _ _ (Nat.two_pow_pos spacing), Nat.mul_assoc]
    rw [hkept]
    rcases Nat.lt_or_ge count (2 ^ bits) with hall | hfirst
    · refine ⟨0, Nat.zero_le rank, ?_⟩
      rw [Nat.div_eq_of_lt hall, Nat.zero_mul, Nat.zero_mul, unitsAt_zero]
    · have hbits : bits ≤ 52 :=
        Nat.le_of_lt_succ ((Nat.pow_lt_pow_iff_right (by decide)).mp (hfirst.trans_lt hhigh))
      have hcount : count / 2 ^ bits * 2 ^ bits ≤ count := Nat.div_mul_le_self count (2 ^ bits)
      exact ⟨spacing * 2 ^ 52 + count / 2 ^ bits * 2 ^ bits, by omega,
        unitsAt_add (hlow.imp_right (two_pow_le_div_mul hbits)) (by omega)⟩

/-- A fraction that is a magnitude is not rounded. -/
theorem nearestRank_of_unitsAt {rank num den : Nat} (hden : 0 < den)
    (h : unitsAt rank * den = num * unitsPerOne) : nearestRank num den = rank := by
  have hmiddle : num * halfUnitsPerOne = unitsAt rank * den + unitsAt rank * den := by
    rw [halfUnitsPerOne_eq_two_mul, Nat.mul_left_comm, ← h, Nat.two_mul]
  have hprev : unitsAt (rank - 1) * den ≤ unitsAt rank * den :=
    Nat.mul_le_mul_right den (strictMono_unitsAt.monotone (Nat.sub_le rank 1))
  have hnext : unitsAt rank * den < unitsAt (rank + 1) * den :=
    Nat.mul_lt_mul_of_pos_right (strictMono_unitsAt (Nat.lt_succ_self rank)) hden
  refine nearestRank_eq_of_holds hden (Interval.holds_eq_true_iff.mpr ?_)
  simp only [intervalAt, Nat.add_mul, hmiddle, beq_eq_false_iff_ne]
  refine ⟨by omega, by omega, fun hodd => ?_⟩
  -- only rank 0 has no rank before it, and that is even
  have hstrict : unitsAt (rank - 1) * den < unitsAt rank * den :=
    Nat.mul_lt_mul_of_pos_right (strictMono_unitsAt (by omega)) hden
  omega

/-! ## The bounds -/

/-- The rank of 2^63. -/
def boundRank : Fin rankCount :=
  ⟨1086 * 2 ^ 52, by decide⟩

theorem unitsAt_boundRank : unitsAt boundRank = 2 ^ 63 * unitsPerOne := by
  have hrank : boundRank.val = (1085 + 1) * 2 ^ 52 + 0 := rfl
  rw [hrank, unitsAt_of_binade 1085 (by decide),
    two_pow_eq_mul_unitsPerOne (by decide : 1085 = 1074 + 11), Nat.add_zero, ← Nat.mul_assoc,
    ← Nat.pow_add]

/-- The ranks before 2^63 are 2^10 apart. -/
theorem unitsAt_before_boundRank :
    unitsAt (boundRank - 1) + 2 ^ 10 * unitsPerOne = 2 ^ 63 * unitsPerOne := by
  have hspacing : spacingAt (boundRank - 1) = 2 ^ 10 * unitsPerOne := by
    have hbinade : (boundRank.val - 1) / 2 ^ 52 - 1 = 1084 := by decide
    rw [spacingAt, hbinade, two_pow_eq_mul_unitsPerOne (by decide : 1084 = 1074 + 10)]
  have hsucc : boundRank.val - 1 + 1 = boundRank := by decide
  rw [← hspacing, ← unitsAt_succ, hsucc, unitsAt_boundRank]

theorem nearestRank_bound : nearestRank (2 ^ 63) 1 = boundRank :=
  nearestRank_of_unitsAt Nat.one_pos (by rw [unitsAt_boundRank, Nat.mul_one])

theorem nearestRank_below_bound : nearestRank (2 ^ 63 - 1) 1 = boundRank := by
  -- numbers round to 2^63 from half a step before it on, which is 2^9
  have hunits := unitsAt_boundRank
  have hprev := unitsAt_before_boundRank
  have hnext : unitsAt boundRank < unitsAt (boundRank + 1) :=
    strictMono_unitsAt (Nat.lt_succ_self boundRank)
  have hpos := unitsPerOne_pos
  have heven : boundRank.val % 2 = 0 := by decide
  refine nearestRank_eq_of_holds Nat.one_pos (Interval.holds_eq_true_iff.mpr ?_)
  simp only [intervalAt, halfUnitsPerOne_eq_two_mul, heven]
  generalize unitsPerOne = one at *
  refine ⟨by omega, by omega, by simp⟩

/-! ## Integer parts -/

/-- The units of an integer part, with the sign. -/
theorem signedUnits_of_whole {x y : Double} (hnegative : y.negative = x.negative)
    (hunits : y.units = x.units / unitsPerOne * unitsPerOne) :
    y.signedUnits = x.truncate * unitsPerOne := by
  rw [signedUnits, truncate, hnegative, hunits, Int.natCast_mul]
  cases x.negative with
  | false => rw [if_neg Bool.false_ne_true, if_neg Bool.false_ne_true]
  | true => rw [if_pos rfl, if_pos rfl, Int.neg_mul]

theorem truncate_of_whole {x y : Double} (hnegative : y.negative = x.negative)
    (hunits : y.units = x.units / unitsPerOne * unitsPerOne) : y.truncate = x.truncate := by
  rw [truncate, truncate, hnegative, hunits, Nat.mul_div_cancel _ unitsPerOne_pos]

/-- Without the digits behind its point a number is a floating-point number as it
    is: nothing is rounded. -/
theorem whole_finite (x : Double) :
    ∃ y : Double, (ExtendedDouble.finite x).whole = .finite y
      ∧ y.signedUnits = x.truncate * unitsPerOne ∧ y.truncate = x.truncate := by
  -- the rank found lies below that of `x`, so it is not past the last finite one
  obtain ⟨rank, hle, hrank⟩ : ∃ rank ≤ x.rank.val,
      unitsAt rank = x.units / unitsPerOne * unitsPerOne := by
    obtain ⟨exponent, hone⟩ := exists_unitsPerOne_eq
    rw [hone]
    exact exists_rank_multiple x.rank exponent
  have hnearest : nearestRank (x.units / unitsPerOne) 1 = rank :=
    nearestRank_of_unitsAt Nat.one_pos (by rw [hrank, Nat.mul_one])
  refine ⟨⟨x.negative, rank, hle.trans_lt x.rank.isLt⟩, ?_, ?_, ?_⟩
  · rw [ExtendedDouble.whole]
    exact ofRatio_of_nearestRank rfl hnearest
  · exact signedUnits_of_whole rfl hrank
  · exact truncate_of_whole rfl hrank

/-- The least integer of 64 bits is a floating-point number. -/
theorem compare_int64Min_ne_lt_iff {y : Double} :
    ExtendedDouble.compare (.finite y) (ExtendedDouble.ofInt int64Min) ≠ .lt ↔
      int64Min * unitsPerOne ≤ y.signedUnits := by
  have hbound : ExtendedDouble.ofInt int64Min = .finite ⟨true, boundRank⟩ :=
    ofRatio_of_nearestRank rfl nearestRank_bound
  have hunits : signedUnits ⟨true, boundRank⟩ = int64Min * unitsPerOne := by
    rw [signedUnits, units, unitsAt_boundRank, if_pos rfl, Int.natCast_mul, ← Int.neg_mul]
    rfl
  rw [hbound, ExtendedDouble.compare, ne_eq, compare_lt_iff_lt, Int.not_lt, hunits]

/-- The greatest integer of 64 bits is rounded up to the one behind it. -/
theorem compare_int64Max_eq_lt_iff {y : Double} :
    ExtendedDouble.compare (.finite y) (ExtendedDouble.ofInt int64Max) = .lt ↔
      y.signedUnits < (int64Max + 1) * unitsPerOne := by
  have hbound : ExtendedDouble.ofInt int64Max = .finite ⟨false, boundRank⟩ :=
    ofRatio_of_nearestRank rfl nearestRank_below_bound
  have hunits : signedUnits ⟨false, boundRank⟩ = (int64Max + 1) * unitsPerOne := by
    rw [signedUnits, units, unitsAt_boundRank, if_neg Bool.false_ne_true, Int.natCast_mul]
    rfl
  rw [hbound, ExtendedDouble.compare, compare_lt_iff_lt, hunits]

/-- The integers of 64 bits that come out of floating-point numbers are all their
    integer parts that fit. -/
theorem toInt64?_finite (x : Double) :
    (ExtendedDouble.finite x).toInt64? = if isInt64 x.truncate then some x.truncate else none := by
  obtain ⟨y, hwhole, hunits, htruncate⟩ := whole_finite x
  have hpos : (0 : Int) < unitsPerOne := Int.natCast_pos.mpr unitsPerOne_pos
  -- all that is compared is a whole number of ones, also the rounded upper bound
  have hrange : ((ExtendedDouble.finite y).isFinite
        && ExtendedDouble.compare (.finite y) (ExtendedDouble.ofInt int64Min) != .lt
        && ExtendedDouble.compare (.finite y) (ExtendedDouble.ofInt int64Max) == .lt) = true
      ↔ isInt64 x.truncate = true := by
    rw [Bool.and_eq_true, Bool.and_eq_true, bne_iff_ne, beq_iff_eq, compare_int64Min_ne_lt_iff,
      compare_int64Max_eq_lt_iff, hunits, Int.mul_le_mul_right hpos, Int.mul_lt_mul_right hpos,
      Int.lt_add_one_iff, isInt64_iff]
    exact and_congr_left' (and_iff_right rfl)
  rw [ExtendedDouble.toInt64?, hwhole]
  by_cases hn : isInt64 x.truncate = true
  · -- what fits is not cut off
    obtain ⟨hmin, hmax⟩ := isInt64_iff.mp hn
    rw [if_pos (hrange.mpr hn), if_pos hn, ExtendedDouble.saturate, htruncate,
      Int.min_eq_right hmax, Int.max_eq_right hmin]
  · rw [if_neg (mt hrange.mp hn), if_neg hn]

/-! ## Exact values -/

/-- The exact value of a floating-point number. -/
def toRat (x : Double) : ℚ :=
  (x.signedUnits : ℚ) / (unitsPerOne : ℚ)

end Double

/-- The exact value of a number. -/
def Number.toRat : Number → ℚ
  | .int n => n
  | .float x => x.toRat

/-- The integer next to `q` on the side of zero. -/
def towardZero (q : ℚ) : ℤ :=
  if 0 ≤ q then ⌊q⌋ else ⌈q⌉

theorem towardZero_intCast (n : ℤ) : towardZero n = n := by
  rw [towardZero, Int.floor_intCast, Int.ceil_intCast, ite_self]

theorem towardZero_neg (q : ℚ) : towardZero (-q) = -towardZero q := by
  rcases lt_trichotomy q 0 with hneg | rfl | hpos
  · rw [towardZero, towardZero, if_pos (neg_nonneg.mpr hneg.le), if_neg hneg.not_ge, Int.floor_neg]
  · rfl
  · rw [towardZero, towardZero, if_neg (neg_lt_zero.mpr hpos).not_ge, if_pos hpos.le, Int.ceil_neg]

theorem towardZero_div (n d : Nat) : towardZero ((n : ℚ) / (d : ℚ)) = (n / d : Nat) := by
  rw [towardZero, if_pos (by positivity), Rat.floor_natCast_div_natCast, Int.natCast_ediv]

/-- Dropping the digits behind the point goes towards zero. -/
theorem Double.truncate_eq_towardZero (x : Double) : x.truncate = towardZero x.toRat := by
  rw [truncate, toRat, signedUnits]
  cases x.negative with
  | false =>
    rw [if_neg Bool.false_ne_true, if_neg Bool.false_ne_true, Int.cast_natCast, towardZero_div]
  | true =>
    rw [if_pos rfl, if_pos rfl, Int.cast_neg, Int.cast_natCast, neg_div, towardZero_neg,
      towardZero_div]

end LayeredConfig
