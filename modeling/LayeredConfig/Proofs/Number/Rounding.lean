/-
  LayeredConfig.Proofs.Number.Rounding

  Rounding to the nearest rank.

  The intervals around the ranks cover the non-negative numbers, and no two of
  them share a number: where they meet, the bound belongs to the even rank.  The
  rank that a fraction is rounded to is the one whose interval it lies in
  (`holds_nearestRank`), and therefore the only one (`nearestRank_eq_of_holds`).
-/
import LayeredConfig.Number.Shortest
import Mathlib.Order.Monotone.Basic
import Mathlib.Tactic.Ring

namespace LayeredConfig.Double

/-! ## Magnitudes -/

theorem unitsAt_of_lt {rank : Nat} (h : rank < 2 ^ 52) : unitsAt rank = rank := by
  have hbinade : rank / Nat.pow 2 52 = 0 := Nat.div_eq_of_lt h
  rw [unitsAt, hbinade]

theorem unitsAt_zero : unitsAt 0 = 0 :=
  unitsAt_of_lt (by decide)

theorem unitsAt_of_binade (binade : Nat) {offset : Nat} (h : offset < 2 ^ 52) :
    unitsAt ((binade + 1) * 2 ^ 52 + offset) = (2 ^ 52 + offset) * 2 ^ binade := by
  have hbinade : ((binade + 1) * 2 ^ 52 + offset) / Nat.pow 2 52 = binade + 1 := by
    rw [Nat.pow_eq]
    omega
  have hoffset : ((binade + 1) * 2 ^ 52 + offset) % Nat.pow 2 52 = offset := by
    rw [Nat.pow_eq]
    omega
  rw [unitsAt, hbinade, hoffset]
  rfl

/-- Inside of a binade ranks are `2^spacing` units apart, up to and with the
    first rank of the next one. -/
theorem unitsAt_add {spacing count : Nat} (hlow : spacing = 0 ∨ 2 ^ 52 ≤ count)
    (hhigh : count ≤ 2 ^ 53) : unitsAt (spacing * 2 ^ 52 + count) = count * 2 ^ spacing := by
  rcases Nat.lt_or_ge count (2 ^ 52) with hcount | hcount
  · obtain rfl : spacing = 0 := by omega
    rw [Nat.zero_mul, Nat.zero_add, unitsAt_of_lt hcount, Nat.pow_zero, Nat.mul_one]
  · rcases Nat.lt_or_ge count (2 ^ 53) with hlt | hge
    · have hrank : spacing * 2 ^ 52 + count = (spacing + 1) * 2 ^ 52 + (count - 2 ^ 52) := by omega
      rw [hrank, unitsAt_of_binade spacing (by omega), Nat.add_sub_cancel' hcount]
    · obtain rfl : count = 2 ^ 53 := Nat.le_antisymm hhigh hge
      have hrank : spacing * 2 ^ 52 + 2 ^ 53 = (spacing + 1 + 1) * 2 ^ 52 + 0 := by omega
      rw [hrank, unitsAt_of_binade (spacing + 1) (by decide)]
      ring

/-- Every rank is a count of 53 bits or less from the start of its binade. -/
theorem exists_count (rank : Nat) : ∃ count,
    (rank / 2 ^ 52 - 1 = 0 ∨ 2 ^ 52 ≤ count) ∧ count < 2 ^ 53
      ∧ rank = (rank / 2 ^ 52 - 1) * 2 ^ 52 + count :=
  ⟨rank - (rank / 2 ^ 52 - 1) * 2 ^ 52, by omega, by omega, by omega⟩

/-- How far the next rank is away. -/
def spacingAt (rank : Nat) : Nat :=
  2 ^ (rank / 2 ^ 52 - 1)

theorem unitsAt_succ (rank : Nat) : unitsAt (rank + 1) = unitsAt rank + spacingAt rank := by
  obtain ⟨count, hlow, hhigh, hrank⟩ := exists_count rank
  rw [spacingAt]
  generalize rank / 2 ^ 52 - 1 = spacing at *
  have hnext : spacing = 0 ∨ 2 ^ 52 ≤ count + 1 := hlow.imp_right Nat.le_succ_of_le
  calc unitsAt (rank + 1) = unitsAt (spacing * 2 ^ 52 + (count + 1)) := by rw [hrank, Nat.add_assoc]
    _ = (count + 1) * 2 ^ spacing := unitsAt_add hnext hhigh
    _ = count * 2 ^ spacing + 2 ^ spacing := Nat.succ_mul count _
    _ = unitsAt rank + 2 ^ spacing := by
      rw [← unitsAt_add hlow (Nat.le_of_lt hhigh), ← hrank]

theorem unitsAt_lt (rank : Nat) : unitsAt rank < 2 ^ 53 * spacingAt rank := by
  obtain ⟨count, hlow, hhigh, hrank⟩ := exists_count rank
  rw [spacingAt]
  generalize rank / 2 ^ 52 - 1 = spacing at *
  rw [hrank, unitsAt_add hlow (Nat.le_of_lt hhigh)]
  exact Nat.mul_lt_mul_of_pos_right hhigh (Nat.two_pow_pos spacing)

theorem spacingAt_pos (rank : Nat) : 0 < spacingAt rank :=
  Nat.two_pow_pos _

theorem strictMono_unitsAt : StrictMono unitsAt := by
  refine strictMono_nat_of_lt_succ fun rank => ?_
  have hpos := spacingAt_pos rank
  rw [unitsAt_succ]
  omega

theorem unitsAt_pos_iff {rank : Nat} : 0 < unitsAt rank ↔ 0 < rank := by
  rw [← unitsAt_zero, strictMono_unitsAt.lt_iff_lt, unitsAt_zero]

/-! ## Intervals -/

theorem Interval.holds_eq_true_iff {i : Interval} {scale x : Nat} :
    i.holds scale x = true ↔
      i.low * scale ≤ x ∧ x ≤ i.high * scale
        ∧ (i.closed = false → i.low * scale < x ∧ x < i.high * scale) := by
  rw [holds]
  cases i.closed with
  | true => simp
  | false =>
    simp only [Bool.false_eq_true, if_false, Bool.and_eq_true, decide_eq_true_eq, true_implies]
    omega

/-- Two intervals have nothing in common. -/
theorem rank_le_of_holds {rank other scale x : Nat} (hscale : 0 < scale)
    (h : (intervalAt rank).holds scale x = true)
    (hother : (intervalAt other).holds scale x = true) : rank ≤ other := by
  rw [Interval.holds_eq_true_iff] at h hother
  by_contra hlt
  have hlt : other < rank := Nat.lt_of_not_le hlt
  -- the upper bound of the one is at most the lower bound of the other
  have hprev : unitsAt other ≤ unitsAt (rank - 1) :=
    strictMono_unitsAt.monotone (Nat.le_pred_of_lt hlt)
  have hnext : unitsAt (other + 1) ≤ unitsAt rank := strictMono_unitsAt.monotone hlt
  have hbounds : (intervalAt other).high * scale ≤ (intervalAt rank).low * scale :=
    Nat.mul_le_mul_right scale (Nat.add_le_add hprev hnext)
  obtain ⟨hlow, -, hopen⟩ := h
  obtain ⟨-, hhigh, hopenOther⟩ := hother
  rcases Nat.lt_or_ge (other + 1) rank with hfar | hnear
  · -- a whole interval lies in between
    have hstrict : unitsAt (other + 1) < unitsAt rank := strictMono_unitsAt hfar
    have hapart : (intervalAt other).high * scale < (intervalAt rank).low * scale :=
      Nat.mul_lt_mul_of_pos_right (Nat.add_lt_add_of_le_of_lt hprev hstrict) hscale
    omega
  · -- of two neighbours one is odd
    have hodd : (intervalAt rank).closed = false ∨ (intervalAt other).closed = false := by
      simp only [intervalAt, beq_eq_false_iff_ne]
      omega
    rcases hodd with hrank | hrank
    · have := hopen hrank
      omega
    · have := hopenOther hrank
      omega

/-! ## Rounding -/

/-- The nearest integer, twice over: a whole number of denominators is at most
    half of one away, and exactly half of one only if it is even. -/
theorem roundHalfEven_spec (num : Nat) {den : Nat} (hden : 0 < den) :
    2 * (roundHalfEven num den * den) ≤ 2 * num + den
      ∧ 2 * num ≤ 2 * (roundHalfEven num den * den) + den
      ∧ (roundHalfEven num den % 2 = 1 →
        2 * (roundHalfEven num den * den) < 2 * num + den
          ∧ 2 * num < 2 * (roundHalfEven num den * den) + den) := by
  have hnum : num / den * den + num % den = num := by
    rw [Nat.mul_comm]
    exact Nat.div_add_mod num den
  have hrest : num % den < den := Nat.mod_lt num hden
  have hnext : (num / den + 1) * den = num / den * den + den := Nat.succ_mul _ _
  simp only [roundHalfEven]
  split
  · omega
  · split
    · omega
    · rcases Nat.mod_two_eq_zero_or_one (num / den) with heven | hodd
      · rw [heven, Nat.add_zero]
        omega
      · rw [hodd]
        omega

/-- The spacing that a fraction is rounded at: the count of such steps up to it
    has exactly 53 bits, or the spacing is the least one. -/
theorem spacing_spec (scaled : Nat) {den : Nat} (hden : 0 < den) {spacing : Nat}
    (hspacing : spacing = (scaled / den).log2 - 52) :
    scaled < 2 ^ 53 * (den * 2 ^ spacing)
      ∧ (spacing = 0 ∨ 2 ^ 52 * (den * 2 ^ spacing) ≤ scaled) := by
  have hassoc (n : Nat) : n * (den * 2 ^ spacing) = n * 2 ^ spacing * den := by ring
  rw [hassoc, hassoc, ← Nat.div_lt_iff_lt_mul hden, ← Nat.le_div_iff_mul_le hden,
    ← Nat.pow_add, ← Nat.pow_add]
  constructor
  · calc scaled / den < 2 ^ ((scaled / den).log2 + 1) := Nat.lt_log2_self
      _ ≤ 2 ^ (53 + spacing) := Nat.pow_le_pow_right (by decide) (by omega)
  · by_cases hzero : spacing = 0
    · exact Or.inl hzero
    · have hlog : 52 + spacing = (scaled / den).log2 := by omega
      have hne : scaled / den ≠ 0 := by
        intro hdiv
        rw [hdiv, Nat.log2_zero] at hlog
        omega
      exact Or.inr (hlog ▸ Nat.log2_self_le hne)

/-- A number of half units lies in the interval around a count of steps if it is
    at most half a step away from it. -/
theorem holds_of_nearest {scaled den spacing step count : Nat} (hden : 0 < den)
    (hstep : step = den * 2 ^ spacing)
    (hlow : spacing = 0 ∨ 2 ^ 52 ≤ count ∧ 2 ^ 52 * step ≤ scaled)
    (hhigh : count ≤ 2 ^ 53) (hlt : scaled < 2 ^ 53 * step)
    (hbelow : 2 * (count * step) ≤ 2 * scaled + step)
    (habove : 2 * scaled ≤ 2 * (count * step) + step)
    (hodd : count % 2 = 1 →
      2 * (count * step) < 2 * scaled + step ∧ 2 * scaled < 2 * (count * step) + step) :
    (intervalAt (spacing * 2 ^ 52 + count)).holds den (2 * scaled) = true := by
  have hunits (n : Nat) : n * 2 ^ spacing * den = n * step := by
    rw [hstep]
    ring
  have hmiddle : unitsAt (spacing * 2 ^ 52 + count) * den = count * step := by
    rw [unitsAt_add (hlow.imp_right And.left) hhigh, hunits]
  -- the bounds lie halfway to the neighbours, which are a step away within a binade
  have hlowBound : (intervalAt (spacing * 2 ^ 52 + count)).low * den ≤ 2 * scaled
      ∧ (count % 2 = 1 → (intervalAt (spacing * 2 ^ 52 + count)).low * den < 2 * scaled) := by
    rw [intervalAt, Nat.add_mul, hmiddle]
    by_cases hzero : spacing * 2 ^ 52 + count = 0
    · obtain rfl : count = 0 := by omega
      rw [hzero, unitsAt_zero]
      omega
    · by_cases hinside : spacing = 0 ∨ 2 ^ 52 < count
      · have hrank : spacing * 2 ^ 52 + count - 1 = spacing * 2 ^ 52 + (count - 1) := by omega
        have hsucc : (count - 1) * step + step = count * step := by
          rw [← Nat.succ_mul, Nat.succ_eq_add_one, Nat.sub_add_cancel (by omega)]
        have hprev : unitsAt (spacing * 2 ^ 52 + count - 1) * den + step = count * step := by
          rw [hrank, unitsAt_add (by omega) (by omega), hunits, hsucc]
        omega
      · -- at the start of a binade the rank before is nearer
        obtain rfl : count = 2 ^ 52 := by omega
        have hprev : unitsAt (spacing * 2 ^ 52 + 2 ^ 52 - 1) * den < 2 ^ 52 * step :=
          hmiddle ▸ Nat.mul_lt_mul_of_pos_right (strictMono_unitsAt (by omega)) hden
        omega
  have hhighBound : 2 * scaled ≤ (intervalAt (spacing * 2 ^ 52 + count)).high * den
      ∧ (count % 2 = 1 → 2 * scaled < (intervalAt (spacing * 2 ^ 52 + count)).high * den) := by
    rw [intervalAt, Nat.add_mul, hmiddle]
    rcases Nat.lt_or_ge count (2 ^ 53) with hinside | hend
    · have hnext : unitsAt (spacing * 2 ^ 52 + count + 1) * den = count * step + step := by
        rw [Nat.add_assoc, unitsAt_add (by omega) hinside, hunits, Nat.succ_mul]
      omega
    · -- at the end of a binade the rank behind is farther away
      obtain rfl : count = 2 ^ 53 := by omega
      have hnext : 2 ^ 53 * step < unitsAt (spacing * 2 ^ 52 + 2 ^ 53 + 1) * den :=
        hmiddle ▸ Nat.mul_lt_mul_of_pos_right (strictMono_unitsAt (by omega)) hden
      omega
  rw [Interval.holds_eq_true_iff]
  refine ⟨hlowBound.1, hhighBound.1, fun hopen => ?_⟩
  have hcount : count % 2 = 1 := by
    simp only [intervalAt, beq_eq_false_iff_ne] at hopen
    omega
  exact ⟨hlowBound.2 hcount, hhighBound.2 hcount⟩

/-- Bounds of intervals are counted in half units: 1 is that many of them.  The
    number is not unfolded on its own, since no proof needs its digits. -/
@[irreducible] def halfUnitsPerOne : Nat := 2 * unitsPerOne

/-- In the following proofs the exponents are no literals where powers of two are
    compared, so that none of these is computed. -/
theorem two_pow_of_eq_succ {m n : Nat} (h : m = n + 1) : Nat.pow 2 m = 2 * Nat.pow 2 n := by
  subst h
  exact Nat.pow_succ'

theorem halfUnitsPerOne_eq_two_mul : halfUnitsPerOne = 2 * unitsPerOne := by
  delta halfUnitsPerOne
  rfl

theorem two_pow_eq_halfUnitsPerOne : Nat.pow 2 1075 = halfUnitsPerOne := by
  delta halfUnitsPerOne unitsPerOne
  generalize hhalf : 1075 = m
  generalize hone : 1074 = n
  exact two_pow_of_eq_succ (by omega)

theorem unitsPerOne_pos : 0 < unitsPerOne := by
  delta unitsPerOne
  generalize 1074 = n
  exact Nat.two_pow_pos n

theorem halfUnitsPerOne_pos : 0 < halfUnitsPerOne := by
  rw [halfUnitsPerOne_eq_two_mul]
  exact Nat.mul_pos Nat.two_pos unitsPerOne_pos

/-- A fraction lies in the interval of the rank that it is rounded to. -/
theorem holds_nearestRank (num : Nat) {den : Nat} (hden : 0 < den) :
    (intervalAt (nearestRank num den)).holds den (num * halfUnitsPerOne) = true := by
  have htwice : num * halfUnitsPerOne = 2 * (num * unitsPerOne) := by
    rw [halfUnitsPerOne_eq_two_mul, Nat.mul_left_comm]
  rw [htwice, nearestRank]
  generalize num * unitsPerOne = scaled
  obtain ⟨spacing, hspacing⟩ : ∃ spacing, spacing = (scaled / den).log2 - 52 := ⟨_, rfl⟩
  obtain ⟨step, hstep⟩ : ∃ step, step = den * 2 ^ spacing := ⟨_, rfl⟩
  obtain ⟨hlt, hge⟩ := spacing_spec scaled hden hspacing
  rw [← hstep] at hlt hge
  have hpos : 0 < step := hstep ▸ Nat.mul_pos hden (Nat.two_pow_pos spacing)
  obtain ⟨hbelow, habove, hodd⟩ := roundHalfEven_spec scaled hpos
  simp only [← hspacing, Nat.pow_eq, ← hstep]
  generalize roundHalfEven scaled step = count at *
  -- what is counted stays in the binade, its end included
  have hhigh : count ≤ 2 ^ 53 := by
    by_contra hover
    have hmul : (2 ^ 53 + 1) * step ≤ count * step := Nat.mul_le_mul_right step (by omega)
    omega
  have hlow : spacing = 0 ∨ 2 ^ 52 ≤ count ∧ 2 ^ 52 * step ≤ scaled := by
    refine hge.imp_right fun hge => ⟨?_, hge⟩
    by_contra hunder
    have hmul : (count + 1) * step ≤ 2 ^ 52 * step := Nat.mul_le_mul_right step (by omega)
    rw [Nat.succ_mul] at hmul
    omega
  exact holds_of_nearest hden hstep hlow hhigh hlt hbelow habove hodd

/-- The rank that a fraction is rounded to is the one in whose interval it
    lies. -/
theorem nearestRank_eq_of_holds {rank num den : Nat} (hden : 0 < den)
    (h : (intervalAt rank).holds den (num * halfUnitsPerOne) = true) : nearestRank num den = rank :=
  have hnearest := holds_nearestRank num hden
  Nat.le_antisymm (rank_le_of_holds hden hnearest h) (rank_le_of_holds hden h hnearest)

theorem ofRatio_of_nearestRank {negative : Bool} {num den : Nat} {x : Double}
    (hnegative : negative = x.negative) (h : nearestRank num den = x.rank) :
    ExtendedDouble.ofRatio negative num den = .finite x := by
  have hlt : nearestRank num den < rankCount := h ▸ x.rank.isLt
  have hx : x = ⟨negative, nearestRank num den, hlt⟩ := by
    cases x with
    | mk negative' rank =>
      obtain rfl := hnegative
      exact congrArg (Double.mk negative) (Fin.ext h.symm)
  have hsome : ofRatio negative num den = some ⟨negative, nearestRank num den, hlt⟩ := by
    unfold ofRatio
    exact dif_pos hlt
  rw [ExtendedDouble.ofRatio, hsome, hx, Option.elim_some]

end LayeredConfig.Double
