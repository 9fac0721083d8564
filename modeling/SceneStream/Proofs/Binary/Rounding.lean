import Mathlib.Algebra.Order.Field.Power
import Mathlib.Data.Rat.Floor
import Mathlib.Tactic.Linarith
import Mathlib.Tactic.NormNum
import Mathlib.Tactic.Positivity
import SceneStream.Binary.Nearest

/-!
# Rounding keeps the order

Rounding to a binary format is a function on the rationals: the fraction is counted in the format's
unit, the count is rounded to an integer, and the integer is counted in the unit again. The unit grows
with the fraction, so that the function is monotone; on whole numbers that fit it does nothing. As long
as nothing overflows, the operations on binary numbers give exactly these values.
-/

namespace SceneStream

/-! ## Whole numbers -/

theorem floor_le_nearestEven (x : ℚ) : x.floor ≤ nearestEven x := by
  simp only [nearestEven]
  split <;> omega

theorem nearestEven_le_floor (x : ℚ) : nearestEven x ≤ x.floor + 1 := by
  simp only [nearestEven]
  split <;> omega

theorem nearestEven_intCast (n : ℤ) : nearestEven n = n := by
  simp [nearestEven, Rat.floor_intCast]

theorem nearestEven_mono {x y : ℚ} (le : x ≤ y) : nearestEven x ≤ nearestEven y := by
  have floors : x.floor ≤ y.floor := Rat.le_floor_iff.mpr ((Rat.floor_le x).trans le)
  rcases floors.lt_or_eq with less | same
  · exact (nearestEven_le_floor x).trans ((Int.add_one_le_of_lt less).trans (floor_le_nearestEven y))
  · -- Above a common floor, the greater fraction is rounded up wherever the smaller one is.
    have twice : 2 * (x - x.floor) ≤ 2 * (y - x.floor) := by linarith
    simp only [nearestEven, ← same]
    split
    next up =>
      have up' : 1 < 2 * (y - x.floor) ∨ 2 * (y - x.floor) = 1 ∧ x.floor % 2 = 1 := by
        rcases up with above | ⟨half, odd⟩
        · exact .inl (above.trans_le twice)
        · rcases (half ▸ twice).lt_or_eq with above | half'
          · exact .inl above
          · exact .inr ⟨half'.symm, odd⟩
      rw [if_pos up']
    next => split <;> omega

theorem le_nearestEven {n : ℤ} {x : ℚ} (le : n ≤ x) : n ≤ nearestEven x :=
  nearestEven_intCast n ▸ nearestEven_mono le

theorem nearestEven_le {n : ℤ} {x : ℚ} (le : x ≤ n) : nearestEven x ≤ n :=
  nearestEven_intCast n ▸ nearestEven_mono le

namespace Binary

/-! ## Powers of two -/

theorem twoPow_eq_zpow (q : ℤ) : twoPow q = (2 : ℚ) ^ q := by
  cases q with
  | ofNat n =>
      change ((2 ^ n : ℕ) : ℚ) = (2 : ℚ) ^ (n : ℤ)
      rw [Nat.cast_pow, zpow_natCast, Nat.cast_ofNat]
  | negSucc n =>
      change mkRat 1 (2 ^ (n + 1)) = _
      rw [Rat.mkRat_eq_div, zpow_negSucc]
      simp

theorem twoPow_pos (q : ℤ) : 0 < twoPow q := by
  rw [twoPow_eq_zpow]
  positivity

theorem twoPow_le_iff {p q : ℤ} : twoPow p ≤ twoPow q ↔ p ≤ q := by
  rw [twoPow_eq_zpow, twoPow_eq_zpow]
  exact zpow_le_zpow_iff_right₀ one_lt_two

theorem twoPow_lt_iff {p q : ℤ} : twoPow p < twoPow q ↔ p < q := by
  rw [twoPow_eq_zpow, twoPow_eq_zpow]
  exact zpow_lt_zpow_iff_right₀ one_lt_two

theorem twoPow_add (p q : ℤ) : twoPow (p + q) = twoPow p * twoPow q := by
  simp only [twoPow_eq_zpow]
  exact zpow_add₀ two_ne_zero p q

@[simp] theorem twoPow_zero : twoPow 0 = 1 := by
  rw [twoPow_eq_zpow, zpow_zero]

theorem twoPow_natCast (n : ℕ) : twoPow n = (2 ^ n : ℕ) := by
  rw [twoPow_eq_zpow, zpow_natCast, Nat.cast_pow, Nat.cast_ofNat]

/-- A positive number lies between the power of two that its logarithm names and the next one. -/
theorem log2_bounds {n : ℕ} (positive : n ≠ 0) :
    twoPow (n.log2 : ℤ) ≤ n ∧ n < twoPow ((n.log2 : ℤ) + 1) := by
  have low : 2 ^ n.log2 ≤ n := Nat.log2_self_le positive
  have high : n < 2 ^ (n.log2 + 1) := Nat.lt_log2_self
  rw [twoPow_natCast, ← Nat.cast_succ, twoPow_natCast]
  exact ⟨by exact_mod_cast low, by exact_mod_cast high⟩

/-- A positive fraction lies between the power of two that `floorLog2` names and the next one. -/
theorem floorLog2_bounds {x : ℚ} (positive : 0 < x) :
    twoPow (floorLog2 x) ≤ x ∧ x < twoPow (floorLog2 x + 1) := by
  have num_pos : 0 < x.num := Rat.num_pos.mpr positive
  have num_eq : x * x.den = (x.num.natAbs : ℚ) := by
    rw [Rat.mul_den_eq_num, ← Int.cast_natCast, Int.natAbs_of_nonneg num_pos.le]
  have den_pos : (0 : ℚ) < x.den := by exact_mod_cast x.den_pos
  obtain ⟨num_low, num_high⟩ := log2_bounds (n := x.num.natAbs) (by omega)
  obtain ⟨den_low, den_high⟩ := log2_bounds x.den_nz
  -- The quotient of the two logarithms is off by one at most.
  have low : twoPow ((x.num.natAbs.log2 : ℤ) - x.den.log2 - 1) ≤ x := by
    apply le_of_mul_le_mul_right _ den_pos
    calc twoPow ((x.num.natAbs.log2 : ℤ) - x.den.log2 - 1) * x.den
        ≤ twoPow ((x.num.natAbs.log2 : ℤ) - x.den.log2 - 1) * twoPow ((x.den.log2 : ℤ) + 1) :=
          mul_le_mul_of_nonneg_left den_high.le (twoPow_pos _).le
      _ = twoPow (x.num.natAbs.log2 : ℤ) := by rw [← twoPow_add]; congr 1; omega
      _ ≤ x * x.den := num_eq ▸ num_low
  have high : x < twoPow ((x.num.natAbs.log2 : ℤ) - x.den.log2 + 1) := by
    apply lt_of_mul_lt_mul_right _ den_pos.le
    calc x * x.den < twoPow ((x.num.natAbs.log2 : ℤ) + 1) := num_eq ▸ num_high
      _ = twoPow ((x.num.natAbs.log2 : ℤ) - x.den.log2 + 1) * twoPow (x.den.log2 : ℤ) := by
          rw [← twoPow_add]; congr 1; omega
      _ ≤ twoPow ((x.num.natAbs.log2 : ℤ) - x.den.log2 + 1) * x.den :=
          mul_le_mul_of_nonneg_left den_low (twoPow_pos _).le
  simp only [floorLog2]
  split
  next below => exact ⟨low, by rwa [Int.sub_add_cancel]⟩
  next above => exact ⟨not_lt.mp above, high⟩

theorem floorLog2_mono {x y : ℚ} (positive : 0 < x) (le : x ≤ y) : floorLog2 x ≤ floorLog2 y := by
  have low := (floorLog2_bounds positive).1
  have high := (floorLog2_bounds (positive.trans_le le)).2
  exact Int.lt_add_one_iff.mp (twoPow_lt_iff.mp ((low.trans le).trans_lt high))

/-! ## Rounding a magnitude -/

namespace Format

variable (f : Format)

/-- The value that a magnitude is rounded to, as long as it does not overflow. -/
def roundMagnitude (x : ℚ) : ℚ := nearestEven (x / twoPow (f.unit x)) * twoPow (f.unit x)

/-- The value that a fraction is rounded to, as long as it does not overflow. -/
def round (x : ℚ) : ℚ := if x < 0 then -f.roundMagnitude (-x) else f.roundMagnitude x

theorem roundMagnitude_zero : f.roundMagnitude 0 = 0 := by
  have : nearestEven 0 = 0 := nearestEven_intCast 0
  rw [roundMagnitude, zero_div, this, Int.cast_zero, zero_mul]

theorem roundMagnitude_nonneg {x : ℚ} (nonneg : 0 ≤ x) : 0 ≤ f.roundMagnitude x := by
  have count : (0 : ℤ) ≤ nearestEven (x / twoPow (f.unit x)) :=
    le_nearestEven (by exact_mod_cast div_nonneg nonneg (twoPow_pos _).le)
  exact mul_nonneg (by exact_mod_cast count) (twoPow_pos _).le

variable {f}

theorem unit_mono {x y : ℚ} (positive : 0 < x) (le : x ≤ y) : f.unit x ≤ f.unit y :=
  max_le_max_right f.least (sub_le_sub_right (floorLog2_mono positive le) _)

theorem capacity_cast : (f.capacity : ℚ) = twoPow f.precision := (twoPow_natCast f.precision).symm

/-- The count of a magnitude in its unit has room. -/
theorem count_le_capacity {x : ℚ} (positive : 0 < x) :
    nearestEven (x / twoPow (f.unit x)) ≤ f.capacity := by
  apply nearestEven_le
  rw [div_le_iff₀ (twoPow_pos _), Int.cast_natCast, capacity_cast, ← twoPow_add]
  have fine : floorLog2 x - (f.precision - 1) ≤ f.unit x := le_max_left _ _
  exact (floorLog2_bounds positive).2.le.trans (twoPow_le_iff.mpr (by omega))

/-- A magnitude that is not counted in the least unit fills the upper half of the room. -/
theorem capacity_le_count {x : ℚ} (positive : 0 < x) (room : 0 < f.precision)
    (normal : f.unit x ≠ f.least) :
    (f.capacity : ℤ) ≤ 2 * nearestEven (x / twoPow (f.unit x)) := by
  have unit : f.unit x = floorLog2 x - (f.precision - 1) :=
    (max_choice _ _).resolve_right normal
  have half : ((2 ^ (f.precision - 1) : ℕ) : ℤ) ≤ nearestEven (x / twoPow (f.unit x)) := by
    apply le_nearestEven
    rw [le_div_iff₀ (twoPow_pos _), Int.cast_natCast, ← twoPow_natCast, ← twoPow_add]
    exact (twoPow_le_iff.mpr (by omega)).trans (floorLog2_bounds positive).1
  have whole : (f.capacity : ℤ) = 2 * (2 ^ (f.precision - 1) : ℕ) := by
    obtain ⟨p, hp⟩ := Nat.exists_eq_succ_of_ne_zero room.ne'
    change ((2 ^ f.precision : ℕ) : ℤ) = _
    rw [hp, Nat.succ_sub_one, pow_succ']
    push_cast
    ring
  omega

theorem roundMagnitude_mono (room : 0 < f.precision) {x y : ℚ} (nonneg : 0 ≤ x) (le : x ≤ y) :
    f.roundMagnitude x ≤ f.roundMagnitude y := by
  rcases nonneg.eq_or_lt with rfl | positive
  · rw [roundMagnitude_zero]
    exact f.roundMagnitude_nonneg le
  have unit_pos := twoPow_pos (f.unit x)
  rcases (unit_mono (f := f) positive le).eq_or_lt with same | coarser
  · -- In the same unit, the counts have the order of the magnitudes.
    rw [roundMagnitude, roundMagnitude, ← same]
    have count := nearestEven_mono (div_le_div_of_nonneg_right le unit_pos.le)
    exact mul_le_mul_of_nonneg_right (by exact_mod_cast count) unit_pos.le
  · -- A full room in the finer unit is half a room in the next one.
    have low : (nearestEven (x / twoPow (f.unit x)) : ℚ) ≤ f.capacity := by
      exact_mod_cast count_le_capacity positive
    have normal : f.unit y ≠ f.least := by
      have : f.least ≤ f.unit x := le_max_right _ _
      omega
    have high : (f.capacity : ℚ) ≤ 2 * nearestEven (y / twoPow (f.unit y)) := by
      exact_mod_cast capacity_le_count (positive.trans_le le) room normal
    have doubled : twoPow (f.unit x) * 2 ≤ twoPow (f.unit y) := by
      have two : twoPow 1 = 2 := by rw [twoPow_eq_zpow, zpow_one]
      rw [← two, ← twoPow_add]
      exact twoPow_le_iff.mpr coarser
    calc f.roundMagnitude x ≤ f.capacity * twoPow (f.unit x) :=
          mul_le_mul_of_nonneg_right low unit_pos.le
      _ ≤ 2 * nearestEven (y / twoPow (f.unit y)) * twoPow (f.unit x) :=
          mul_le_mul_of_nonneg_right high unit_pos.le
      _ = nearestEven (y / twoPow (f.unit y)) * (twoPow (f.unit x) * 2) := by ring
      _ ≤ f.roundMagnitude y := by
          apply mul_le_mul_of_nonneg_left doubled
          have : (0 : ℤ) ≤ nearestEven (y / twoPow (f.unit y)) :=
            le_nearestEven (by exact_mod_cast div_nonneg (nonneg.trans le) (twoPow_pos _).le)
          exact_mod_cast this

theorem round_mono (room : 0 < f.precision) {x y : ℚ} (le : x ≤ y) : f.round x ≤ f.round y := by
  unfold round
  split <;> split
  next x_neg y_neg =>
    exact neg_le_neg (roundMagnitude_mono room (neg_nonneg.mpr y_neg.le) (neg_le_neg le))
  next x_neg y_nonneg =>
    have := f.roundMagnitude_nonneg (neg_nonneg.mpr x_neg.le)
    have := f.roundMagnitude_nonneg (not_lt.mp y_nonneg)
    linarith
  next x_nonneg y_neg => exact absurd (le.trans_lt y_neg) x_nonneg
  next x_nonneg y_nonneg => exact roundMagnitude_mono room (not_lt.mp x_nonneg) le

@[simp] theorem round_zero (f : Format) : f.round 0 = 0 := by
  rw [round, if_neg (lt_irrefl 0), roundMagnitude_zero]

theorem round_neg (f : Format) (x : ℚ) : f.round (-x) = -f.round x := by
  rcases lt_trichotomy x 0 with neg | rfl | pos
  · rw [round, round, if_pos neg, if_neg (by linarith), neg_neg]
  · simp
  · rw [round, round, if_pos (by linarith), if_neg (by linarith), neg_neg]

/-- A whole magnitude with room is counted in a unit that divides it. -/
theorem roundMagnitude_natCast (least : f.least ≤ 0) {n : ℕ} (fits : n < f.capacity) :
    f.roundMagnitude n = n := by
  rcases Nat.eq_zero_or_pos n with rfl | positive
  · exact f.roundMagnitude_zero
  have small : twoPow (floorLog2 n) < twoPow f.precision :=
    (floorLog2_bounds (by exact_mod_cast positive)).1.trans_lt
      (capacity_cast (f := f) ▸ by exact_mod_cast fits)
  have unit : f.unit n ≤ 0 := max_le (by have := twoPow_lt_iff.mp small; omega) least
  obtain ⟨k, hk⟩ := Int.eq_ofNat_of_zero_le (neg_nonneg.mpr unit)
  have inverse : twoPow (f.unit n) * twoPow k = 1 := by
    rw [← twoPow_add, ← twoPow_zero]
    congr 1
    omega
  have count : (n : ℚ) / twoPow (f.unit n) = ((n * 2 ^ k : ℕ) : ℤ) := by
    rw [div_eq_iff (twoPow_pos _).ne']
    push_cast
    rw [mul_assoc, mul_comm _ (twoPow _), ← Nat.cast_ofNat (R := ℚ), ← Nat.cast_pow, ← twoPow_natCast,
      inverse, mul_one]
  rw [roundMagnitude, count, nearestEven_intCast, ← count, div_mul_cancel₀ _ (twoPow_pos _).ne']

/-- Whole numbers that fit stay as they are. -/
theorem round_intCast (least : f.least ≤ 0) {n : ℤ} (fits : n.natAbs < f.capacity) :
    f.round n = n := by
  obtain ⟨k, rfl | rfl⟩ := n.eq_nat_or_neg
  · rw [Int.natAbs_natCast] at fits
    rw [Int.cast_natCast, round, if_neg (not_lt.mpr k.cast_nonneg), roundMagnitude_natCast least fits]
  · rw [Int.natAbs_neg, Int.natAbs_natCast] at fits
    rw [Int.cast_neg, Int.cast_natCast, round_neg, round, if_neg (not_lt.mpr k.cast_nonneg),
      roundMagnitude_natCast least fits]

end Format

/-! ## Rounded values -/

section

variable {f : Format} {m : ℕ} {q : ℤ}

/-- A count with room has a form, and so has one that just fills it. -/
theorem toRat?_ofParts (negative : Bool) (room : 0 < f.precision) (fits : m ≤ f.capacity)
    (least : f.least ≤ q) (greatest : q < f.greatest) (normal : f.capacity ≤ 2 * m ∨ q = f.least) :
    (ofParts negative m q : Binary f).toRat? =
      some (if negative then -(m * twoPow q) else m * twoPow q) := by
  rcases fits.eq_or_lt with rfl | less
  · have even : f.capacity / 2 * 2 = f.capacity :=
      Nat.div_mul_cancel (dvd_pow_self 2 room.ne')
    have positive : 0 < f.capacity := Nat.two_pow_pos _
    have form : f.Fits (f.capacity / 2) (q + 1) := ⟨by omega, by omega, by omega, .inl (by omega)⟩
    have same : ((f.capacity / 2 : ℕ) : ℚ) * twoPow (q + 1) = f.capacity * twoPow q := by
      have two : twoPow 1 = (2 : ℕ) := by rw [← Nat.cast_one, twoPow_natCast, pow_one]
      rw [twoPow_add, two, mul_comm (twoPow q), ← mul_assoc, ← Nat.cast_mul, even]
    simp only [ofParts, if_true, dif_pos form, toRat?, same]
  · have form : f.Fits m q := ⟨less, least, greatest.le, normal⟩
    simp only [ofParts, less.ne, if_false, dif_pos form, toRat?]

theorem toRat?_zero (negative : Bool) : (zero negative : Binary f).toRat? = some 0 := by
  cases negative <;> simp [zero, toRat?]

/-- A magnitude that does not overflow is rounded to the value of its number. -/
theorem toRat?_nearest (negative : Bool) (room : 0 < f.precision) {x : ℚ} (nonneg : 0 ≤ x)
    (greatest : f.unit x < f.greatest) :
    (nearest negative x : Binary f).toRat? =
      some (if negative then -f.roundMagnitude x else f.roundMagnitude x) := by
  rcases nonneg.eq_or_lt with rfl | positive
  · rw [nearest, if_pos rfl, toRat?_zero, f.roundMagnitude_zero]
    simp
  · have count : (0 : ℤ) ≤ nearestEven (x / twoPow (f.unit x)) :=
      le_nearestEven (by exact_mod_cast div_nonneg nonneg (twoPow_pos _).le)
    obtain ⟨m, hm⟩ := Int.eq_ofNat_of_zero_le count
    have full := Format.count_le_capacity (f := f) positive
    rw [nearest, if_neg positive.ne']
    simp only [Format.roundMagnitude, hm, Int.toNat_natCast, Int.cast_natCast] at full ⊢
    apply toRat?_ofParts negative room (by exact_mod_cast full) (le_max_right _ _) greatest
    by_cases least : f.unit x = f.least
    · exact .inr least
    · have normal := Format.capacity_le_count positive room least
      rw [hm] at normal
      exact .inl (by exact_mod_cast normal)

/-- A fraction that does not overflow is rounded to the value of its number. -/
theorem toRat?_ofRat (room : 0 < f.precision) {x : ℚ} (greatest : f.unit |x| < f.greatest) :
    (ofRat x : Binary f).toRat? = some (f.round x) := by
  have magnitude : x.abs = |x| := by
    unfold Rat.abs
    split
    next nonneg => exact (abs_of_nonneg nonneg).symm
    next neg => exact (abs_of_neg (not_le.mp neg)).symm
  rw [ofRat, magnitude, toRat?_nearest _ room (abs_nonneg x) greatest, Format.round]
  by_cases neg : x < 0
  · simp only [neg, decide_true, if_true, abs_of_neg neg]
  · simp only [neg, decide_false, if_false, abs_of_nonneg (not_lt.mp neg), Bool.false_eq_true]

/-- The sum of two numbers with values is rounded once. -/
theorem toRat?_add (room : 0 < f.precision) {x y : Binary f} {a b : ℚ} (hx : x.toRat? = some a)
    (hy : y.toRat? = some b) (greatest : f.unit |a + b| < f.greatest) :
    (x + y).toRat? = some (f.round (a + b)) := by
  cases x <;> simp only [toRat?, reduceCtorEq] at hx
  cases y <;> simp only [toRat?, reduceCtorEq] at hy
  next s m q _ t n r _ =>
    obtain rfl := Option.some.inj hx
    obtain rfl := Option.some.inj hy
    change (add _ _ : Binary f).toRat? = _
    simp only [add]
    by_cases cancels : (if s = true then -(m * twoPow q) else m * twoPow q) +
        (if t = true then -(n * twoPow r) else n * twoPow r) = 0
    · rw [if_pos cancels, toRat?_zero, cancels, f.round_zero]
    · rw [if_neg cancels]
      exact toRat?_ofRat room greatest

/-- Whatever is small enough does not overflow. -/
theorem Format.unit_lt_greatest (least : f.least < f.greatest) (greatest : 0 < f.greatest) {x : ℚ}
    (nonneg : 0 ≤ x) (small : x < twoPow (f.greatest + f.precision - 1)) :
    f.unit x < f.greatest := by
  apply max_lt _ least
  rcases nonneg.eq_or_lt with rfl | positive
  · have : floorLog2 0 = -1 := by decide
    omega
  · have := twoPow_lt_iff.mp ((floorLog2_bounds positive).1.trans_lt small)
    omega

/-- Doubles hold everything up to their capacity. -/
theorem unit_double_lt {x : ℚ} (small : |x| ≤ 2 ^ 53) :
    Format.double.unit |x| < Format.double.greatest := by
  apply Format.unit_lt_greatest (by decide) (by decide) (abs_nonneg x)
  calc |x| ≤ (2 ^ 53 : ℕ) := by exact_mod_cast small
    _ = twoPow (53 : ℕ) := (twoPow_natCast 53).symm
    _ < twoPow (Format.double.greatest + Format.double.precision - 1) :=
      twoPow_lt_iff.mpr (by decide)

end

end Binary

end SceneStream
