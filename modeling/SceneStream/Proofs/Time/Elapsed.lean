import SceneStream.Proofs.Binary.Rounding
import SceneStream.Time.Instant

/-!
# The time that has elapsed

The seconds from an epoch to an instant are rounded from an exact count of nanoseconds, and rounding
keeps the order. The count itself keeps the order of instants except near leap seconds: a leap second
shares its count of seconds with the second in front of it and, unless the time of day says otherwise,
its nanoseconds with the second behind it.
-/

namespace SceneStream.Instant

/-! ## Nanoseconds -/

/-- Whether two instants are so far apart, or so far from leap seconds, that an epoch keeps their
order: they share one second, or no leap second is involved between them on one day or under an epoch
that is none, or three counts of seconds lie between them. -/
def InStep (epoch a b : Instant) : Prop :=
  a.seconds = b.seconds ∧ a.isLeap = b.isLeap ∨
  a.isLeap = false ∧ b.isLeap = false ∧
    (epoch.isLeap = false ∨ a.seconds / 86400 = b.seconds / 86400) ∨
  a.seconds + 3 ≤ b.seconds

instance (epoch a b : Instant) : Decidable (InStep epoch a b) :=
  inferInstanceAs (Decidable (_ ∧ _ ∨ _ ∧ _ ∧ (_ ∨ _) ∨ _))

variable {epoch a b : Instant}

theorem isLeap_eq_true : a.isLeap = true ↔ billion ≤ a.nanos := decide_eq_true_iff

theorem isLeap_eq_false : a.isLeap = false ↔ a.nanos < billion := by
  rw [← Bool.not_eq_true, isLeap_eq_true, Nat.not_le]

/-- What the leap seconds on either side add to the difference of two counts. -/
def leapShift (epoch t : Instant) : ℤ :=
  if epoch.secondOfDay < t.secondOfDay ∧ epoch.isLeap then billion
  else if t.secondOfDay < epoch.secondOfDay ∧ t.isLeap then -billion
  else 0

theorem nanosSince_eq (epoch t : Instant) :
    nanosSince epoch t = t.totalNanos - epoch.totalNanos + leapShift epoch t := by
  simp only [nanosSince, leapShift]
  split
  · rfl
  · split
    · rfl
    · rw [add_zero]

/-- A second is taken off before a leap second only, so that an instant never comes to lie before
its own count of seconds. -/
theorem seconds_le_shifted (epoch t : Instant) :
    t.seconds * billion ≤ t.totalNanos + leapShift epoch t := by
  unfold leapShift totalNanos
  split
  · unfold billion
    omega
  · split
    next before =>
      have := isLeap_eq_true.mp before.2
      omega
    next => omega

/-- A leap second and the second that is added after a leap epoch are at most two more. -/
theorem shifted_lt_seconds (epoch t : Instant) :
    t.totalNanos + leapShift epoch t < (t.seconds + 3) * billion := by
  have := t.nanos_lt
  unfold leapShift totalNanos billion at *
  split
  · omega
  · split <;> omega

/-- Within one second, both instants are shifted alike. -/
theorem leapShift_of_seconds (same : a.seconds = b.seconds) (leap : a.isLeap = b.isLeap) :
    leapShift epoch a = leapShift epoch b := by
  unfold leapShift secondOfDay
  rw [same, leap]

/-- Outside of leap seconds, the shift grows with the time of day, and there is none under an epoch
that is not in a leap second. -/
theorem leapShift_mono (ha : a.isLeap = false) (hb : b.isLeap = false)
    (later : epoch.isLeap = false ∨ a.secondOfDay ≤ b.secondOfDay) :
    leapShift epoch a ≤ leapShift epoch b := by
  unfold leapShift billion
  simp only [ha, hb, and_false, Bool.false_eq_true, if_false]
  split
  next before =>
    rcases later with regular | later
    · rw [regular] at before
      cases before.2
    · rw [if_pos ⟨before.1.trans_le later, before.2⟩]
  next => split <;> omega

theorem nanosSince_mono (le : a ≤ b) (inStep : InStep epoch a b) :
    nanosSince epoch a ≤ nanosSince epoch b := by
  have order := le_iff.mp le
  rw [nanosSince_eq, nanosSince_eq]
  rcases inStep with ⟨same, leap⟩ | ⟨ha, hb, regular⟩ | apart
  · have shift : leapShift epoch a = leapShift epoch b := leapShift_of_seconds same leap
    unfold totalNanos billion
    omega
  · have counts : a.totalNanos ≤ b.totalNanos := by
      have := isLeap_eq_false.mp ha
      unfold totalNanos billion at *
      omega
    have shift : leapShift epoch a ≤ leapShift epoch b := by
      apply leapShift_mono ha hb
      apply regular.imp_right
      unfold secondOfDay
      omega
    omega
  · have low := seconds_le_shifted epoch b
    have high := shifted_lt_seconds epoch a
    have between : (a.seconds + 3) * billion ≤ b.seconds * billion :=
      Int.mul_le_mul_of_nonneg_right apart (Int.natCast_nonneg _)
    omega

@[simp] theorem nanosSince_self (epoch : Instant) : nanosSince epoch epoch = 0 := by
  simp [nanosSince]

/-- No two instants are so far apart that a double could not hold the whole seconds. -/
theorem natAbs_nanosSince_lt (epoch t : Instant) :
    (nanosSince epoch t).natAbs < 2 ^ 52 * billion := by
  have := t.in_range
  have := epoch.in_range
  have := epoch.nanos_lt
  have := seconds_le_shifted epoch t
  have := shifted_lt_seconds epoch t
  rw [nanosSince_eq]
  unfold firstSecond lastSecond totalNanos billion at *
  omega

/-! ## Seconds -/

open Binary

/-- What is left of a count of nanoseconds behind its whole seconds, in seconds. -/
def fraction (n : ℤ) : ℚ := mkRat (n.tmod billion) billion

/-- The rounded seconds in a count of nanoseconds. -/
def roundedSeconds (n : ℤ) : ℚ :=
  Format.double.round (n.tdiv billion + Format.double.round (fraction n))

theorem billion_pos : 0 < (billion : ℤ) := by decide

/-- Zero and the ones beside it are doubles. -/
theorem round_double_intCast {n : ℤ} (small : n.natAbs < 2 ^ 53) :
    Format.double.round n = n := Format.round_intCast (by decide) small

theorem round_double_mono {x y : ℚ} (le : x ≤ y) :
    Format.double.round x ≤ Format.double.round y := Format.round_mono (by decide) le

theorem fraction_of_nonneg {n : ℤ} (nonneg : 0 ≤ n) : 0 ≤ fraction n ∧ fraction n ≤ 1 := by
  have low : 0 ≤ n.tmod billion := Int.tmod_nonneg _ nonneg
  have high : n.tmod billion ≤ billion := (Int.tmod_lt_of_pos n billion_pos).le
  rw [fraction, Rat.mkRat_eq_div]
  exact ⟨div_nonneg (by exact_mod_cast low) (Nat.cast_nonneg _),
    div_le_one_of_le₀ (by exact_mod_cast high) (Nat.cast_nonneg _)⟩

theorem fraction_neg (n : ℤ) : fraction (-n) = -fraction n := by
  rw [fraction, fraction, Int.neg_tmod, Rat.mkRat_eq_div, Rat.mkRat_eq_div, Int.cast_neg, neg_div]

theorem abs_fraction_le_one (n : ℤ) : |fraction n| ≤ 1 := by
  rcases le_total 0 n with nonneg | nonpos
  · rw [abs_of_nonneg (fraction_of_nonneg nonneg).1]
    exact (fraction_of_nonneg nonneg).2
  · have bounds := fraction_of_nonneg (neg_nonneg.mpr nonpos)
    rw [fraction_neg] at bounds
    rw [← abs_neg, abs_of_nonneg bounds.1]
    exact bounds.2

theorem abs_round_fraction_le_one (n : ℤ) : |Format.double.round (fraction n)| ≤ 1 := by
  obtain ⟨low, high⟩ := abs_le.mp (abs_fraction_le_one n)
  have one : Format.double.round ((1 : ℤ) : ℚ) = (1 : ℤ) := round_double_intCast (by decide)
  rw [Int.cast_one] at one
  have low' := round_double_mono low
  have high' := round_double_mono high
  rw [Format.round_neg, one] at low'
  rw [one] at high'
  exact abs_le.mpr ⟨low', high'⟩

/-- Rounding does not turn a fraction to the other side of zero. -/
theorem round_fraction_nonneg {n : ℤ} (nonneg : 0 ≤ n) : 0 ≤ Format.double.round (fraction n) := by
  rw [← Format.double.round_zero]
  exact round_double_mono (fraction_of_nonneg nonneg).1

theorem round_fraction_nonpos {n : ℤ} (nonpos : n ≤ 0) : Format.double.round (fraction n) ≤ 0 := by
  have other := round_fraction_nonneg (neg_nonneg.mpr nonpos)
  rw [fraction_neg, Format.round_neg] at other
  exact neg_nonneg.mp other

/-- The seconds never decrease as the count grows. -/
theorem roundedSeconds_mono {n m : ℤ} (le : n ≤ m) : roundedSeconds n ≤ roundedSeconds m := by
  apply round_double_mono
  rcases (Int.tdiv_le_tdiv billion_pos le).eq_or_lt with same | less
  · -- In the same whole second, the fractions have the order of the counts.
    have parts : n.tmod billion ≤ m.tmod billion := by
      have hn := Int.mul_tdiv_add_tmod n billion
      have hm := Int.mul_tdiv_add_tmod m billion
      rw [same] at hn
      omega
    have fractions : fraction n ≤ fraction m := by
      rw [fraction, fraction, Rat.mkRat_eq_div, Rat.mkRat_eq_div]
      exact div_le_div_of_nonneg_right (by exact_mod_cast parts) (Nat.cast_nonneg _)
    rw [same]
    exact add_le_add_right (round_double_mono fractions) _
  · -- A fraction, rounded or not, never reaches beyond the next whole second.
    have apart : ((n.tdiv billion : ℤ) : ℚ) + 1 ≤ (m.tdiv billion : ℤ) := by exact_mod_cast less
    have before := abs_le.mp (abs_round_fraction_le_one n)
    have after := abs_le.mp (abs_round_fraction_le_one m)
    rcases le_total 0 m with nonneg | nonpos
    · have := round_fraction_nonneg nonneg
      linarith
    · have := round_fraction_nonpos (le.trans nonpos)
      linarith

/-- The seconds between two instants are finite: the rounded seconds in the nanoseconds between
them. -/
theorem toRat?_secondsSince (epoch t : Instant) :
    (secondsSince epoch t).toRat? = some (roundedSeconds (nanosSince epoch t)) := by
  have range := natAbs_nanosSince_lt epoch t
  simp only [secondsSince]
  generalize nanosSince epoch t = n at range ⊢
  have whole_lt : (n.tdiv billion).natAbs < 2 ^ 52 := by
    rw [Int.natAbs_tdiv]
    exact Nat.div_lt_of_lt_mul (by rwa [mul_comm] at range)
  have whole_le : |((n.tdiv billion : ℤ) : ℚ)| ≤ 2 ^ 52 := by
    rw [← Int.cast_abs, ← Nat.cast_natAbs]
    exact_mod_cast whole_lt.le
  have fraction_le := abs_fraction_le_one n
  have rounded_le := abs_round_fraction_le_one n
  have whole : (ofInt (n.tdiv billion) : Double).toRat? = some ((n.tdiv billion : ℤ) : ℚ) := by
    rw [ofInt, toRat?_ofRat (by decide) (unit_double_lt (by linarith)),
      round_double_intCast (by omega)]
  have rest : (ofRat (fraction n) : Double).toRat? = some (Format.double.round (fraction n)) :=
    toRat?_ofRat (by decide) (unit_double_lt (by linarith))
  have sum_le : |((n.tdiv billion : ℤ) : ℚ) + Format.double.round (fraction n)| ≤ 2 ^ 53 :=
    (abs_add_le _ _).trans (by linarith)
  exact toRat?_add (by decide) whole rest (unit_double_lt sum_le)

end SceneStream.Instant
