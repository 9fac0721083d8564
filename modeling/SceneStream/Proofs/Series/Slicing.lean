import SceneStream.Proofs.Series.Array
import SceneStream.Proofs.Series.Window

/-!
# Windows after windows

A series is made of two lists or of pairs, and each window of it is cut from the whole series,
whatever window was selected before. So a window always lies within the lists that were given first,
and it shows what stands there. Main statement: `faithful_of_made`.
-/

namespace SceneStream

instance : Trans (α := Instant) (· ≤ ·) (· ≤ ·) (· ≤ ·) :=
  ⟨fun {a b c} first second => by
    rw [Instant.le_iff] at *
    omega⟩

namespace TimeSeries

variable {α : Type} {dates : List Instant} {values : List α} {s w : TimeSeries α}
  {start length : Nat}

/-! ## What can be made -/

theorem firstDecrease?_eq_none_iff :
    firstDecrease? dates = none ↔ dates.IsChain fun a b => ¬ b < a := by
  simp only [Instant.not_lt]
  exact ⟨isChain_of_firstDecrease?, firstDecrease?_of_isChain⟩

theorem ok_of_iff : (∃ s, of dates values = .ok s) ↔
    dates.length = values.length ∧ dates.IsChain fun a b => ¬ b < a := by
  rw [← firstDecrease?_eq_none_iff]
  constructor
  · rintro ⟨s, built⟩
    obtain ⟨rfl, rfl⟩ := lists_of_of built
    exact ⟨s.values_length.symm, s.ordered⟩
  · rintro ⟨even, ordered⟩
    rw [of, dif_pos even.symm]
    split
    · exact ⟨_, rfl⟩
    next decrease => cases ordered.symm.trans decrease

theorem ok_ofPairs_iff {pairs : List (Instant × α)} : (∃ s, ofPairs pairs = .ok s) ↔
    (pairs.map (·.1)).IsChain fun a b => ¬ b < a := by
  rw [ofPairs, ok_of_iff, List.length_map, List.length_map]
  exact and_iff_right rfl

theorem eq_of_of (built : of dates values = .ok s) :
    ∃ even ordered, s = ⟨dates, values, 0, dates.length, even, ordered, window_whole dates⟩ := by
  obtain ⟨rfl, rfl⟩ := lists_of_of built
  refine ⟨s.values_length, s.ordered, ?_⟩
  rw [of, dif_pos s.values_length] at built
  split at built
  · exact (Except.ok.inj built).symm
  · cases built

theorem slice_of_le (h : start + length ≤ s.allDates.length) :
    s.slice start length = .ok { s with start, length, window := h } := dif_pos h

theorem slice_of_not_le (h : ¬ start + length ≤ s.allDates.length) :
    s.slice start length =
      .error (.invalidArgument (.windowOutside start length s.allDates.length)) := dif_neg h

theorem ok_slice_iff : (∃ w, s.slice start length = .ok w) ↔
    start + length ≤ s.allDates.length := by
  constructor
  · rintro ⟨w, cut⟩
    by_contra outside
    cases cut.symm.trans (slice_of_not_le outside)
  · exact fun inside => ⟨_, slice_of_le inside⟩

/-- A window is all that tells the two series apart. -/
theorem eq_of_slice (cut : s.slice start length = .ok w) :
    ∃ h, w = { s with start, length, window := h } := by
  have inside := ok_slice_iff.mp ⟨w, cut⟩
  exact ⟨inside, Except.ok.inj (cut.symm.trans (slice_of_le inside))⟩

/-- A window of a window is cut from the whole series. -/
theorem slice_slice (cut : s.slice start length = .ok w) (start' length' : Nat) :
    w.slice start' length' = s.slice start' length' := by
  obtain ⟨-, rfl⟩ := eq_of_slice cut
  rfl

/-- The series that a constructor makes of these dates and values. -/
def Built (dates : List Instant) (values : List α) (s : TimeSeries α) : Prop :=
  of dates values = .ok s ∨
    ∃ pairs, pairs.map (·.1) = dates ∧ pairs.map (·.2) = values ∧ ofPairs pairs = .ok s

theorem Built.of_eq (built : Built dates values s) : of dates values = .ok s := by
  rcases built with built | ⟨pairs, rfl, rfl, built⟩
  · exact built
  · exact built

/-- The series that are made of these dates and values, by a constructor and then any chain of
windows. -/
inductive Made (dates : List Instant) (values : List α) : TimeSeries α → Prop where
  | built {s : TimeSeries α} (built : Built dates values s) : Made dates values s
  | slice {s w : TimeSeries α} (made : Made dates values s) {start length : Nat}
      (cut : s.slice start length = .ok w) : Made dates values w

theorem Made.lists (made : Made dates values s) : s.allDates = dates ∧ s.allValues = values := by
  induction made with
  | built built => exact lists_of_of built.of_eq
  | slice _ cut ih =>
    obtain ⟨-, rfl⟩ := eq_of_slice cut
    exact ih

/-! ## What a window shows -/

theorem samples_eq (s : TimeSeries α) :
    s.samples = ((s.allDates.zip s.allValues).drop s.start).take s.length := by
  simp only [samples, dates, TimeSeries.values, List.zip, List.take_zipWith, List.drop_zipWith]

/-- A window that lies within these dates and values, and shows what stands there. -/
structure Faithful (dates : List Instant) (values : List α) (s : TimeSeries α) : Prop where
  inside : s.start + s.length ≤ dates.length
  even : dates.length = values.length
  /-- Where the lists can be counted in 64 bits, so can the end of the window. -/
  fits : dates.length < 2 ^ 64 →
    (UInt64.ofNat s.start + UInt64.ofNat s.length).toNat = s.start + s.length
  length_dates : s.dates.length = s.length
  length_values : s.values.length = s.length
  length_samples : s.samples.length = s.length
  ordered : s.dates.Pairwise (· ≤ ·)
  samples_eq : s.samples = ((dates.zip values).drop s.start).take s.length
  /-- Each place in the window is a place in both lists, and the views show what stands there. -/
  sample : ∀ i < s.length, ∃ date v, dates[s.start + i]? = some date ∧
    values[s.start + i]? = some v ∧ s.dates[i]? = some date ∧ s.values[i]? = some v ∧
      s.samples[i]? = some (date, v)
  firstDate?_eq : s.firstDate? = if s.length = 0 then none else dates[s.start]?

/-- Every series shows the lists that it keeps. -/
theorem faithful (s : TimeSeries α) : Faithful s.allDates s.allValues s where
  inside := s.window
  even := s.values_length.symm
  fits := by
    intro counted
    have := s.window
    rw [UInt64.toNat_add, UInt64.toNat_ofNat', UInt64.toNat_ofNat']
    omega
  length_dates := s.length_dates
  length_values := s.length_values
  length_samples := s.length_samples
  ordered := List.isChain_iff_pairwise.mp s.isChain_dates
  samples_eq := s.samples_eq
  sample := by
    intro i inside
    obtain ⟨date, v, at_date, at_value, at_i⟩ := s.getElem?_samples inside
    obtain ⟨shown_date, shown_value⟩ := List.getElem?_zip_eq_some.mp at_i
    exact ⟨date, v, at_date, at_value, shown_date, shown_value, at_i⟩
  firstDate?_eq := by
    rcases s.firstDate?_cases with ⟨empty, first⟩ | ⟨date, filled, at_start, first⟩
    · rw [first, if_pos empty]
    · rw [first, if_neg filled, at_start]

/-- What comes of cutting a window from a series of these dates. -/
structure Sliceable (dates : List Instant) (s : TimeSeries α) : Prop where
  ok_iff : ∀ start length, (∃ w, s.slice start length = .ok w) ↔ start + length ≤ dates.length
  window : ∀ {start length w}, s.slice start length = .ok w → w.start = start ∧ w.length = length
  /-- Behind one window, another one is cut as if the first had never been. -/
  again : ∀ {start length w}, s.slice start length = .ok w →
    ∀ start' length', w.slice start' length' = s.slice start' length'

theorem sliceable (s : TimeSeries α) : Sliceable s.allDates s where
  ok_iff _ _ := ok_slice_iff
  window := by
    intro start length w cut
    obtain ⟨-, rfl⟩ := eq_of_slice cut
    exact ⟨rfl, rfl⟩
  again := slice_slice

/-- Two lists make a series exactly if they are of one length and no date lies before the one in front
of it, and pairs do exactly if no date of theirs does. Its window is over all of it. However many
windows follow, each lies within the lists, shows what stands there, and can be followed by exactly
the windows that the whole series has. -/
theorem faithful_of_made (dates : List Instant) (values : List α) :
    ((∃ s, of dates values = .ok s) ↔
      dates.length = values.length ∧ dates.IsChain fun a b => ¬ b < a) ∧
    (∀ pairs : List (Instant × α), (∃ s, ofPairs pairs = .ok s) ↔
      (pairs.map (·.1)).IsChain fun a b => ¬ b < a) ∧
    (∀ s, Built dates values s → s.start = 0 ∧ s.length = dates.length) ∧
    ∀ s, Made dates values s → Faithful dates values s ∧ Sliceable dates s := by
  refine ⟨ok_of_iff, fun _ => ok_ofPairs_iff, ?_, ?_⟩
  · intro s built
    obtain ⟨-, -, rfl⟩ := eq_of_of built.of_eq
    exact ⟨rfl, rfl⟩
  · intro s made
    obtain ⟨rfl, rfl⟩ := made.lists
    exact ⟨s.faithful, s.sliceable⟩

/-- An empty window behind the last of three samples, and behind it one of two samples. -/
theorem faithful_of_made_acrossLeap :
    ∃ s empty w : TimeSeries Nat, ofPairs (acrossLeap.allDates.zip [1, 2, 3]) = .ok s ∧
      s.slice 3 0 = .ok empty ∧ empty.slice 1 2 = .ok w ∧ Made acrossLeap.allDates [1, 2, 3] w ∧
      Faithful acrossLeap.allDates [1, 2, 3] w ∧ Sliceable acrossLeap.allDates w := by
  let s : TimeSeries Nat := { acrossLeap with allValues := [1, 2, 3], values_length := rfl }
  have built : ofPairs (acrossLeap.allDates.zip [1, 2, 3]) = .ok s := rfl
  have behind : s.slice 3 0 = .ok { s with start := 3, length := 0, window := by decide } := rfl
  have cut : TimeSeries.slice { s with start := 3, length := 0, window := by decide } 1 2 =
      .ok { s with start := 1, length := 2, window := by decide } := rfl
  have made : Made acrossLeap.allDates [1, 2, 3] _ :=
    .slice (.slice (.built (.inr ⟨_, rfl, rfl, built⟩)) behind) cut
  obtain ⟨-, -, -, windows⟩ := faithful_of_made acrossLeap.allDates [1, 2, 3]
  exact ⟨_, _, _, built, behind, cut, made, windows _ made⟩

end TimeSeries

end SceneStream
