import SceneStream.Proofs.Series.Times
import SceneStream.Session.Command

/-!
# Windows and lists of their own

A window of a series is written like a series of its own that holds the samples of the window and no
others. What lies outside of it is never looked at, so it may even hold values that cannot be
written. Main statement: `writeWindow_eq_writeSamples`.
-/

namespace SceneStream

theorem firstDecrease?_of_isChain {dates : List Instant} (ordered : dates.IsChain (· ≤ ·)) :
    firstDecrease? dates = none := by
  fun_induction firstDecrease? dates with
  | case1 a b rest less =>
      exact absurd less (Instant.not_lt.mpr (List.isChain_cons_cons.mp ordered).1)
  | case2 a b rest _ ih => rw [ih (List.isChain_cons_cons.mp ordered).2, Option.map_none]
  | case3 => rfl

namespace TimeSeries

variable {α : Type} {dates : List Instant} {values : List α} {start length : Nat}
  {series window : TimeSeries α}

theorem lists_of_of (built : of dates values = .ok series) :
    series.allDates = dates ∧ series.allValues = values := by
  unfold of at built
  split at built
  · split at built
    · obtain rfl := Except.ok.inj built
      exact ⟨rfl, rfl⟩
    · cases built
  · cases built

theorem lists_of_slice (cut : series.slice start length = .ok window) :
    window.dates = (series.allDates.drop start).take length ∧
      window.values = (series.allValues.drop start).take length := by
  unfold slice at cut
  split at cut
  · obtain rfl := Except.ok.inj cut
    exact ⟨rfl, rfl⟩
  · cases cut

theorem length_values_eq_dates (s : TimeSeries α) : s.values.length = s.dates.length :=
  s.length_values.trans s.length_dates.symm

theorem window_whole (dates : List Instant) : 0 + dates.length ≤ dates.length :=
  (Nat.zero_add _).le

/-- The samples in the window as a series of their own. -/
def alone (s : TimeSeries α) : TimeSeries α :=
  ⟨s.dates, s.values, 0, s.dates.length, s.length_values_eq_dates,
    firstDecrease?_of_isChain s.isChain_dates, window_whole s.dates⟩

/-- The samples in a window are a series, since their dates are in order as all dates are. -/
theorem of_window (s : TimeSeries α) : of s.dates s.values = .ok s.alone := by
  have ordered := firstDecrease?_of_isChain s.isChain_dates
  rw [of, dif_pos s.length_values_eq_dates]
  split
  · rfl
  next decrease => cases ordered.symm.trans decrease

@[simp] theorem dates_alone (s : TimeSeries α) : s.alone.dates = s.dates := List.take_length

@[simp] theorem values_alone (s : TimeSeries α) : s.alone.values = s.values := by
  change s.values.take s.dates.length = s.values
  rw [← s.length_values_eq_dates, List.take_length]

end TimeSeries

namespace Property

variable {k : Kind} {dates : List Instant} {values : List k.Value} {start length : Nat}

/-- A series is written by the samples in its window alone. -/
theorem writeSeries_congr (e : k.Encoding) {s t : TimeSeries k.Value} (dates : s.dates = t.dates)
    (values : s.values = t.values) : writeSeries k e s = writeSeries k e t := by
  simp only [writeSeries, TimeSeries.firstDate?, Stream.samples, TimeSeries.samples, dates, values]

/-- A window is written like the parts of the lists that it selects: as an operation of the property,
as a binding in any encoding, and as a command of any session. So whatever else other lists hold
outside of a window with the same samples, they are written alike. -/
theorem writeWindow_eq_writeSamples {series window : TimeSeries k.Value}
    (built : TimeSeries.of dates values = .ok series)
    (cut : series.slice start length = .ok window) :
    ∃ selected apart : Binding k,
      Binding.ofWindow dates values start length = .ok selected ∧
      Binding.ofLists ((dates.drop start).take length) ((values.drop start).take length) =
        .ok apart ∧
      (∀ e, write k e selected = write k e apart) ∧
      writeWindow k dates values start length = write k k.standard selected ∧
      writeWindow k dates values start length =
        writeSamples k ((dates.drop start).take length) ((values.drop start).take length) ∧
      (∀ (session : Session) (a : Address),
        session.step (.value a (.window k dates values start length)) =
            session.step (.value a (.write k k.standard selected)) ∧
          session.step (.value a (.window k dates values start length)) =
            session.step (.value a (.samples k ((dates.drop start).take length)
              ((values.drop start).take length)))) ∧
      ∀ (dates' : List Instant) (values' : List k.Value) (start' : Nat)
        (series' window' : TimeSeries k.Value), TimeSeries.of dates' values' = .ok series' →
        series'.slice start' length = .ok window' →
        (dates'.drop start').take length = (dates.drop start).take length →
        (values'.drop start').take length = (values.drop start).take length →
        writeWindow k dates' values' start' length = writeWindow k dates values start length := by
  have written {dates : List Instant} {values : List k.Value} {start length : Nat}
      {series window : TimeSeries k.Value} (built : TimeSeries.of dates values = .ok series)
      (cut : series.slice start length = .ok window) :
      (do (← TimeSeries.of dates values).slice start length) = .ok window ∧
        window.dates = (dates.drop start).take length ∧
        window.values = (values.drop start).take length := by
    obtain ⟨rfl, rfl⟩ := TimeSeries.lists_of_of built
    rw [built]
    exact ⟨cut, TimeSeries.lists_of_slice cut⟩
  obtain ⟨made, same_dates, same_values⟩ := written built cut
  have alone := window.of_window
  rw [same_dates, same_values] at alone
  have whole (e : k.Encoding) : writeSeries k e window = writeSeries k e window.alone :=
    writeSeries_congr e window.dates_alone.symm window.values_alone.symm
  have listed : writeWindow k dates values start length =
      writeSamples k ((dates.drop start).take length) ((values.drop start).take length) := by
    rw [writeWindow_of_ok made, writeSamples_of_ok alone, whole]
  refine ⟨.samples window, .samples window.alone, ?_, ?_, whole, writeWindow_of_ok made, listed,
    fun session a => ⟨?_, ?_⟩, ?_⟩
  · rw [Binding.ofWindow, ← bind_assoc, made]
    rfl
  · rw [Binding.ofLists, alone]
    rfl
  · simp only [Session.step, Session.operation?, Session.valueOp?, writeWindow_of_ok made, write]
  · simp only [Session.step, Session.operation?, Session.valueOp?, listed]
  · intro dates' values' start' series' window' built' cut' same_dates' same_values'
    obtain ⟨made', dates_window, values_window⟩ := written built' cut'
    rw [writeWindow_of_ok made', writeWindow_of_ok made]
    apply writeSeries_congr
    · rw [dates_window, same_dates', same_dates]
    · rw [values_window, same_values', same_values]

/-- The two samples behind one that cannot be written. -/
theorem writeWindow_eq_writeSamples_behindNaN :
    ∃ series window : TimeSeries Double,
      TimeSeries.of TimeSeries.acrossLeap.allDates [.nan, .zero false, .zero false] = .ok series ∧
      series.slice 1 2 = .ok window ∧
      (∃ v ∈ series.values, Kind.number.defect? v ≠ none) ∧
      (∀ v ∈ window.values, Kind.number.defect? v = none) ∧
      writeWindow .number TimeSeries.acrossLeap.allDates [.nan, .zero false, .zero false] 1 2 =
        writeSamples .number ((TimeSeries.acrossLeap.allDates.drop 1).take 2)
          [.zero false, .zero false] := by
  let series : TimeSeries Double :=
    { TimeSeries.acrossLeap with
      allValues := [.nan, .zero false, .zero false]
      values_length := rfl }
  have built : TimeSeries.of TimeSeries.acrossLeap.allDates [.nan, .zero false, .zero false] =
      .ok series := rfl
  have cut : series.slice 1 2 = .ok { series with start := 1, length := 2, window := by decide } :=
    rfl
  obtain ⟨_, _, -, -, -, -, same, -⟩ := writeWindow_eq_writeSamples (k := .number) built cut
  exact ⟨_, _, built, cut, ⟨.nan, by decide, by decide⟩, by decide, same⟩

end Property

end SceneStream
