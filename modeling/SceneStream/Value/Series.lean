import SceneStream.Error

/-!
# Time series

Samples with a date each. The dates never decrease, and a window selects the samples that are
written; the type holds no other series.
-/

namespace SceneStream

/-- The index of the first date that lies before the one in front of it. -/
def firstDecrease? : List Instant → Option Nat
  | a :: b :: rest => if b < a then some 1 else (firstDecrease? (b :: rest)).map (· + 1)
  | _ => none

structure TimeSeries (α : Type) where
  allDates : List Instant
  allValues : List α
  start : Nat
  length : Nat
  values_length : allValues.length = allDates.length
  ordered : firstDecrease? allDates = none
  window : start + length ≤ allDates.length

namespace TimeSeries

variable {α : Type}

/-- The series of these dates and values, with a window over all of them. -/
def of (dates : List Instant) (values : List α) : Except Error (TimeSeries α) :=
  if hl : values.length = dates.length then
    match ho : firstDecrease? dates with
    | none => .ok ⟨dates, values, 0, dates.length, hl, ho, by omega⟩
    | some index => .error (.invalidArgument (.datesDecrease index))
  else .error (.invalidArgument (.unevenSamples dates.length values.length))

/-- The same samples with another window, counted from the first sample of all. -/
def slice (s : TimeSeries α) (start length : Nat) : Except Error (TimeSeries α) :=
  if h : start + length ≤ s.allDates.length then
    .ok { s with start := start, length := length, window := h }
  else .error (.invalidArgument (.windowOutside start length s.allDates.length))

/-- The dates in the window. -/
def dates (s : TimeSeries α) : List Instant := (s.allDates.drop s.start).take s.length

/-- The values in the window. -/
def values (s : TimeSeries α) : List α := (s.allValues.drop s.start).take s.length

def firstDate? (s : TimeSeries α) : Option Instant := s.dates.head?

/-- The samples in the window. -/
def samples (s : TimeSeries α) : List (Instant × α) := s.dates.zip s.values

def ofPairs (pairs : List (Instant × α)) : Except Error (TimeSeries α) :=
  of (pairs.map (·.1)) (pairs.map (·.2))

theorem length_dates (s : TimeSeries α) : s.dates.length = s.length := by
  have := s.window
  simp [dates]
  omega

theorem length_values (s : TimeSeries α) : s.values.length = s.length := by
  have := s.window
  have := s.values_length
  simp [values]
  omega

end TimeSeries

end SceneStream
