import SceneStream.Value.Kind
import SceneStream.Value.Reference
import SceneStream.Value.Series

/-!
# Bindings

What a property is given: one value, samples of it over time, or the property of another object.
-/

namespace SceneStream

inductive Binding (k : Kind) where
  | literal (value : k.Value)
  | samples (series : TimeSeries k.Value)
  | reference (reference : Reference)

namespace Binding

variable {k : Kind}

/-- Samples from parallel lists. -/
def ofLists (dates : List Instant) (values : List k.Value) : Except Error (Binding k) :=
  return .samples (← TimeSeries.of dates values)

/-- A window of the samples in parallel lists. -/
def ofWindow (dates : List Instant) (values : List k.Value) (start length : Nat) :
    Except Error (Binding k) := do
  return .samples (← (← TimeSeries.of dates values).slice start length)

end Binding

end SceneStream
