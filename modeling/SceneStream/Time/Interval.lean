import SceneStream.Error

/-!
# Intervals of time

A closed interval never ends before it starts; the type holds no other.
-/

namespace SceneStream

structure Interval where
  start : Instant
  stop : Instant
  ordered : ¬ stop < start
  deriving DecidableEq

namespace Interval

/-- The interval between two instants, refused if the second lies before the first. -/
def between (start stop : Instant) : Except Error Interval :=
  if h : stop < start then .error (.invalidArgument (.intervalReversed start stop))
  else .ok ⟨start, stop, h⟩

/-- The interval as text: its start and its stop with a slash between them. -/
def text (i : Interval) : String := i.start.text ++ "/" ++ i.stop.text

end Interval

end SceneStream
