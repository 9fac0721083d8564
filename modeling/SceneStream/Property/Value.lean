import SceneStream.Property.Basic
import SceneStream.Value.Binding

/-!
# Values of a property

A property of one kind takes one value between its opening and its closing: a literal, samples, or a
reference. A literal of a simple kind in its usual encoding stands alone; everything else goes into
the object, under the key of its encoding. Samples are one flat array of times and components.
-/

namespace SceneStream

namespace Stream

/-- Writes scalars as values, one after the other. -/
def values (vs : List Scalar) : StreamM Unit := vs.forM value

/-- Writes a value: its one component, or an array of them. -/
def literal (k : Kind) (e : k.Encoding) (v : k.Value) : StreamM Unit :=
  if k.arity = 1 then values (k.components e v)
  else do
    startSequence
    values (k.components e v)
    endSequence

/-- The time of a sample: seconds after the epoch if there is one. -/
def timeScalar (epoch : Option Instant) (date : Instant) : Scalar :=
  match epoch with
  | some epoch => .double (Instant.secondsSince epoch date)
  | none => .text date.text

/-- Writes samples as one array, each as its time and its components. -/
def samples (k : Kind) (e : k.Encoding) (epoch : Option Instant) (s : TimeSeries k.Value) :
    StreamM Unit := do
  startSequence
  s.samples.forM fun (date, v) => do
    value (timeScalar epoch date)
    values (k.components e v)
  endSequence

end Stream

namespace Property

open Writing

/-- Refuses unless the property is open and has no value yet. -/
def expectNoValue : PropertyM Unit := do
  let p ← getOwn
  if ¬ p.isOpen then refuse (.propertyNotOpen p.name)
  if p.valueWritten then refuse (.secondValue p.name)

def noteValue : PropertyM Unit := do setOwn { ← getOwn with valueWritten := true }

/-- Whether a literal in this encoding stands alone. -/
def standsAlone (p : Property) (k : Kind) (e : k.Encoding) : Bool :=
  k.isBare && e = k.standard && !p.forceObject && p.scope = .unopened

def writeLiteral (k : Kind) (e : k.Encoding) (v : k.Value) : PropertyM Unit := do
  expectNoValue
  check (k.check v)
  if (← getOwn).standsAlone k e then bare (Stream.literal k e v)
  else member (k.key e) (Stream.literal k e v)
  noteValue

/-- Writes the samples in the window of a series. Every one of them is checked before anything is
written. -/
def writeSeries (k : Kind) (e : k.Encoding) (s : TimeSeries k.Value) : PropertyM Unit := do
  expectNoValue
  s.values.forM fun v => check (k.check v)
  let settings := (← get).stream.settings
  let epoch := s.firstDate?.bind settings.sampleEpoch
  match epoch with
  | some epoch => member "epoch" (Stream.value (.text epoch.text))
  | none => pure ()
  member (k.key e) (Stream.samples k e epoch s)
  noteValue

def writeReference (source : Reference.Source) : PropertyM Unit := do
  expectNoValue
  let r ← check source.resolve
  member "reference" (Stream.value (.text r.text))
  noteValue

/-- Writes a value of any sort. -/
def write (k : Kind) (e : k.Encoding) : Binding k → PropertyM Unit
  | .literal v => writeLiteral k e v
  | .samples s => writeSeries k e s
  | .reference r => writeReference (.made r)

/-- Writes samples from parallel lists. -/
def writeSamples (k : Kind) (dates : List Instant) (values : List k.Value) : PropertyM Unit := do
  let s ← check (TimeSeries.of dates values)
  writeSeries k k.standard s

/-- Writes a window of the samples in parallel lists. -/
def writeWindow (k : Kind) (dates : List Instant) (values : List k.Value) (start length : Nat) :
    PropertyM Unit := do
  let s ← check do (← TimeSeries.of dates values).slice start length
  writeSeries k k.standard s

/-- Writes the URI that a resolver puts in place of another. -/
def writeResolved (u : Uri) (resolver : String → String) : PropertyM Unit :=
  writeLiteral .uri .unit (u.resolve resolver)

/-- How a client interpolates between the samples. -/
def writeAlgorithm (a : InterpolationAlgorithm) : PropertyM Unit :=
  member "interpolationAlgorithm" (Stream.value (.text (Vocabulary.token a)))

/-- The degree of the interpolating polynomial, at least one. -/
def writeDegree (degree : Nat) : PropertyM Unit := do
  if degree = 0 then throw (.invalidArgument .degreeZero)
  member "interpolationDegree" (Stream.value (.integer degree))

end Property

end SceneStream
