import SceneStream.Decimal.Layout
import SceneStream.Time.Text

/-!
# Errors

A call is refused for one of four reasons: the state does not allow it, an argument is no value of
its kind, the sink failed under text of the stream's own or under text of a scalar, or a settings
text could not be read. An error holds its cause; the wording is kept in one place.
-/

namespace SceneStream

/-- A call that the state does not allow. -/
inductive Misuse where
  /-- A second name before the value of the first. -/
  | unansweredName (name : String)
  | nameOutsideObject (name : String)
  | valueWithoutName
  | secondRoot
  | objectEndsOnName
  | noOpenObject
  | noOpenSequence
  /-- Opening a writer beside an open one that did not ask for it. -/
  | writerInTheWay
  | childStillOpen
  | writerNotOnStream
  | propertyOpen (name : String)
  | propertyNotOpen (name : String)
  | propertyBare (name : String)
  | propertyInIntervals (name : String)
  | secondInterval (name : String)
  | intervalsNotFirst (name : String)
  | secondValue (name : String)
  | listOpen (name : String)
  | listNotOpen (name : String)
  /-- Opening an interval before the last one is closed. -/
  | previousIntervalOpen (name : String)
  /-- Closing a list before its interval. -/
  | intervalOpen (name : String)
  | packetOpen
  | packetNotOpen
  | documentPacketLate
  | writersOpen (count : Nat)
  deriving DecidableEq, Repr

/-- An argument that is no value of its kind. -/
inductive Defect where
  | notFinite (x : Double)
  /-- Components of a vector, whose kind has this name. -/
  | vectorNotFinite (name : String) (components : List Double)
  | extentNotFinite (components : List Double)
  | boundsNotFinite (lower upper : Double)
  | boundsReversed (lower upper : Double)
  | notIntegral (x : Double)
  | beyondIntegers (x : Double)
  | channelOutside (name : String) (value : Int)
  | channelsOutside (channels : List Single)
  | emptyUri
  | unknownToken (vocabulary text : String)
  | unevenSamples (dates values : Nat)
  /-- The date at this index lies before the one in front of it. -/
  | datesDecrease (index : Nat)
  | windowOutside (start length total : Nat)
  | intervalReversed (start stop : Instant)
  | referenceStart (text : String)
  | referenceEscape (text : String)
  | referenceWithoutPath (text : String)
  | emptyIdentifier
  | emptyPath (identifier : String)
  | emptySegment (identifier : String)
  | degreeZero
  | emptyPacketId
  deriving DecidableEq, Repr

/-- How a sink or a file fails. -/
inductive StorageFailure where
  | sinkFull
  | flushFailed
  /-- There is no such file or directory. -/
  | notFound
  deriving DecidableEq, Repr

/-- How the text of a scalar or of settings fails. -/
inductive JsonFailure where
  | sinkFull
  | badSettings
  deriving DecidableEq, Repr

/-- Why a call was refused. -/
inductive Error where
  | invalidOperation (misuse : Misuse)
  | invalidArgument (defect : Defect)
  | io (failure : StorageFailure)
  | json (failure : JsonFailure)
  deriving DecidableEq, Repr

namespace Misuse

def message : Misuse → String
  | unansweredName name => s!"cannot write member '{name}': previous member has no value"
  | nameOutsideObject name => s!"cannot write member '{name}' outside an object"
  | valueWithoutName => "cannot write a value inside an object without a member name"
  | secondRoot => "document already has a root value"
  | objectEndsOnName => "cannot end object: member value is missing"
  | noOpenObject => "cannot end object: no object is open"
  | noOpenSequence => "cannot end sequence: no sequence is open"
  | writerInTheWay =>
    "cannot open a writer here: another writer is open; open it through its parent"
  | childStillOpen => "another writer opened inside this one is still open; close it first"
  | writerNotOnStream => "writer is not open on this output"
  | propertyOpen name => s!"property '{name}' is already open"
  | propertyNotOpen name => s!"property '{name}' is not open"
  | propertyBare name => s!"property '{name}' was written as a bare value"
  | propertyInIntervals name =>
    s!"property '{name}' is writing multiple intervals; write through the interval list"
  | secondInterval name =>
    s!"property '{name}' already has an interval; use multiple intervals instead"
  | intervalsNotFirst name =>
    s!"property '{name}' already has content; multiple intervals must come first"
  | secondValue name => s!"property '{name}' already has a value; close it first"
  | listOpen name => s!"interval list of '{name}' is already open"
  | listNotOpen name => s!"interval list of '{name}' is not open"
  | previousIntervalOpen name => s!"previous interval of '{name}' is still open"
  | intervalOpen name => s!"interval of '{name}' is still open"
  | packetOpen => "packet is already open"
  | packetNotOpen => "packet is not open"
  | documentPacketLate => "the document packet must be the first packet"
  | writersOpen count => s!"cannot finish document: {count} writer(s) still open"

end Misuse

namespace Defect

/-- Numbers in messages are never scientific and keep no fraction of zero. -/
def numbers : Decimal.Layout where
  positional := none
  wholeFraction := false
  exponentPlus := false
  tie := .up
  nan := "NaN"
  infinity := "inf"
  minusInfinity := "-inf"

/-- The components of an extent keep their fraction, and are scientific where positional text would
grow long. -/
def extentNumbers : Decimal.Layout :=
  { numbers with positional := some (-4, 16), wholeFraction := true }

def listText (items : List String) : String := "[" ++ ", ".intercalate items ++ "]"

def numberText {f : Binary.Format} (x : Binary f) : String := numbers.text x

def message : Defect → String
  | notFinite x => "number " ++ numberText x ++ " is not finite"
  | vectorNotFinite name xs => name ++ " " ++ listText (xs.map numberText) ++ " is not finite"
  | extentNotFinite xs => "extent " ++ listText (xs.map extentNumbers.text) ++ " is not finite"
  | boundsNotFinite l u => "bounds " ++ listText [numberText l, numberText u] ++ " are not finite"
  | boundsReversed l u =>
    "lower bound " ++ numberText l ++ " exceeds upper bound " ++ numberText u
  | notIntegral x => numberText x ++ " is not an integer"
  | beyondIntegers x => numberText x ++ " is out of integer range"
  | channelOutside name v => name ++ " channel " ++ toString v ++ " is outside 0..=255"
  | channelsOutside cs =>
    "colour channels " ++ listText (cs.map numberText) ++ " are outside 0.0..=1.0"
  | emptyUri => "URI is empty"
  | unknownToken vocabulary text => s!"unknown {vocabulary} token '{text}'"
  | unevenSamples dates values => s!"{dates} dates but {values} values"
  | datesDecrease index => s!"sample dates decrease at index {index}"
  | windowOutside start length total => s!"range {start}+{length} exceeds {total} samples"
  | intervalReversed start stop =>
    "interval start " ++ start.text ++ " is after stop " ++ stop.text
  | referenceStart text => s!"reference '{text}' must start with '#'"
  | referenceEscape text => s!"reference '{text}' ends with a dangling escape"
  | referenceWithoutPath text => s!"reference '{text}' has no '#' before its property path"
  | emptyIdentifier => "reference identifier is empty"
  | emptyPath identifier => s!"reference to '{identifier}' has no property path"
  | emptySegment identifier => s!"reference to '{identifier}' has an empty path segment"
  | degreeZero => "interpolation degree must be at least 1"
  | emptyPacketId => "packet id is empty"

end Defect

namespace Error

/-- The wording of an error. Where the cause lies outside of the library, in the file system or in
a text that is no settings text, there is none. -/
def message? : Error → Option String
  | invalidOperation m => some ("Invalid operation: " ++ m.message)
  | invalidArgument d => some ("Invalid argument: " ++ d.message)
  | io .sinkFull => some "I/O error: sink full"
  | io .flushFailed => some "I/O error: flush failed"
  | io .notFound => none
  | json .sinkFull => some "JSON error: sink full"
  | json .badSettings => none

end Error

/-- Refuses a call that the state does not allow. -/
def refuse {σ α : Type} (m : Misuse) : EStateM Error σ α := throw (.invalidOperation m)

@[simp] theorem refuse_apply {σ α : Type} (m : Misuse) (s : σ) :
    (refuse m : EStateM Error σ α) s = .error (.invalidOperation m) s := rfl

end SceneStream
