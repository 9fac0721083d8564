import SceneStream.Scalar
import SceneStream.Stream.Basic

/-!
# The structure of the text

Six calls make up a JSON text: the two ends of an object and of an array, a name, and a scalar. Each
is refused where JSON does not permit it, before anything is noted or written. Separators and line
breaks come from the counters in the frames.
-/

namespace SceneStream.Stream

/-- Breaks the line in pretty text, and indents the next one by `depth * indent` blanks. Widths above
65535 are outside of the model: a formatter whose widths have 16 bits panics there, while this writes
any number of blanks. -/
def newline : StreamM Unit := do
  let s ← get
  if s.settings.pretty then
    punctuation ("\n".pushn ' ' (s.depth * s.settings.indent))

/-- Notes that a value comes, and separates it from what stands before it. -/
def beginValue : StreamM Unit := do
  match (← get).frames with
  | .object members pending :: rest =>
    if pending then setFrames (.object members false :: rest)
    else refuse .valueWithoutName
  | .array items :: rest =>
    setFrames (.array (items + 1) :: rest)
    if 0 < items then punctuation ","
    newline
  | [] =>
    if (← get).rootWritten then refuse .secondRoot
    else modify fun s => { s with rootWritten := true }

/-- Writes an opening bracket and enters its container. -/
def beginContainer (bracket : String) (frame : Frame) : StreamM Unit := do
  beginValue
  punctuation bracket
  modify fun s => { s with frames := frame :: s.frames }

/-- Leaves the innermost container and writes its closing bracket, on a line of its own if the
container has content. -/
def endContainer (bracket : String) (rest : List Frame) (count : Nat) : StreamM Unit := do
  setFrames rest
  if 0 < count then newline
  punctuation bracket

def startObject : StreamM Unit := beginContainer "\x7b" (.object 0 false)

def endObject : StreamM Unit := do
  match (← get).frames with
  | .object members false :: rest => endContainer "\x7d" rest members
  | .object _ true :: _ => refuse .objectEndsOnName
  | _ => refuse .noOpenObject

def startSequence : StreamM Unit := beginContainer "[" (.array 0)

def endSequence : StreamM Unit := do
  match (← get).frames with
  | .array items :: rest => endContainer "]" rest items
  | _ => refuse .noOpenSequence

/-- Writes the name of the next member. -/
def name (key : String) : StreamM Unit := do
  match (← get).frames with
  | .object members false :: rest =>
    setFrames (.object (members + 1) true :: rest)
    if 0 < members then punctuation ","
    newline
    scalarText (Json.quote key)
    punctuation (if (← get).settings.pretty then ": " else ":")
  | .object _ true :: _ => refuse (.unansweredName key)
  | _ => refuse (.nameOutsideObject key)

/-- Writes a scalar as a value. -/
def value (v : Scalar) : StreamM Unit := do
  beginValue
  scalarText v.json

/-- Writes a member with a scalar value. -/
def member (key : String) (v : Scalar) : StreamM Unit := do
  name key
  value v

/-- Passes everything on to where the sink keeps it. -/
def flush : StreamM Unit := do
  if (← get).sink.flushFails then throw (.io .flushFailed)

end SceneStream.Stream
