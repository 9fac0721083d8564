import SceneStream.Time.Interval
import SceneStream.Writing

/-!
# Properties

A property holds a bare literal, an object, or an array of objects that each hold for an interval of
time. The first thing written decides which, and nothing changes it until the property is closed. A
property that is closed with nothing written is an empty object.
-/

namespace SceneStream

/-- What a property holds so far. -/
inductive Property.Scope where
  /-- Its name is written and nothing else. -/
  | unopened
  | bare
  | object
  | intervals
  deriving DecidableEq, Repr

def Property.Scope.title : Property.Scope → String
  | unopened => "Unopened"
  | bare => "Bare"
  | object => "Object"
  | intervals => "IntervalList"

/-- Where a property stands. -/
inductive Property.Role where
  /-- Under its name, in the object of its parent. -/
  | member
  /-- As one object in a list of intervals. -/
  | element
  deriving DecidableEq, Repr

/-- The state of a property writer. What was written is known until the next opening. -/
structure Property where
  name : String
  role : Property.Role := .member
  token : Option Token := none
  scope : Property.Scope := .unopened
  intervalWritten : Bool := false
  valueWritten : Bool := false
  /-- Whether literals are always written inside an object. -/
  forceObject : Bool := false
  deriving DecidableEq, Repr

abbrev PropertyM := WriterM Property

namespace Property

open Writing

def isOpen (p : Property) : Bool := p.token.isSome

/-- A closed writer for the same member, with no trace of what was written. -/
def renewed (p : Property) : Property :=
  { name := p.name, role := p.role, forceObject := p.forceObject }

/-- The opening, refused while the property is closed. -/
def opening : PropertyM Token := do
  let p ← getOwn
  match p.token with
  | some t => return t
  | none => refuse (.propertyNotOpen p.name)

def start : PropertyM Unit := do
  let p ← getOwn
  if p.isOpen then refuse (.propertyOpen p.name)
  let t ← onStream do
    Stream.expectCanOpen
    match p.role with
    | .member => Stream.name p.name
    | .element => Stream.startObject
    Stream.beginWriter
  setOwn { p with
    token := some t
    scope := match p.role with
      | .member => .unopened
      | .element => .object
    intervalWritten := false
    valueWritten := false }

/-- Writes what the property lacks to be complete. -/
def complete (scope : Scope) : StreamM Unit :=
  match scope with
  | .unopened => do
    Stream.startObject
    Stream.endObject
  | .object => Stream.endObject
  | .bare | .intervals => pure ()

def finish : PropertyM Unit := do
  let p ← getOwn
  let t ← opening
  onStream do
    Stream.expectActive t
    complete p.scope
    Stream.endWriter t
  setOwn { p with token := none, scope := .unopened }

/-- Runs an operation of the stream if this is the innermost writer. -/
def whileActive {α : Type} (op : StreamM α) : PropertyM α := do
  let t ← opening
  onStream do
    Stream.expectActive t
    op

/-- Starts the object unless it is there already. -/
def openScope : PropertyM Unit := do
  let p ← getOwn
  whileActive <| match p.scope with
    | .unopened => Stream.startObject
    | .object => pure ()
    | .bare => refuse (.propertyBare p.name)
    | .intervals => refuse (.propertyInIntervals p.name)
  setOwn { p with scope := .object }

/-- Writes a literal in place of an object. -/
def bare (op : StreamM Unit) : PropertyM Unit := do
  whileActive op
  setOwn { ← getOwn with scope := .bare }

/-- Writes a member of the object, whose value `op` writes. -/
def member (key : String) (op : StreamM Unit) : PropertyM Unit := do
  openScope
  whileActive do
    Stream.name key
    op

/-- Restricts the object to an interval of time, once. -/
def writeInterval (i : Interval) : PropertyM Unit := do
  let p ← getOwn
  if p.intervalWritten then refuse (.secondInterval p.name)
  member "interval" (Stream.value (.text i.text))
  setOwn { ← getOwn with intervalWritten := true }

/-- Whether a client should remove what it has for this property. -/
def writeDelete (delete : Bool) : PropertyM Unit := member "delete" (Stream.value (.bool delete))

def setForceObject (force : Bool) : PropertyM Unit := do
  setOwn { ← getOwn with forceObject := force }

/-- Makes a place for one child in the object. -/
def prepareChild : PropertyM Unit := do
  openScope
  let t ← opening
  onStream (Stream.grantChild t)

/-- Makes a place for a list of intervals, which must come first. -/
def prepareIntervals : PropertyM Unit := do
  let p ← getOwn
  let t ← opening
  onStream (Stream.expectActive t)
  if p.scope ≠ .unopened then refuse (.intervalsNotFirst p.name)
  onStream (Stream.grantChild t)

end Property

end SceneStream
