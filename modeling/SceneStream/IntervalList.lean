import SceneStream.Property.Basic
import SceneStream.Schema

/-!
# Lists of intervals

A property may be an array with one object for each interval of time. Each object has a fresh writer
of the property's own shape, and one is closed before the next is opened.
-/

namespace SceneStream

/-- The state of the writer of a list. -/
structure IntervalList where
  /-- What every interval starts as. -/
  template : Property
  content : Content
  token : Option Token := none
  /-- Whether an interval was opened since the list was. -/
  hasCurrent : Bool := false
  deriving DecidableEq, Repr

abbrev IntervalListM := WriterM IntervalList

namespace IntervalList

open Writing

/-- The list in place of a property. -/
def of (p : Property) (content : Content) : IntervalList :=
  { template := { p.renewed with role := .element }, content }

def isOpen (l : IntervalList) : Bool := l.token.isSome

/-- The opening, refused unless the list is the innermost writer. -/
def activeOpening : IntervalListM Token := do
  let l ← getOwn
  match l.token with
  | some t =>
    onStream (Stream.expectActive t)
    return t
  | none => refuse (.listNotOpen l.template.name)

def start : IntervalListM Unit := do
  let l ← getOwn
  if l.isOpen then refuse (.listOpen l.template.name)
  let t ← onStream do
    Stream.expectCanOpen
    Stream.startSequence
    Stream.beginWriter
  setOwn { l with token := some t }

/-- Makes a place for the next interval, once the last one is closed. -/
def prepareInterval (currentIsOpen : Bool) : IntervalListM Unit := do
  let l ← getOwn
  if currentIsOpen then refuse (.previousIntervalOpen l.template.name)
  let t ← activeOpening
  onStream (Stream.grantChild t)

def finish (currentIsOpen : Bool) : IntervalListM Unit := do
  let l ← getOwn
  if currentIsOpen then refuse (.intervalOpen l.template.name)
  let t ← activeOpening
  onStream do
    Stream.endSequence
    Stream.endWriter t
  setOwn { l with token := none, hasCurrent := false }

end IntervalList

end SceneStream
