import SceneStream.Session.Basic

/-!
# Writers of a session

Opening and closing writers that are found by their address, and the operations in which more than
one writer takes part: a child is opened inside its parent, an interval inside its list, and a value
is written by opening a child, writing, and closing it again whatever happens.
-/

namespace SceneStream.Session

def start (h : Handle) : SessionM Unit :=
  match h.shape with
  | .packet => onPacket h.address.root Packet.start
  | .property _ => onProperty h.address Property.start

def finish (h : Handle) : SessionM Unit :=
  match h.shape with
  | .packet => onPacket h.address.root Packet.finish
  | .property _ => onProperty h.address Property.finish

/-- Closes a writer that is still open, whatever comes of it. -/
def release (h : Handle) : SessionM Unit := do
  if (← get).isOpen h then quietly (finish h)

/-- Runs an operation on an open writer and then closes the writer. If the operation fails, its
failure is the one that counts. -/
def closing (h : Handle) (op : SessionM Unit) : SessionM Unit := fun s =>
  match op s with
  | .ok () s => finish h s
  | .error e s =>
    match release h s with
    | .ok () s => .error e s
    | .error _ s => .error e s

/-- Makes a place for one child inside a packet or a composite. -/
def prepareChild (h : Handle) : SessionM Unit :=
  match h.shape with
  | .packet => onPacket h.address.root Packet.prepareChild
  | .property _ => onProperty h.address Property.prepareChild

/-- Opens a child inside its parent. -/
def startChild (parent child : Handle) : SessionM Unit := do
  prepareChild parent
  start child

/-- Writes a child that has one value. -/
def writeChild (parent child : Handle) (op : PropertyM Unit) : SessionM Unit := do
  startChild parent child
  closing child (onProperty child.address op)

/-- Writes a child as a reference, whose text is read before anything else happens. -/
def referChild (parent child : Handle) (k : Kind) (source : Reference.Source) : SessionM Unit := do
  match source.resolve with
  | .ok r => writeChild parent child (Property.write k k.standard (.reference r))
  | .error e => throw e

/-- Opens a list of intervals in place of a property, and keeps it under a name. -/
def startIntervals (a : Address) (content : Content) (list : String) : SessionM Unit := do
  let l := IntervalList.of ((← get).propertyAt a) content
  onProperty a Property.prepareIntervals
  let l ← beside l IntervalList.start
  onProperty a do Writing.setOwn { ← Writing.getOwn with scope := .intervals }
  modify fun s =>
    let s := s.forget (.interval list)
    { s with lists := s.lists.put list l }

/-- Whether the latest interval of a list is open. -/
def intervalIsOpen (s : Session) (list : String) (l : IntervalList) : Bool :=
  l.hasCurrent && (s.propertyAt { root := .interval list }).isOpen

def startList (list : String) (l : IntervalList) : SessionM Unit :=
  onList list l IntervalList.start

def finishList (list : String) (l : IntervalList) : SessionM Unit := do
  onList list l (IntervalList.finish ((← get).intervalIsOpen list l))

/-- Opens the next interval of a list, with a fresh writer. -/
def startInterval (list : String) (l : IntervalList) : SessionM Unit := do
  onList list l (IntervalList.prepareInterval ((← get).intervalIsOpen list l))
  let element ← beside l.template.renewed Property.start
  modify fun s =>
    let s := s.forget (.interval list)
    { s with
      lists := s.lists.put list { l with hasCurrent := true }
      properties := s.properties.put { root := .interval list } element }

/-- Makes a writer of the program's own. -/
def make (slot : String) (shape : Shape) (name : String) : SessionM Unit :=
  modify fun s =>
    let s := s.forget (.slot slot)
    { s with
      slots := s.slots.put slot shape
      properties := match shape with
        | .packet => s.properties
        | .property _ => s.properties.put { root := .slot slot } { name } }

/-- Copies a writer into a slot. The copy is closed and has written nothing. A copy of a packet
keeps how its own properties are set; other writers lose their children. -/
def copy (h : Handle) (slot : String) : SessionM Unit :=
  modify fun s =>
    let kept : Table Address Property := match h.shape with
      | .packet => packetRows.map fun row =>
        ({ root := .slot slot, path := [row.name] },
          (s.propertyAt (h.address.child row.name)).renewed)
      | .property _ => [({ root := .slot slot }, (s.propertyAt h.address).renewed)]
    let s := s.forget (.slot slot)
    { s with
      slots := s.slots.put slot h.shape
      properties := kept ++ s.properties }

end SceneStream.Session
