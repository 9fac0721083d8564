import SceneStream.IntervalList
import SceneStream.Packet
import SceneStream.Property.Value

/-!
# Sessions

A session is everything one program holds while it writes: the stream, perhaps a document on it, and
writers. A writer is found by its address: where it starts, and the names of the members to follow
from there. The writer of a member comes into being when it is first asked for, so an address that
was never used stands for a fresh one.
-/

namespace SceneStream

/-- Where an address starts. -/
inductive Root where
  /-- The packet writer of the document. -/
  | document
  /-- A writer that the program made for itself. -/
  | slot (name : String)
  /-- The latest interval of a list. -/
  | interval (list : String)
  deriving DecidableEq, Repr

structure Address where
  root : Root
  path : List String := []
  deriving DecidableEq, Repr

/-- The address of a member. -/
def Address.child (a : Address) (name : String) : Address := { a with path := a.path ++ [name] }

/-- A document: the number of its packets that were opened. -/
structure Document where
  packets : Nat := 0
  deriving DecidableEq, Repr

/-- The version that a document packet names. -/
def Document.version : String := "1.0"

/-- An association of keys with values; a key that is put again is replaced. -/
abbrev Table (κ α : Type) := List (κ × α)

namespace Table

variable {κ α : Type} [DecidableEq κ]

def get? (t : Table κ α) (k : κ) : Option α := (t.find? (·.1 = k)).map (·.2)

def without (t : Table κ α) (p : κ → Bool) : Table κ α := t.filter fun entry => !p entry.1

def put (t : Table κ α) (k : κ) (a : α) : Table κ α := (k, a) :: t.without (· = k)

@[simp] theorem get?_put_self (t : Table κ α) (k : κ) (a : α) : (t.put k a).get? k = some a := by
  simp [get?, put]

theorem get?_without (t : Table κ α) (p : κ → Bool) (k : κ) :
    (t.without p).get? k = if p k then none else t.get? k := by
  induction t with
  | nil => simp [without, get?]
  | cons entry t ih =>
    obtain ⟨j, a⟩ := entry
    by_cases hj : j = k <;> by_cases hp : p j <;> grind [without, get?]

theorem get?_put_of_ne (t : Table κ α) {j k : κ} (a : α) (h : j ≠ k) :
    (t.put j a).get? k = t.get? k := by
  have : (t.without (· = j)).get? k = t.get? k := by simp [get?_without, Ne.symm h]
  simpa [get?, put, h] using this

end Table

structure Session where
  stream : Stream
  document : Option Document := none
  /-- The writers that the program made, with what each writes. -/
  slots : Table String Shape := []
  lists : Table String IntervalList := []
  packets : Table Root Packet := []
  properties : Table Address Property := []
  /-- Openings of the stream that the program took for itself. -/
  tokens : Table String Token := []

/-- An operation in a session. -/
abbrev SessionM := EStateM Error Session

/-- A writer that exists, with what it writes. -/
structure Handle where
  address : Address
  shape : Shape
  deriving DecidableEq, Repr

namespace Session

/-- What the writer at a root writes, if there is one. -/
def shapeAt? (s : Session) : Root → Option Shape
  | .document => s.document.map fun _ => .packet
  | .slot name => s.slots.get? name
  | .interval list => do
    let l ← s.lists.get? list
    if l.hasCurrent then return .property l.content else none

/-- The writer at an address, if the address leads to one. -/
def handle? (s : Session) (a : Address) : Option Handle := do
  return { address := a, shape := ← (← s.shapeAt? a.root).follow? a.path }

def packetAt (s : Session) (r : Root) : Packet := (s.packets.get? r).getD {}

def propertyAt (s : Session) (a : Address) : Property :=
  (s.properties.get? a).getD { name := a.path.getLast?.getD "" }

/-- Whether the writer is open. -/
def isOpen (s : Session) (h : Handle) : Bool :=
  match h.shape with
  | .packet => (s.packetAt h.address.root).isOpen
  | .property _ => (s.propertyAt h.address).isOpen

/-- Forgets all writers at a root. -/
def forget (s : Session) (r : Root) : Session :=
  { s with
    packets := s.packets.without (· = r)
    properties := s.properties.without (·.root = r) }

/-- A session with a stream and nothing on it. -/
def ofStream (sink : Sink) (settings : Settings) : Session := { stream := { sink, settings } }

/-- A session with a new document, whose text starts with the bracket of its packets. -/
def ofDocument (sink : Sink) (settings : Settings) : Except Error Session :=
  match Stream.startSequence { sink, settings } with
  | .ok () stream => .ok { stream, document := some {} }
  | .error e _ => .error e

/-- A session with a new document in a file, if the file can be made. -/
def create (file : Option Sink) (settings : Settings) : Except Error Session :=
  match file with
  | none => .error (.io .notFound)
  | some sink => ofDocument sink settings

variable {α : Type}

def onStream (op : StreamM α) : SessionM α := fun s =>
  match op s.stream with
  | .ok x stream => .ok x { s with stream }
  | .error e stream => .error e { s with stream }

/-- Runs an operation of the packet writer at a root. -/
def onPacket (r : Root) (op : PacketM α) : SessionM α := fun s =>
  let keep (w : Writing Packet) : Session :=
    { s with stream := w.stream, packets := s.packets.put r w.own }
  match op ⟨s.stream, s.packetAt r⟩ with
  | .ok x w => .ok x (keep w)
  | .error e w => .error e (keep w)

/-- Runs an operation of the property writer at an address. -/
def onProperty (a : Address) (op : PropertyM α) : SessionM α := fun s =>
  let keep (w : Writing Property) : Session :=
    { s with stream := w.stream, properties := s.properties.put a w.own }
  match op ⟨s.stream, s.propertyAt a⟩ with
  | .ok x w => .ok x (keep w)
  | .error e w => .error e (keep w)

/-- Runs an operation of a list writer that is kept under a name. -/
def onList (name : String) (l : IntervalList) (op : IntervalListM α) : SessionM α := fun s =>
  let keep (w : Writing IntervalList) : Session :=
    { s with stream := w.stream, lists := s.lists.put name w.own }
  match op ⟨s.stream, l⟩ with
  | .ok x w => .ok x (keep w)
  | .error e w => .error e (keep w)

/-- Runs an operation of a writer that is not kept yet, and returns the writer. -/
def beside {ω : Type} (own : ω) (op : WriterM ω Unit) : SessionM ω := fun s =>
  match op ⟨s.stream, own⟩ with
  | .ok () w => .ok w.own { s with stream := w.stream }
  | .error e w => .error e { s with stream := w.stream }

/-- Runs an operation whose failure nobody hears of. -/
def quietly (op : SessionM Unit) : SessionM Unit := fun s =>
  match op s with
  | .ok _ s => .ok () s
  | .error _ s => .ok () s

end Session

end SceneStream
