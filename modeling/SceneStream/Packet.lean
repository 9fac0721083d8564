import SceneStream.Value.Vocabulary
import SceneStream.Time.Interval
import SceneStream.Writing

/-!
# Packets

A packet is one object of the document. Its own members are scalars; its properties have writers of
their own.
-/

namespace SceneStream

/-- The state of a packet writer: its opening, while it is open. -/
structure Packet where
  token : Option Token := none
  deriving DecidableEq, Repr

abbrev PacketM := WriterM Packet

namespace Packet

open Writing

def isOpen (p : Packet) : Bool := p.token.isSome

/-- The opening, refused while the packet is closed. -/
def opening : PacketM Token := do
  match (← getOwn).token with
  | some t => return t
  | none => refuse .packetNotOpen

def start : PacketM Unit := do
  if (← getOwn).isOpen then refuse .packetOpen
  let t ← onStream do
    Stream.expectCanOpen
    Stream.startObject
    Stream.beginWriter
  setOwn { token := some t }

def finish : PacketM Unit := do
  let t ← opening
  onStream do
    Stream.expectActive t
    Stream.endObject
    Stream.endWriter t
  setOwn {}

/-- Writes a member of the packet's own. -/
def member (key : String) (v : Scalar) : PacketM Unit := do
  let t ← opening
  onStream do
    Stream.expectActive t
    Stream.member key v

def writeId (id : String) : PacketM Unit := do
  if id = "" then throw (.invalidArgument .emptyPacketId)
  member "id" (.text id)

def writeName (name : String) : PacketM Unit := member "name" (.text name)

def writeParent (parent : String) : PacketM Unit := member "parent" (.text parent)

def writeVersion (version : String) : PacketM Unit := member "version" (.text version)

/-- Whether a client should remove the entity instead of updating it. -/
def writeDelete (delete : Bool) : PacketM Unit := member "delete" (.bool delete)

/-- The interval in which the entity exists. -/
def writeAvailability (i : Interval) : PacketM Unit := member "availability" (.text i.text)

/-- Makes a place for one child. -/
def prepareChild : PacketM Unit := do
  let t ← opening
  onStream (Stream.grantChild t)

end Packet

end SceneStream
