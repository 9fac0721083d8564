import SceneStream.Session.Writers

/-!
# The document of a session

A document is an array of packets that share one writer. Finishing it ends the document even where
that fails; the stream can still be written to by others.
-/

namespace SceneStream.Session

/-- The packet writer of the document. -/
def documentPacket : Handle := { address := { root := .document }, shape := .packet }

/-- Opens the next packet and counts it. -/
def openPacket (d : Document) : SessionM Unit := do
  start documentPacket
  modify fun s => { s with document := some { d with packets := d.packets + 1 } }

/-- Writes the packet that names the document and its version; no packet may come before it. -/
def writeDocumentPacket (d : Document) (name : String) : SessionM Unit := do
  if 0 < d.packets then refuse .documentPacketLate
  openPacket d
  closing documentPacket <| onPacket .document do
    Packet.writeId "document"
    Packet.writeName name
    Packet.writeVersion Document.version

/-- Ends the array of packets, once no writer is open, and flushes the sink. -/
def finishDocument : SessionM Unit := do
  modify fun s => { s with document := none }
  onStream do
    let s ← get
    if s.writers ≠ [] then refuse (.writersOpen s.writers.length)
    Stream.endSequence
    Stream.flush

end SceneStream.Session
