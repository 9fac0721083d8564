import SceneStream.Session.Document
import SceneStream.Text.Quoted

/-!
# Commands

The calls of a program as data, so that a whole run is a list. A command is addressed to a writer, a
list, the document or the stream; one that leads to no writer, or that its writer does not have, is
no call at all and changes nothing. Every other command is answered or refused.
-/

namespace SceneStream

/-- What a document can do. -/
inductive DocumentCommand where
  | openPacket
  | writeDocumentPacket (name : String)
  | packetCount
  | finish

/-- What every writer can do. -/
inductive WriterCommand where
  | start
  | finish
  /-- Closes the writer if it is open, without an answer. -/
  | release
  | state
  /-- Finds the writer and does nothing. -/
  | touch
  /-- Copies the writer into a slot. -/
  | copy (slot : String)

/-- What writers with children can do. -/
inductive ParentCommand where
  | startChild (child : String)
  | writeChild (child : String) (k : Kind) (e : k.Encoding) (b : Binding k)
  | referChild (child : String) (source : Reference.Source)
  /-- Writes the picture of a material under the URI that a resolver puts in place of its own. -/
  | writeImage (u : Uri) (resolver : String → String)

/-- What a packet writes of its own. -/
inductive PacketCommand where
  | id (id : String)
  | name (name : String)
  | parent (parent : String)
  | version (version : String)
  | delete (delete : Bool)
  | availability (i : Interval)

/-- What properties of all contents can do. -/
inductive PropertyCommand where
  | interval (i : Interval)
  | delete (delete : Bool)
  | forceObject (force : Bool)
  | openScope
  | prepareChild
  /-- Makes the property a list of intervals, kept under a name. -/
  | startIntervals (list : String)
  | describe

/-- What properties with a value can do. -/
inductive ValueCommand where
  | write (k : Kind) (e : k.Encoding) (b : Binding k)
  | samples (k : Kind) (dates : List Instant) (values : List k.Value)
  | window (k : Kind) (dates : List Instant) (values : List k.Value) (start length : Nat)
  | reference (source : Reference.Source)
  | resolved (u : Uri) (resolver : String → String)
  | algorithm (a : InterpolationAlgorithm)
  | degree (degree : Nat)

/-- What a list of intervals can do. -/
inductive ListCommand where
  | start
  | startInterval
  | finish
  | state

/-- What can be asked of the stream itself. -/
inductive StreamCommand where
  | startObject
  | endObject
  | startSequence
  | endSequence
  | name (key : String)
  | value (v : Scalar)
  | flush
  | describe
  /-- Opens a writer of the program's own, and keeps the opening under a name. -/
  | beginWriter (token : String)
  | endWriter (token : String)
  | grantChild (token : String)
  | expectActive (token : String)
  | expectCanOpen
  /-- The names of the innermost opening. -/
  | active

/-- A call of the program. -/
inductive Command where
  | document (c : DocumentCommand)
  | make (slot : String) (shape : Shape) (name : String)
  | writer (a : Address) (c : WriterCommand)
  | parent (a : Address) (c : ParentCommand)
  | packet (a : Address) (c : PacketCommand)
  | property (a : Address) (c : PropertyCommand)
  | value (a : Address) (c : ValueCommand)
  | list (name : String) (c : ListCommand)
  | stream (c : StreamCommand)

/-- The answer to a command that was not refused. -/
inductive Reply where
  | done
  | count (n : Nat)
  | text (text : String)
  | packet (isOpen : Bool)
  | property (p : Property)
  | list (isOpen hasCurrent : Bool)
  /-- The names of an opening, or nothing where none is open. -/
  | names (names : Option (List String))

namespace Session

/-- A state read without being changed. -/
def look (f : Session → Reply) : SessionM Reply := return f (← get)

def doing (op : SessionM Unit) : SessionM Reply := do
  op
  return .done

def onDocument (d : Document) : DocumentCommand → SessionM Reply
  | .openPacket => doing (openPacket d)
  | .writeDocumentPacket name => doing (writeDocumentPacket d name)
  | .packetCount => return .count d.packets
  | .finish => doing finishDocument

def onWriter (h : Handle) : WriterCommand → SessionM Reply
  | .start => doing (start h)
  | .finish => doing (finish h)
  | .release => doing (release h)
  | .state => look fun s =>
    match h.shape with
    | .packet => .packet (s.packetAt h.address.root).isOpen
    | .property _ => .property (s.propertyAt h.address)
  | .touch => return .done
  | .copy slot => doing (copy h slot)

/-- The writer of a member, and what the member holds. -/
def member? (h : Handle) (name : String) : Option (Handle × Content) := do
  let content ← h.shape.child? name
  return ({ address := h.address.child name, shape := .property content }, content)

def onParent? (h : Handle) : ParentCommand → Option (SessionM Reply)
  | .startChild name => do
    let (child, _) ← member? h name
    return doing (startChild h child)
  | .writeChild name k e b => do
    let (child, content) ← member? h name
    if content = .value k then return doing (writeChild h child (Property.write k e b)) else none
  | .referChild name source => do
    match ← member? h name with
    | (child, .value k) => return doing (referChild h child k source)
    | _ => none
  | .writeImage u resolver => do
    if h.shape = .property (.composite .image) then
      let (child, _) ← member? h "image"
      return doing (writeChild h child (Property.writeResolved u resolver))
    else none

def packetOp : PacketCommand → PacketM Unit
  | .id id => Packet.writeId id
  | .name name => Packet.writeName name
  | .parent parent => Packet.writeParent parent
  | .version version => Packet.writeVersion version
  | .delete delete => Packet.writeDelete delete
  | .availability i => Packet.writeAvailability i

/-- A property as a record with the names of its fields. -/
def description (p : Property) : Content → String
  | .value k =>
    "PropertyWriter \x7b name: " ++ Quoted.text p.name ++ ", kind: " ++ k.category.title ++
      ", open: " ++ toString p.isOpen ++ ", value_written: " ++ toString p.valueWritten ++ " \x7d"
  | .composite c =>
    c.title ++ " \x7b name: " ++ Quoted.text p.name ++ ", open: " ++ toString p.isOpen ++ ", .. \x7d"

def onContent (a : Address) (content : Content) : PropertyCommand → SessionM Reply
  | .interval i => doing (onProperty a (Property.writeInterval i))
  | .delete delete => doing (onProperty a (Property.writeDelete delete))
  | .forceObject force => doing (onProperty a (Property.setForceObject force))
  | .openScope => doing (onProperty a Property.openScope)
  | .prepareChild => doing (onProperty a Property.prepareChild)
  | .startIntervals list => doing (startIntervals a content list)
  | .describe => look fun s => .text (description (s.propertyAt a) content)

/-- The operation of a value command, where the property has its kind. -/
def valueOp? (kind : Kind) : ValueCommand → Option (PropertyM Unit)
  | .write k e b => if k = kind then some (Property.write k e b) else none
  | .samples k dates values =>
    if k = kind then some (Property.writeSamples k dates values) else none
  | .window k dates values start length =>
    if k = kind then some (Property.writeWindow k dates values start length) else none
  | .reference source => some (Property.writeReference source)
  | .resolved u resolver =>
    if kind = .uri then some (Property.writeResolved u resolver) else none
  | .algorithm a => if kind.interpolates then some (Property.writeAlgorithm a) else none
  | .degree degree => if kind.interpolates then some (Property.writeDegree degree) else none

def onIntervals (name : String) (l : IntervalList) : ListCommand → SessionM Reply
  | .start => doing (startList name l)
  | .startInterval => doing (startInterval name l)
  | .finish => doing (finishList name l)
  | .state => return .list l.isOpen l.hasCurrent

/-- The names that the innermost opening was kept under, in order. -/
def activeNames (s : Session) : Option (List String) :=
  s.stream.active?.map fun t =>
    ((s.tokens.filter (·.2 = t)).map (·.1)).mergeSort (fun a b => !(b < a))

/-- An operation of the stream with an opening that was kept under a name. -/
def withToken? (s : Session) (name : String) (op : Token → StreamM Unit) :
    Option (SessionM Reply) :=
  (s.tokens.get? name).map fun t => doing (onStream (op t))

def onOutput? (s : Session) : StreamCommand → Option (SessionM Reply)
  | .startObject => some (doing (onStream Stream.startObject))
  | .endObject => some (doing (onStream Stream.endObject))
  | .startSequence => some (doing (onStream Stream.startSequence))
  | .endSequence => some (doing (onStream Stream.endSequence))
  | .name key => some (doing (onStream (Stream.name key)))
  | .value v => some (doing (onStream (Stream.value v)))
  | .flush => some (doing (onStream Stream.flush))
  | .describe => some (look fun s => .text s.stream.description)
  | .beginWriter token => some do
    let t ← onStream Stream.beginWriter
    modify fun s => { s with tokens := s.tokens.put token t }
    return .done
  | .endWriter token => s.withToken? token Stream.endWriter
  | .grantChild token => s.withToken? token Stream.grantChild
  | .expectActive token => s.withToken? token Stream.expectActive
  | .expectCanOpen => some (doing (onStream Stream.expectCanOpen))
  | .active => some (look fun s => .names s.activeNames)

/-- What a command does in a session, if it is a call at all. -/
def operation? (s : Session) : Command → Option (SessionM Reply)
  | .document c => s.document.map fun d => onDocument d c
  | .make slot shape name => some (doing (make slot shape name))
  | .writer a c => do return onWriter (← s.handle? a) c
  | .parent a c => do onParent? (← s.handle? a) c
  | .packet a c => do
    let h ← s.handle? a
    if h.shape = .packet then return doing (onPacket a.root (packetOp c)) else none
  | .property a c => do
    match (← s.handle? a).shape with
    | .property content => return onContent a content c
    | .packet => none
  | .value a c => do
    match (← s.handle? a).shape with
    | .property (.value k) => return doing (onProperty a (← valueOp? k c))
    | _ => none
  | .list name c => do return onIntervals name (← s.lists.get? name) c
  | .stream c => s.onOutput? c

end Session

/-- What became of a command. -/
inductive Outcome where
  | answered (reply : Reply)
  | refused (error : Error)
  /-- The command was no call. -/
  | misdirected

/-- Executes one command. -/
def Session.step (s : Session) (c : Command) : Outcome × Session :=
  match s.operation? c with
  | none => (.misdirected, s)
  | some op =>
    match op s with
    | .ok reply s => (.answered reply, s)
    | .error e s => (.refused e, s)

/-- Executes commands one after the other, whatever becomes of them. -/
def Session.run (s : Session) (cs : List Command) : Session :=
  cs.foldl (fun s c => (s.step c).2) s

end SceneStream
