import SceneStream.Proofs.Outline.Basic
import SceneStream.Proofs.Session.Arguments
import SceneStream.Proofs.Session.Children

/-!
# What commands describe

The deeds of a command are what it adds to the outline if it is answered. They come from the command
itself, from the names and roles of the writers it meets, and from how these are set; nothing here
looks at the text, at frames or at scopes. A run of commands describes one outline.
-/

namespace SceneStream

/-- Whether the command is an operation of a writer or of the document, or looks at the stream only.
Calls of the stream's own structure are not, nor is a place for a child that is not opened with it. -/
def Command.isWriting : Command → Bool
  | .property _ .prepareChild => false
  | .stream c =>
    match c with
    | .flush | .describe | .expectActive _ | .expectCanOpen | .active => true
    | _ => false
  | _ => true

/-- Whether the command ends the document. -/
def Command.isFinish : Command → Bool
  | .document .finish => true
  | _ => false

/-- The member that a packet command writes. -/
def PacketCommand.toMember : PacketCommand → String × Scalar
  | .id text => ("id", .text text)
  | .name text => ("name", .text text)
  | .parent text => ("parent", .text text)
  | .version text => ("version", .text text)
  | .delete b => ("delete", .bool b)
  | .availability i => ("availability", .text i.text)

/-- What a value command writes to a property that may be set to be an object. Arguments that are no
value have nothing to write. -/
def ValueCommand.toWrite (settings : Settings) (force : Bool) : ValueCommand → Write
  | .write k e b => .ofBinding settings force k e b
  | .samples k dates values =>
    match TimeSeries.of dates values with
    | .ok series => .ofSeries settings k k.standard series
    | .error _ => .members []
  | .window k dates values start length =>
    match do (← TimeSeries.of dates values).slice start length with
    | .ok series => .ofSeries settings k k.standard series
    | .error _ => .members []
  | .reference source =>
    match source.resolve with
    | .ok r => .ofReference r
    | .error _ => .members []
  | .resolved u resolver => .ofLiteral force .uri () (u.resolve resolver)
  | .algorithm a => .members [("interpolationAlgorithm", .scalar (.text (Vocabulary.token a)))]
  | .degree n => .members [("interpolationDegree", .scalar (.integer n))]

/-- The child that a command is about. -/
def ParentCommand.child : ParentCommand → String
  | .startChild child | .writeChild child .. | .referChild child _ => child
  | .writeImage .. => "image"

/-- What a command writes to a child that it opens and closes itself. -/
def ParentCommand.toWrite? (settings : Settings) (force : Bool) : ParentCommand → Option Write
  | .startChild _ => none
  | .writeChild _ k e b => some (.ofBinding settings force k e b)
  | .referChild _ source =>
    match source.resolve with
    | .ok r => some (.ofReference r)
    | .error _ => none
  | .writeImage u resolver => some (.ofLiteral force .uri () (u.resolve resolver))

namespace Session

/-- Whether the session answers the command. -/
def answers (s : Session) (c : Command) : Bool :=
  match (s.step c).1 with
  | .answered _ => true
  | .refused _ | .misdirected => false

/-- What a command writes to a child of the writer at an address. -/
def childWrite? (s : Session) (a : Address) (c : ParentCommand) : Option Write :=
  c.toWrite? s.stream.settings (s.propertyAt (a.child c.child)).forceObject

/-- What a command adds if it is answered. -/
def deeds (s : Session) : Command → List Deed
  | .document .openPacket => [.enter (.packet [])]
  | .document (.writeDocumentPacket name) =>
    [.enter (.packet []),
      .write (.members [("id", .scalar (.text "document")), ("name", .scalar (.text name)),
        ("version", .scalar (.text Document.version))]),
      .leave]
  | .document .packetCount => []
  | .document .finish => [.finish]
  | .make .. => []
  | .writer a .start => (s.handle? a).toList.map fun h => .enter (s.partOf h)
  | .writer _ .finish => [.leave]
  | .writer a .release => if s.answers (.writer a .finish) then [.leave] else []
  | .writer _ .state | .writer _ .touch | .writer _ (.copy _) => []
  | .parent a c =>
    [.write (.members []), .enter (.member c.child .nothing)] ++
      match s.childWrite? a c with
      | some w => [.write w, .leave]
      | none => []
  | .packet _ c => [.write (.members [(c.toMember.1, .scalar c.toMember.2)])]
  | .property _ (.interval i) => [.write (.members [("interval", .scalar (.text i.text))])]
  | .property _ (.delete delete) => [.write (.members [("delete", .scalar (.bool delete))])]
  | .property _ .openScope => [.write (.members [])]
  | .property a (.startIntervals _) => [.enter (.list (s.propertyAt a).name [])]
  | .property _ (.forceObject _) | .property _ .prepareChild | .property _ .describe => []
  | .value a c => [.write (c.toWrite s.stream.settings (s.propertyAt a).forceObject)]
  | .list list .start =>
    (s.lists.get? list).toList.map fun l => .enter (.list l.template.name [])
  | .list list .startInterval =>
    (s.lists.get? list).toList.map fun l => .enter (.element l.template.name [])
  | .list _ .finish => [.leave]
  | .list _ .state => []
  | .stream _ => []

/-- Whether a command opens a child even if the value of the child is refused: its value is written
in the same command, and nothing keeps the child from being opened. -/
def opensChild (s : Session) : Command → Bool
  | .parent a c => (s.childWrite? a c).isSome && s.answers (.parent a (.startChild c.child))
  | _ => false

/-- What a command adds although it is refused: the empty object of a child that was opened. -/
def remnants (s : Session) (c : Command) : List Deed :=
  match c with
  | .parent _ p =>
    if s.opensChild c then [.write (.members []), .enter (.member p.child .nothing), .leave] else []
  | _ => []

/-- What a command adds, as it turns out. -/
def described (s : Session) (c : Command) : List Deed :=
  match (s.step c).1 with
  | .answered _ => s.deeds c
  | .refused _ => s.remnants c
  | .misdirected => []

/-- The outline behind commands one after the other. -/
def describe (s : Session) (o : Outline) : List Command → Outline
  | [] => o
  | c :: cs => describe (s.step c).2 (o.afterAll (s.described c)) cs

end Session

/-! ## Writes that commands make -/

namespace Property

theorem writes_openScope : Writes openScope fun _ _ => .members [] :=
  fun _ _ => ⟨_, _, adds_openScope⟩

theorem writes_writeInterval (i : Interval) :
    Writes (writeInterval i) fun _ _ => .members [("interval", .scalar (.text i.text))] :=
  fun _ _ => ⟨_, _, adds_writeInterval i⟩

theorem writes_writeDelete (delete : Bool) :
    Writes (writeDelete delete) fun _ _ => .members [("delete", .scalar (.bool delete))] :=
  fun _ _ => ⟨_, _, adds_writeDelete delete⟩

/-- Arguments that are no value are refused whatever the property is like. -/
theorem Adds.of_invalid {s : Stream} {p p' : Property} {op : PropertyM Unit} {legal : Prop} {w : Write}
    (refuses : Refuses op ⟨s, p⟩) (illegal : ¬ legal) (valued : p' = p.valued w) :
    Adds s p op legal w p' :=
  .of_refuses refuses illegal (by rw [valued]; rfl)

/-- A value command writes what it describes, to properties of its kind that take it. -/
theorem adds_valueOp {kind : Kind} {c : ValueCommand} {op : PropertyM Unit}
    (found : Session.valueOp? kind c = some op) (s : Stream) (p : Property) :
    Adds s p op
      (c.IsValid ∧ (c.isValue = true → p.valueWritten = false) ∧ p.TakesEntries s)
      (c.toWrite s.settings p.forceObject)
      (if c.isValue then p.valued (c.toWrite s.settings p.forceObject)
        else { p with scope := .object }) := by
  cases c with
  | write k e b =>
      obtain ⟨-, ⟨⟩⟩ := Option.ite_none_right_eq_some.mp found
      apply (adds_write k e b).congr
      simp only [ValueCommand.IsValid, ValueCommand.isValue, TakesValue]
      tauto
  | samples k dates values =>
      obtain ⟨-, ⟨⟩⟩ := Option.ite_none_right_eq_some.mp found
      cases built : TimeSeries.of dates values with
      | ok series =>
          simp only [writeSamples_of_ok built, ValueCommand.toWrite, built]
          apply (adds_writeSeries k k.standard series).congr
          simp only [ValueCommand.IsValid, ValueCommand.isValue, built, Binding.IsValid,
            Except.ok.injEq, exists_eq_left']
          tauto
      | error e =>
          exact .of_invalid (refuses_writeSamples built) (by simp [ValueCommand.IsValid, built]) rfl
  | window k dates values start length =>
      obtain ⟨-, ⟨⟩⟩ := Option.ite_none_right_eq_some.mp found
      cases built : (do (← TimeSeries.of dates values).slice start length) with
      | ok series =>
          simp only [writeWindow_of_ok built, ValueCommand.toWrite, built]
          apply (adds_writeSeries k k.standard series).congr
          simp only [ValueCommand.IsValid, ValueCommand.isValue, built, Binding.IsValid,
            Except.ok.injEq, exists_eq_left']
          tauto
      | error e =>
          exact .of_invalid (refuses_writeWindow built) (by simp [ValueCommand.IsValid, built]) rfl
  | reference source =>
      obtain rfl := Option.some.inj found
      cases resolved : source.resolve with
      | ok r =>
          simp only [ValueCommand.toWrite, resolved]
          apply (adds_writeReference resolved).congr
          simp [ValueCommand.IsValid, ValueCommand.isValue, resolved]
      | error e =>
          exact .of_invalid (refuses_writeReference resolved)
            (by simp [ValueCommand.IsValid, resolved]) rfl
  | resolved u resolver =>
      obtain ⟨-, ⟨⟩⟩ := Option.ite_none_right_eq_some.mp found
      apply (adds_writeLiteral .uri () (u.resolve resolver)).congr
      simp only [ValueCommand.IsValid, ValueCommand.isValue, Binding.IsValid]
      tauto
  | algorithm a =>
      obtain ⟨-, ⟨⟩⟩ := Option.ite_none_right_eq_some.mp found
      exact (adds_writeAlgorithm a).congr (by simp [ValueCommand.IsValid, ValueCommand.isValue])
  | degree degree =>
      obtain ⟨-, ⟨⟩⟩ := Option.ite_none_right_eq_some.mp found
      apply (adds_writeDegree degree).congr
      simp only [ValueCommand.IsValid, ValueCommand.isValue]
      tauto

theorem writes_valueOp {kind : Kind} {c : ValueCommand} {op : PropertyM Unit}
    (found : Session.valueOp? kind c = some op) : Writes op c.toWrite :=
  fun s p => ⟨_, _, adds_valueOp found s p⟩

end Property

end SceneStream
