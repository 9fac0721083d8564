import SceneStream.Proofs.Session.Locality
import SceneStream.Proofs.Session.Refinement
import SceneStream.Proofs.Writer.Lasting

/-!
# The writer of a member

The writer of a member writes under the name of the member. No operation makes anything else of it,
whatever comes of the operation and of the sink, and a program that puts other writers in its place puts
closed ones there that belong to the same member.
-/

namespace SceneStream

open Writing

/-- At the address of a member, the writer is one of a member, and has its name. -/
def Property.BelongsTo (p : Property) (a : Address) : Prop :=
  (WriterState.property p).IsRegular (.property a)

namespace Property

variable {a : Address}

theorem lasting_belongsTo (a : Address) : Lasting (·.BelongsTo a) := by
  intro p q name role _ belongs member
  rw [name, role]
  exact belongs member

theorem stays_start : Moves (Stays (·.BelongsTo a)) start := by
  apply stays_getOwn
  intro p belongs
  have opens (op : StreamM Token) {opened : Token → Property}
      (keeps : ∀ t, (opened t).BelongsTo a) :
      Moves (Stays (·.BelongsTo a)) (do
        let t ← onStream op
        setOwn (opened t)) :=
    (stays_onStream op).bind fun t => stays_setOwn (keeps t)
  exact .ite ((moves_refuse _).bind fun _ => opens _ fun _ => belongs) (opens _ fun _ => belongs)

theorem stays_finish : Moves (Stays (·.BelongsTo a)) finish := by
  apply stays_getOwn
  intro p belongs
  exact stays_opening.bind fun _ => (stays_onStream _).bind fun _ => stays_setOwn belongs

end Property

namespace Session

variable {s s' s₀ : Session} {α : Type} {a : Address} {h : Handle} {c : Command} {cs : List Command}
  {call : SessionM Reply}

/-- Every writer of a member belongs to its address. -/
def IsRegular (s : Session) : Prop := ∀ a, (s.propertyAt a).BelongsTo a

/-- A session whose writers of members belong to their addresses is left as one. -/
def StaysRegular (s s' : Session) : Prop := s.IsRegular → s'.IsRegular

instance : IsPreorder Session StaysRegular where
  refl _ := id
  trans _ _ _ first second := second ∘ first

theorem staysRegular_of_properties (same : s'.properties = s.properties) : s.StaysRegular s' := by
  intro regular b
  rw [propertyAt, same]
  exact regular b

/-- What is put at an address is to belong there. -/
theorem staysRegular_put {stream : Stream} {p : Property}
    (belongs : (s.propertyAt a).BelongsTo a → p.BelongsTo a) :
    s.StaysRegular { s with stream, properties := s.properties.put a p } := by
  intro regular b
  have put := put_property s a stream p
  by_cases same : b = a
  · rw [same, WriterState.property.inj put.here]
    exact belongs (regular a)
  · have elsewhere := put.elsewhere (.property b) fun here => same (Place.property.inj here)
    rw [WriterState.property.inj elsewhere]
    exact regular b

theorem staysRegular_onStream (op : StreamM α) : Moves StaysRegular (onStream op) := by
  intro s
  unfold behind onStream
  cases op s.stream <;> exact staysRegular_of_properties rfl

theorem staysRegular_onPacket {r : Root} (op : PacketM α) : Moves StaysRegular (onPacket r op) := by
  intro s
  unfold behind onPacket
  cases op ⟨s.stream, s.packetAt r⟩ <;> exact staysRegular_of_properties rfl

theorem staysRegular_onList {list : String} {l : IntervalList} (op : IntervalListM α) :
    Moves StaysRegular (onList list l op) := by
  intro s
  unfold behind onList
  cases op ⟨s.stream, l⟩ <;> exact staysRegular_of_properties rfl

theorem staysRegular_beside {ω : Type} (own : ω) (op : WriterM ω Unit) :
    Moves StaysRegular (beside own op) := by
  intro s
  unfold behind beside
  cases op ⟨s.stream, own⟩ <;> exact staysRegular_of_properties rfl

theorem staysRegular_onProperty {op : PropertyM α} (moves : Moves (Property.Stays (·.BelongsTo a)) op) :
    Moves StaysRegular (onProperty a op) := by
  intro s
  have stays := moves ⟨s.stream, s.propertyAt a⟩
  unfold behind at stays ⊢
  unfold onProperty
  cases run : op ⟨s.stream, s.propertyAt a⟩ <;> rw [run] at stays <;> exact staysRegular_put stays

theorem staysRegular_forget (s : Session) (r : Root) : s.StaysRegular (s.forget r) := by
  intro regular b
  have kept := stateAt_forget s r (.property b)
  rw [Property.BelongsTo, ← stateAt, kept]
  split
  · exact isRegular_fresh (.property b)
  · exact regular b

/-- A writer that the program made for itself belongs wherever it stands. -/
theorem staysRegular_putRoot {r : Root} {stream : Stream} {p : Property} :
    s.StaysRegular { s with stream, properties := s.properties.put { root := r } p } :=
  staysRegular_put fun _ member => absurd rfl member

/-! ## Writers of a session -/

theorem staysRegular_start (h : Handle) : Moves StaysRegular (start h) :=
  moves_start (fun _ => staysRegular_onPacket)
    (fun _ => staysRegular_onProperty Property.stays_start) h

theorem staysRegular_finish (h : Handle) : Moves StaysRegular (finish h) :=
  moves_finish (fun _ => staysRegular_onPacket)
    (fun _ => staysRegular_onProperty Property.stays_finish) h

theorem staysRegular_startChild (h child : Handle) : Moves StaysRegular (startChild h child) :=
  moves_startChild (fun _ => staysRegular_onPacket)
    (fun _ => staysRegular_onProperty (Property.stays_prepareChild (Property.lasting_belongsTo _)))
    (fun _ => staysRegular_onProperty Property.stays_start) h child

theorem staysRegular_writeChild (h child : Handle) {op : PropertyM Unit}
    (moves : Moves (Property.Stays (·.BelongsTo child.address)) op) :
    Moves StaysRegular (writeChild h child op) :=
  (staysRegular_startChild h child).bind fun _ =>
    moves_closing (staysRegular_finish child) (staysRegular_onProperty moves)

theorem staysRegular_startIntervals (content : Content) (list : String) :
    Moves StaysRegular (startIntervals a content list) := by
  apply Moves.look
  intro s
  apply (staysRegular_onProperty Property.stays_prepareIntervals).bind
  intro _
  apply (staysRegular_beside _ _).bind
  intro l
  apply (staysRegular_onProperty ?noted).bind
  case noted => exact Property.stays_getOwn fun _ belongs => Property.stays_setOwn belongs
  intro _
  apply moves_modify
  intro s
  exact trans_of StaysRegular (staysRegular_forget s _) (staysRegular_of_properties rfl)

theorem staysRegular_startInterval (list : String) (l : IntervalList) :
    Moves StaysRegular (startInterval list l) := by
  apply Moves.look
  intro s
  apply (staysRegular_onList _).bind
  intro _
  apply (staysRegular_beside _ _).bind
  intro element
  apply moves_modify
  intro s
  have forgotten := staysRegular_forget s (.interval list)
  exact trans_of StaysRegular forgotten (staysRegular_putRoot (r := .interval list) (p := element)
    (s := { s.forget (.interval list) with
      lists := s.lists.put list { l with hasCurrent := true } }))

theorem staysRegular_make (slot : String) (shape : Shape) (name : String) :
    Moves StaysRegular (make slot shape name) := by
  apply moves_modify
  intro s
  have forgotten := staysRegular_forget s (.slot slot)
  cases shape with
  | packet => exact trans_of StaysRegular forgotten (staysRegular_of_properties rfl)
  | property content =>
      exact trans_of StaysRegular forgotten (staysRegular_putRoot (r := .slot slot)
        (s := { s.forget (.slot slot) with slots := s.slots.put slot (.property content) }))

theorem staysRegular_copy (h : Handle) (slot : String) : Moves StaysRegular (copy h slot) := by
  apply moves_modify
  intro s regular b
  have split := Table.get?_append (s.copies h slot) (s.forget (.slot slot)).properties b
  have found : propertyAt (behind (copy h slot) s) b =
      (((s.copies h slot).get? b).or ((s.forget (.slot slot)).properties.get? b)).getD
        { name := b.path.getLast?.getD "" } := congrArg (Option.getD · _) split
  change (propertyAt (behind (copy h slot) s) b).BelongsTo b
  rw [found]
  cases kept : (s.copies h slot).get? b with
  | none => exact staysRegular_forget s (.slot slot) regular b
  | some p => exact (isRegular_copies regular (Table.mem_of_get? kept)).2.2

/-! ## Commands -/

theorem staysRegular_doing {op : SessionM Unit} (moves : Moves StaysRegular op) :
    Moves StaysRegular (doing op) := moves.bind fun _ => moves_pure _

theorem staysRegular_look (f : Session → Reply) : Moves StaysRegular (look f) :=
  Moves.look fun _ => moves_pure _

theorem staysRegular_onDocument {c : DocumentCommand} (d : Document) :
    Moves StaysRegular (onDocument d c) := by
  have counts (d : Document) : Moves StaysRegular
      (modify fun s => { s with document := some d } : SessionM PUnit) :=
    moves_modify fun s => staysRegular_of_properties rfl
  have opens : Moves StaysRegular (openPacket d) := (staysRegular_start _).bind fun _ => counts _
  cases c with
  | openPacket => exact staysRegular_doing opens
  | writeDocumentPacket name =>
      have whole : Moves StaysRegular (do
          openPacket d
          closing documentPacket <| onPacket .document do
            Packet.writeId "document"
            Packet.writeName name
            Packet.writeVersion Document.version) :=
        opens.bind fun _ => moves_closing (staysRegular_finish _) (staysRegular_onPacket _)
      exact staysRegular_doing (.ite ((moves_refuse _).bind fun _ => whole) whole)
  | packetCount => exact moves_pure _
  | finish =>
      refine staysRegular_doing (Moves.bind (moves_modify fun s => ?_) fun _ =>
        staysRegular_onStream _)
      exact staysRegular_of_properties rfl

theorem staysRegular_onWriter {c : WriterCommand} (h : Handle) :
    Moves StaysRegular (onWriter h c) := by
  cases c with
  | start => exact staysRegular_doing (staysRegular_start h)
  | finish => exact staysRegular_doing (staysRegular_finish h)
  | release => exact staysRegular_doing (moves_release (staysRegular_finish h))
  | state => exact staysRegular_look _
  | touch => exact moves_pure _
  | copy slot => exact staysRegular_doing (staysRegular_copy h slot)

theorem staysRegular_onParent {c : ParentCommand} (called : onParent? h c = some call) :
    Moves StaysRegular call := by
  cases c with
  | startChild name =>
      obtain ⟨⟨child, content⟩, -, ⟨⟩⟩ := Option.bind_eq_some_iff.mp called
      exact staysRegular_doing (staysRegular_startChild h child)
  | writeChild name k e b =>
      obtain ⟨⟨child, content⟩, -, made⟩ := Option.bind_eq_some_iff.mp called
      obtain ⟨-, ⟨⟩⟩ := Option.ite_none_right_eq_some.mp made
      refine staysRegular_doing (staysRegular_writeChild h child ?_)
      exact Property.stays_write (Property.lasting_belongsTo _) b
  | referChild name source =>
      obtain ⟨⟨child, content⟩, -, made⟩ := Option.bind_eq_some_iff.mp called
      cases content with
      | composite => cases made
      | value k =>
          obtain rfl := Option.some.inj made
          apply staysRegular_doing
          unfold referChild
          split
          · apply staysRegular_writeChild
            exact Property.stays_write (Property.lasting_belongsTo _) _
          · exact moves_throw _
  | writeImage u resolver =>
      obtain ⟨-, made⟩ := Option.ite_none_right_eq_some.mp called
      obtain ⟨⟨child, content⟩, -, ⟨⟩⟩ := Option.bind_eq_some_iff.mp made
      refine staysRegular_doing (staysRegular_writeChild h child ?_)
      exact Property.stays_writeLiteral (Property.lasting_belongsTo _) _

theorem staysRegular_onContent {c : PropertyCommand} (content : Content) :
    Moves StaysRegular (onContent a content c) := by
  cases c with
  | interval i =>
      refine staysRegular_doing (staysRegular_onProperty ?_)
      exact Property.stays_writeInterval (Property.lasting_belongsTo _) i
  | delete delete =>
      refine staysRegular_doing (staysRegular_onProperty ?_)
      exact Property.stays_member (Property.lasting_belongsTo _) _ _
  | forceObject force =>
      refine staysRegular_doing (staysRegular_onProperty ?_)
      exact Property.stays_setForceObject (Property.lasting_belongsTo _) force
  | openScope =>
      refine staysRegular_doing (staysRegular_onProperty ?_)
      exact Property.stays_openScope (Property.lasting_belongsTo _)
  | prepareChild =>
      refine staysRegular_doing (staysRegular_onProperty ?_)
      exact Property.stays_prepareChild (Property.lasting_belongsTo _)
  | startIntervals list => exact staysRegular_doing (staysRegular_startIntervals content list)
  | describe => exact staysRegular_look _

theorem staysRegular_onIntervals {c : ListCommand} (list : String) (l : IntervalList) :
    Moves StaysRegular (onIntervals list l c) := by
  cases c with
  | start => exact staysRegular_doing (staysRegular_onList _)
  | startInterval => exact staysRegular_doing (staysRegular_startInterval list l)
  | finish => exact staysRegular_doing (Moves.look fun _ => staysRegular_onList _)
  | state => exact moves_pure _

theorem staysRegular_onOutput {c : StreamCommand} (called : s.onOutput? c = some call) :
    Moves StaysRegular call := by
  cases c with
  | startObject | endObject | startSequence | endSequence | name | value | flush | expectCanOpen =>
      obtain rfl := Option.some.inj called
      exact staysRegular_doing (staysRegular_onStream _)
  | describe | active =>
      obtain rfl := Option.some.inj called
      exact staysRegular_look _
  | endWriter | grantChild | expectActive =>
      obtain ⟨t, -, rfl⟩ := Option.map_eq_some_iff.mp called
      exact staysRegular_doing (staysRegular_onStream _)
  | beginWriter token =>
      obtain rfl := Option.some.inj called
      apply (staysRegular_onStream _).bind
      intro t
      refine Moves.bind (moves_modify fun s => ?_) fun _ => moves_pure _
      exact staysRegular_of_properties rfl

theorem staysRegular_of_operation? (called : s.operation? c = some call) :
    Moves StaysRegular call := by
  cases c with
  | document c =>
      obtain ⟨d, -, rfl⟩ := Option.map_eq_some_iff.mp called
      exact staysRegular_onDocument d
  | make slot shape name =>
      obtain rfl := Option.some.inj called
      exact staysRegular_doing (staysRegular_make slot shape name)
  | writer a c =>
      obtain ⟨h, -, ⟨⟩⟩ := Option.bind_eq_some_iff.mp called
      exact staysRegular_onWriter h
  | parent a c =>
      obtain ⟨h, -, made⟩ := Option.bind_eq_some_iff.mp called
      exact staysRegular_onParent made
  | packet a c =>
      obtain ⟨h, -, made⟩ := Option.bind_eq_some_iff.mp called
      obtain ⟨-, ⟨⟩⟩ := Option.ite_none_right_eq_some.mp made
      exact staysRegular_doing (staysRegular_onPacket _)
  | property a c =>
      obtain ⟨content, rfl⟩ := onContent_of_operation? called
      exact staysRegular_onContent content
  | value a c =>
      obtain ⟨k, op, found, rfl⟩ := valueOp?_of_operation? called
      refine staysRegular_doing (staysRegular_onProperty ?_)
      exact Property.stays_valueOp (Property.lasting_belongsTo _) found
  | list list c =>
      obtain ⟨l, -, ⟨⟩⟩ := Option.bind_eq_some_iff.mp called
      exact staysRegular_onIntervals list l
  | stream c => exact staysRegular_onOutput called

theorem IsRegular.step (regular : s.IsRegular) (c : Command) : (s.step c).2.IsRegular := by
  cases called : s.operation? c with
  | none =>
      rw [step_of_none called]
      exact regular
  | some call =>
      rw [behind_of_operation? called]
      exact staysRegular_of_operation? called s regular

theorem IsRegular.run (regular : s.IsRegular) (cs : List Command) : (s.run cs).IsRegular := by
  induction cs generalizing s with
  | nil => exact regular
  | cons c cs ih => exact ih (regular.step c)

theorem properties_of_new {document : Bool} {sink : Sink} {settings : Settings}
    (begun : new document sink settings = .ok s₀) : s₀.properties = [] := by
  cases document with
  | true =>
      simp only [new, ofDocument, if_true] at begun
      split at begun
      next => rw [← Except.ok.inj begun]
      next => cases begun
  | false => rw [← Except.ok.inj begun, ofStream]

theorem isRegular_of_new {document : Bool} {sink : Sink} {settings : Settings}
    (begun : new document sink settings = .ok s₀) : s₀.IsRegular := by
  intro a
  rw [propertyAt, properties_of_new begun]
  exact isRegular_fresh (.property a)

theorem IsRegular.role (regular : s.IsRegular) (a : Address) (name : String) :
    (s.propertyAt (a.child name)).role = .member :=
  (regular (a.child name) (by simp [Address.child])).1

end Session

end SceneStream
