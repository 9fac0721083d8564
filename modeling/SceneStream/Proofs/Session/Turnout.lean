import SceneStream.Proofs.Session.Deeds
import SceneStream.Proofs.Session.Document
import SceneStream.Proofs.Session.Intervals

/-!
# How commands turn out

In a session that is what an outline describes, a command either is no call, or is answered and adds
its deeds to the outline, or is refused without a trace. One sort of command can be refused too late:
a value for a child that is opened in the same command leaves the child behind as an empty object.
-/

namespace SceneStream.Session

variable {s s' : Session} {o : Outline} {c : Command} {op : SessionM Unit}
  {call : SessionM Reply} {a : Address} {h child : Handle} {content : Content}

/-- The session that a command leaves at least: finishing a document takes it from the program,
whatever comes of it. -/
def surrender (s : Session) (c : Command) : Session :=
  if c.isFinish then { s with document := none } else s

/-- What becomes of a command in a session that is what the outline describes. -/
inductive Turnout (s : Session) (o : Outline) (c : Command) : Prop
  | misdirected (step : s.step c = (.misdirected, s))
  | answered (reply : Reply) (s' : Session) (step : s.step c = (.answered reply, s'))
    (stands : s'.Stands (o.afterAll (s.deeds c)))
  | rejected (e : Error) (s' : Session) (step : s.step c = (.refused e, s'))
    (refusal : e.isRefusal = true) (whole : s.opensChild c = false)
    (agrees : (s.surrender c).Agrees s')
  | emptied (a : Address) (p : ParentCommand) (h child : Handle) (content : Content) (e : Error)
    (s' : Session) (command : c = .parent a p) (found : s.handle? a = some h)
    (member : member? h p.child = some (child, content)) (step : s.step c = (.refused e, s'))
    (refusal : e.isRefusal = true) (opens : s.opensChild c = true) (leaves : s.LeavesEmpty h child s')
    (stands : s'.Stands (o.afterAll (s.remnants c)))

theorem step_of_none (found : s.operation? c = none) : s.step c = (.misdirected, s) := by
  rw [step, found]

theorem step_of_ok {reply : Reply} (found : s.operation? c = some call)
    (run : call s = .ok reply s') : s.step c = (.answered reply, s') := by
  simp only [step, found, run]

theorem step_of_error {e : Error} (found : s.operation? c = some call)
    (run : call s = .error e s') : s.step c = (.refused e, s') := by
  simp only [step, found, run]

theorem doing_ok (run : op s = .ok () s') : doing op s = .ok .done s' := bind_of_ok run _

theorem doing_error {e : Error} (run : op s = .error e s') : doing op s = .error e s' :=
  bind_of_error run _

theorem ok_of_doing {reply : Reply} (run : doing op s = .ok reply s') : op s = .ok () s' := by
  obtain ⟨_, s₁, done, same⟩ := ok_of_bind run
  obtain rfl := (EStateM.Result.ok.inj same).2
  exact done

theorem error_of_doing {e : Error} (failed : doing op s = .error e s') :
    op s = .error e s' := by
  rcases error_of_bind failed with failed | ⟨_, _, -, answered⟩
  · exact failed
  · cases answered

theorem run_of_refused {e : Error} (failed : s.step c = (.refused e, s')) :
    ∃ call, s.operation? c = some call ∧ call s = .error e s' := by
  cases called : s.operation? c with
  | none => cases (step_of_none called).symm.trans failed
  | some call =>
      refine ⟨call, rfl, ?_⟩
      cases run : call s with
      | ok reply s₁ => cases (step_of_ok called run).symm.trans failed
      | error e' s₁ =>
          obtain ⟨⟨⟩, rfl⟩ := Prod.mk.inj ((step_of_error called run).symm.trans failed)
          rfl

/-- Whether the operation does not fail. -/
def succeeds (s : Session) (op : SessionM Unit) : Bool :=
  match op s with
  | .ok .. => true
  | .error .. => false

theorem succeeds_of_ok (run : op s = .ok () s') : s.succeeds op = true := by
  rw [succeeds, run]

theorem succeeds_of_error {e : Error} (run : op s = .error e s') : s.succeeds op = false := by
  rw [succeeds, run]

theorem answers_of_doing (found : s.operation? c = some (doing op)) :
    s.answers c = s.succeeds op := by
  cases run : op s with
  | ok _ s' => rw [answers, step_of_ok found (doing_ok run), succeeds_of_ok run]
  | error e s' => rw [answers, step_of_error found (doing_error run), succeeds_of_error run]

/-- A command that answers without doing anything. -/
theorem Stands.unchanged {reply : Reply} (stands : s.Stands o)
    (found : s.operation? c = some call) (run : call s = .ok reply s) (nothing : s.deeds c = []) :
    Turnout s o c :=
  .answered reply s (step_of_ok found run) (by rwa [nothing])

/-- A command that is rejected or adds its deeds. -/
theorem turnout_of_doing (found : s.operation? c = some (doing op))
    (whole : s.opensChild c = false) (kept : s.surrender c = s)
    (turn : s.Rejects op ∨ ∃ s', op s = .ok () s' ∧ s'.Stands (o.afterAll (s.deeds c))) :
    Turnout s o c := by
  rcases turn with ⟨e, s', refusal, run, agrees⟩ | ⟨s', run, stands⟩
  · apply Turnout.rejected e s' (step_of_error found (doing_error run)) refusal whole
    rwa [kept]
  · exact .answered .done s' (step_of_ok found (doing_ok run)) stands

theorem Stands.turnout_document (stands : s.Stands o) {c : DocumentCommand}
    (called : s.operation? (.document c) = some call) : Turnout s o (.document c) := by
  obtain ⟨d, kept, rfl⟩ := Option.map_eq_some_iff.mp called
  cases c with
  | openPacket =>
      refine turnout_of_doing called rfl rfl ((stands.openPacket kept).imp_right ?_)
      rintro ⟨s', t, run, grant, told⟩
      exact ⟨s', run, grant, _, told⟩
  | writeDocumentPacket name =>
      exact turnout_of_doing called rfl rfl (stands.writeDocumentPacket kept name)
  | packetCount => exact stands.unchanged called rfl rfl
  | finish =>
      rcases stands.finishDocument with ⟨e, s', refusal, run, agrees⟩ | ⟨s', run, stands⟩
      · exact .rejected e s' (step_of_error called (doing_error run)) refusal rfl agrees
      · exact .answered .done s' (step_of_ok called (doing_ok run)) stands

/-- Closing a writer that is not open is refused. -/
theorem rejects_finish_of_closed (closed : s.isOpen h = false) : s.Rejects (finish h) := by
  apply rejects_finish
  intro t token
  rw [isOpen_eq, token] at closed
  cases closed

theorem answers_finish (found : s.handle? a = some h) :
    s.answers (.writer a .finish) = s.succeeds (finish h) := by
  apply answers_of_doing
  rw [operation?, found]
  rfl

/-- A writer that is open is closed if it can be, and nobody hears if it cannot. -/
theorem Stands.release (stands : s.Stands o) (found : s.handle? a = some h) :
    ∃ s', release h s = .ok () s' ∧
      s'.Stands (o.afterAll (if s.answers (.writer a .finish) then [.leave] else [])) := by
  rw [answers_finish found]
  cases closed : s.isOpen h with
  | false =>
      obtain ⟨e, s', -, run, -⟩ := rejects_finish_of_closed closed
      refine ⟨s, ?_, by simpa [succeeds_of_error run] using stands⟩
      simp [Session.release, bind_apply, closed]
  | true =>
      rcases stands.finish h with ⟨e, s', -, run, agrees⟩ | ⟨s', run, left⟩
      · refine ⟨s', ?_, by simpa [succeeds_of_error run] using agrees.stands stands⟩
        rw [release_of_isOpen closed, behind_of_error run]
      · refine ⟨s', ?_, by simpa [succeeds_of_ok run] using left⟩
        rw [release_of_isOpen closed, behind_of_ok run]

theorem Stands.turnout_writer (stands : s.Stands o) {c : WriterCommand}
    (called : s.operation? (.writer a c) = some call) : Turnout s o (.writer a c) := by
  obtain ⟨h, found, ⟨⟩⟩ := Option.bind_eq_some_iff.mp called
  cases c with
  | start =>
      refine turnout_of_doing called rfl rfl ((stands.start found).imp_right ?_)
      rintro ⟨s', t, run, grant, told⟩
      have entered : s.deeds (.writer a .start) = [.enter (s.partOf h)] := by
        simp [deeds, found]
      rw [entered]
      exact ⟨s', run, grant, _, told⟩
  | finish => exact turnout_of_doing called rfl rfl (stands.finish h)
  | release => exact turnout_of_doing called rfl rfl (.inr (stands.release found))
  | state | touch => exact stands.unchanged called rfl rfl
  | copy slot => exact turnout_of_doing called rfl rfl (.inr (stands.copy h slot))

/-! ## Children -/

/-- Whether a child may be opened here. -/
theorem answers_startChild (found : s.handle? a = some h) {name : String}
    (member : member? h name = some (child, content)) :
    s.answers (.parent a (.startChild name)) = s.succeeds (startChild h child) := by
  apply answers_of_doing
  rw [operation?, found, Option.bind_eq_bind, Option.bind_some, onParent?, member]
  rfl

theorem Stands.turnout_writeChild (stands : s.Stands o) {c : ParentCommand} {op : PropertyM Unit}
    {w : Settings → Bool → Write} (found : s.handle? a = some h)
    (member : member? h c.child = some (child, content))
    (called : s.operation? (.parent a c) = some (doing (writeChild h child op)))
    (writes : Property.Writes op w)
    (written : ∀ settings force, c.toWrite? settings force = some (w settings force)) :
    Turnout s o (.parent a c) := by
  obtain ⟨grant, roll, tells⟩ := stands
  have isChild := isChild_of_member? found member
  have address : child.address = a.child c.child := by
    rw [isChild.address, (place_of_handle? found).1]
  have described : s.childWrite? a c =
      some (w s.stream.settings (s.propertyAt child.address).forceObject) := by
    rw [childWrite?, written, address]
  have opens : s.opensChild (.parent a c) = s.succeeds (startChild h child) := by
    rw [opensChild, described, answers_startChild found member]
    rfl
  rcases tells.writeChild isChild writes with
    ⟨⟨e, s', refusal, run, agrees⟩, e', s'', closed⟩ | ⟨s', run, told⟩ |
      ⟨e, s', run, refusal, leaves, told⟩
  · exact .rejected e s' (step_of_error called (doing_error run)) refusal
      (opens.trans (succeeds_of_error closed)) agrees
  · apply Turnout.answered .done s' (step_of_ok called (doing_ok run))
    rw [deeds, described]
    exact told
  · obtain ⟨s₁, s₂, opened, -⟩ := id leaves
    rw [succeeds_of_ok opened] at opens
    refine .emptied a c h child content e s' rfl found member
      (step_of_error called (doing_error run)) refusal opens leaves ?_
    rw [remnants, if_pos opens]
    exact told

/-- A reference for a child is read before anything else happens. -/
theorem Stands.turnout_referChild (stands : s.Stands o) {name : String} {k : Kind}
    {source : Reference.Source} (found : s.handle? a = some h)
    (member : member? h name = some (child, content))
    (called : s.operation? (.parent a (.referChild name source)) =
      some (doing (referChild h child k source))) :
    Turnout s o (.parent a (.referChild name source)) := by
  cases resolved : source.resolve with
  | ok r =>
      have whole : referChild h child k source =
          writeChild h child (Property.write k k.standard (.reference r)) := by
        rw [referChild, resolved]
      rw [whole] at called
      refine stands.turnout_writeChild found member called (Property.writes_write k _ _) ?_
      intro settings force
      rw [ParentCommand.toWrite?, resolved]
      rfl
  | error e =>
      have refused : referChild h child k source s = .error e s := by
        rw [referChild, resolved]
        rfl
      have nothing : s.childWrite? a (.referChild name source) = none := by
        rw [childWrite?, ParentCommand.toWrite?, resolved]
      refine .rejected e s (step_of_error called (doing_error refused))
        (Reference.isRefusal_resolve resolved) ?_ (.refl s)
      rw [opensChild, nothing]
      rfl

/-- A command about a child opens it, or writes it as a whole, or holds a text that is no reference. -/
theorem onParent?_cases {c : ParentCommand} (called : onParent? h c = some call) :
    ∃ child content, member? h c.child = some (child, content) ∧
      (call = doing (startChild h child) ∨
        (∃ k value op, valueOp? k value = some op ∧ call = doing (writeChild h child op)) ∨
        ∃ e, e.isRefusal = true ∧ call = doing (throw e)) := by
  cases c with
  | startChild name =>
      obtain ⟨⟨child, content⟩, member, ⟨⟩⟩ := Option.bind_eq_some_iff.mp called
      exact ⟨child, content, member, .inl rfl⟩
  | writeChild name k e b =>
      obtain ⟨⟨child, content⟩, member, made⟩ := Option.bind_eq_some_iff.mp called
      obtain ⟨-, ⟨⟩⟩ := Option.ite_none_right_eq_some.mp made
      exact ⟨child, content, member, .inr (.inl ⟨k, .write k e b, _, if_pos rfl, rfl⟩)⟩
  | referChild name source =>
      obtain ⟨⟨child, content⟩, member, made⟩ := Option.bind_eq_some_iff.mp called
      cases content with
      | composite => cases made
      | value k =>
          obtain rfl := Option.some.inj made
          refine ⟨child, .value k, member, .inr ?_⟩
          unfold referChild
          split
          next r resolved =>
            exact .inl ⟨k, .write k k.standard (.reference r), _, if_pos rfl, rfl⟩
          next e unresolved => exact .inr ⟨e, Reference.isRefusal_resolve unresolved, rfl⟩
  | writeImage u resolver =>
      obtain ⟨-, made⟩ := Option.ite_none_right_eq_some.mp called
      obtain ⟨⟨child, content⟩, member, ⟨⟩⟩ := Option.bind_eq_some_iff.mp made
      exact ⟨child, content, member, .inr (.inl ⟨.uri, .resolved u resolver, _, rfl, rfl⟩)⟩

theorem Stands.turnout_parent (stands : s.Stands o) {c : ParentCommand}
    (called : s.operation? (.parent a c) = some call) : Turnout s o (.parent a c) := by
  obtain ⟨h, found, made⟩ := Option.bind_eq_some_iff.mp called
  cases c with
  | startChild name =>
      obtain ⟨⟨child, content⟩, member, ⟨⟩⟩ := Option.bind_eq_some_iff.mp made
      obtain ⟨grant, roll, tells⟩ := stands
      refine turnout_of_doing called rfl rfl
        ((tells.startChild (isChild_of_member? found member)).imp_right ?_)
      rintro ⟨s', run, opened⟩
      obtain ⟨t, rest, told⟩ := opened.tells
      exact ⟨s', run, opened.ungranted, _, told⟩
  | writeChild name k e b =>
      obtain ⟨⟨child, content⟩, member, made⟩ := Option.bind_eq_some_iff.mp made
      obtain ⟨-, ⟨⟩⟩ := Option.ite_none_right_eq_some.mp made
      refine stands.turnout_writeChild found member called (Property.writes_write k e b) ?_
      intro settings force
      rfl
  | referChild name source =>
      obtain ⟨⟨child, content⟩, member, made⟩ := Option.bind_eq_some_iff.mp made
      cases content with
      | value k =>
          obtain rfl := Option.some.inj made
          exact stands.turnout_referChild found member called
      | composite => cases made
  | writeImage u resolver =>
      obtain ⟨-, made⟩ := Option.ite_none_right_eq_some.mp made
      obtain ⟨⟨child, content⟩, member, ⟨⟩⟩ := Option.bind_eq_some_iff.mp made
      refine stands.turnout_writeChild found member called (Property.writes_resolved u resolver) ?_
      intro settings force
      rfl

/-! ## Single writers -/

theorem Stands.onProperty (stands : s.Stands o) (a : Address) {w : Settings → Bool → Write}
    {op : PropertyM Unit} (writes : Property.Writes op w) :
    s.Rejects (onProperty a op) ∨ ∃ s', onProperty a op s = .ok () s' ∧
      s'.Stands (o.after (.write (w s.stream.settings (s.propertyAt a).forceObject))) := by
  obtain ⟨grant, roll, tells⟩ := stands
  obtain ⟨legal, p', adds⟩ := writes s.stream (s.propertyAt a)
  by_cases ok : legal
  · obtain ⟨s', t, st, rest, run, told, kept, -⟩ := tells.onProperty adds ok
    exact .inr ⟨s', run, kept.trans grant, _, told⟩
  · exact .inl (rejects_onProperty (adds.refuses ok))

/-- How a property is set shows nowhere in the outline. -/
theorem Stands.setForceObject (stands : s.Stands o) (a : Address) (force : Bool) :
    ∃ s', Session.onProperty a (Property.setForceObject force) s = .ok () s' ∧ s'.Stands o := by
  obtain ⟨grant, roll, tells⟩ := stands
  have put := put_property s a s.stream { s.propertyAt a with forceObject := force }
  refine ⟨_, onProperty_eq rfl, grant, roll, tells.congr rfl rfl ?_ ?_⟩
  · intro q
    by_cases same : q = .property a
    · subst same
      exact (congrArg WriterState.shown? put.here).trans rfl
    · exact congrArg WriterState.shown? (put.elsewhere q same)
  · exact put.regular tells.regular (tells.regular (.property a))

/-- A property command that is a call is one for what is found at its address. -/
theorem onContent_of_operation? {c : PropertyCommand}
    (called : s.operation? (.property a c) = some call) :
    ∃ content, call = onContent a content c := by
  obtain ⟨h, -, made⟩ := Option.bind_eq_some_iff.mp called
  cases shape : h.shape with
  | packet => simp [shape] at made
  | property content => exact ⟨content, by simpa [shape] using made.symm⟩

theorem Stands.turnout_property (stands : s.Stands o) {c : PropertyCommand}
    (called : s.operation? (.property a c) = some call)
    (writing : (Command.property a c).isWriting = true) : Turnout s o (.property a c) := by
  obtain ⟨content, rfl⟩ := onContent_of_operation? called
  cases c with
  | interval i =>
      exact turnout_of_doing called rfl rfl
        (stands.onProperty a (Property.writes_writeInterval i))
  | delete delete =>
      exact turnout_of_doing called rfl rfl
        (stands.onProperty a (Property.writes_writeDelete delete))
  | openScope =>
      exact turnout_of_doing called rfl rfl (stands.onProperty a Property.writes_openScope)
  | forceObject force =>
      exact turnout_of_doing called rfl rfl (.inr (stands.setForceObject a force))
  | startIntervals list =>
      exact turnout_of_doing called rfl rfl (stands.startIntervals a content list)
  | describe => exact stands.unchanged called rfl rfl
  | prepareChild => cases writing

/-- A value command that is a call is one for the kind of the property that is found. -/
theorem handle?_of_operation? {c : ValueCommand} (called : s.operation? (.value a c) = some call) :
    ∃ h k op, s.handle? a = some h ∧ h.shape = .property (.value k) ∧ valueOp? k c = some op ∧
      call = doing (Session.onProperty a op) := by
  obtain ⟨h, handle, made⟩ := Option.bind_eq_some_iff.mp called
  rcases shape : h.shape with _ | ⟨k | _⟩ <;> simp only [shape] at made
  · cases made
  · obtain ⟨op, found, ⟨⟩⟩ := Option.bind_eq_some_iff.mp made
    exact ⟨h, k, op, handle, shape, found, rfl⟩
  · cases made

theorem valueOp?_of_operation? {c : ValueCommand}
    (called : s.operation? (.value a c) = some call) :
    ∃ k op, valueOp? k c = some op ∧ call = doing (Session.onProperty a op) := by
  obtain ⟨-, k, op, -, -, found, made⟩ := handle?_of_operation? called
  exact ⟨k, op, found, made⟩

theorem Stands.turnout_value (stands : s.Stands o) {c : ValueCommand}
    (called : s.operation? (.value a c) = some call) : Turnout s o (.value a c) := by
  obtain ⟨k, op, found, rfl⟩ := valueOp?_of_operation? called
  exact turnout_of_doing called rfl rfl (stands.onProperty a (Property.writes_valueOp found))

/-- A packet command writes its member, unless it is an identifier without characters. -/
theorem packetOp_cases (c : PacketCommand) :
    packetOp c = Packet.member c.toMember.1 c.toMember.2 ∨ ∀ w, Refuses (packetOp c) w := by
  cases c with
  | id text =>
      by_cases empty : text = ""
      · subst empty
        exact .inr fun w => ⟨.invalidArgument .emptyPacketId, rfl, rfl⟩
      · left
        simp [packetOp, Packet.writeId, empty, PacketCommand.toMember]
  | name | parent | version | delete | availability => exact .inl rfl

theorem Stands.onPacket (stands : s.Stands o) (r : Root) (c : PacketCommand) :
    s.Rejects (onPacket r (packetOp c)) ∨ ∃ s', onPacket r (packetOp c) s = .ok () s' ∧
      s'.Stands (o.after (.write (.members [(c.toMember.1, .scalar c.toMember.2)]))) := by
  rcases packetOp_cases c with same | refuses
  · rw [same]
    by_cases turn : (s.packetAt r).HasTurn s.stream
    · obtain ⟨t, token, active⟩ := id turn
      obtain ⟨grant, roll, tells⟩ := stands
      obtain ⟨rest, rfl⟩ := tells.registers.head_of_active (q := .packet r) token active
      obtain ⟨s', run, told, kept⟩ := tells.onPacket (Packet.draws_member turn _ _)
      exact .inr ⟨s', run, kept.trans grant, _, told⟩
    · exact .inl (rejects_onPacket (Packet.refuses_member turn _ _))
  · exact .inl (rejects_onPacket (refuses _))

theorem Stands.turnout_packet (stands : s.Stands o) {c : PacketCommand}
    (called : s.operation? (.packet a c) = some call) : Turnout s o (.packet a c) := by
  obtain ⟨h, -, made⟩ := Option.bind_eq_some_iff.mp called
  obtain ⟨-, ⟨⟩⟩ := Option.ite_none_right_eq_some.mp made
  exact turnout_of_doing called rfl rfl (stands.onPacket a.root c)

theorem Stands.turnout_list (stands : s.Stands o) {list : String} {c : ListCommand}
    (called : s.operation? (.list list c) = some call) : Turnout s o (.list list c) := by
  obtain ⟨l, kept, ⟨⟩⟩ := Option.bind_eq_some_iff.mp called
  cases c with
  | start =>
      have entered : s.deeds (.list list .start) = [.enter (.list l.template.name [])] := by
        simp [deeds, kept]
      apply turnout_of_doing called rfl rfl
      rw [entered]
      exact stands.startList kept
  | startInterval =>
      have entered : s.deeds (.list list .startInterval) =
          [.enter (.element l.template.name [])] := by
        simp [deeds, kept]
      apply turnout_of_doing called rfl rfl
      rw [entered]
      exact stands.startInterval kept
  | finish => exact turnout_of_doing called rfl rfl (stands.finishList kept)
  | state => exact stands.unchanged called rfl rfl

/-! ## All commands -/

/-- An operation that only looks at the stream. -/
theorem Stands.looking (stands : s.Stands o) {op : StreamM Unit} (nothing : s.deeds c = [])
    (whole : s.opensChild c = false) (kept : s.surrender c = s)
    (called : s.operation? c = some (doing (onStream op)))
    (looks : op s.stream = .ok () s.stream ∨ Refuses op s.stream) : Turnout s o c := by
  apply turnout_of_doing called whole kept
  rcases looks with run | refuses
  · refine .inr ⟨s, by rw [onStream, run], ?_⟩
    rwa [nothing]
  · exact .inl (rejects_onStream refuses)

theorem Stands.turnout_stream (stands : s.Stands o) {c : StreamCommand}
    (called : s.operation? (.stream c) = some call)
    (writing : (Command.stream c).isWriting = true) : Turnout s o (.stream c) := by
  cases c with
  | startObject | endObject | startSequence | endSequence | name | value | beginWriter | endWriter
  | grantChild => cases writing
  | flush =>
      obtain ⟨-, roll, tells⟩ := id stands
      exact stands.looking rfl rfl rfl rfl (.inl (flush_ok tells.shows))
  | describe | active => exact stands.unchanged rfl rfl rfl
  | expectActive token =>
      obtain ⟨t, kept, rfl⟩ := Option.map_eq_some_iff.mp called
      apply stands.looking rfl rfl rfl called
      by_cases active : s.stream.active? = some t
      · exact .inl (Stream.expectActive_ok active)
      · exact .inr (Stream.refuses_expectActive active)
  | expectCanOpen =>
      obtain rfl := Option.some.inj called
      apply stands.looking rfl rfl rfl called
      by_cases free : s.stream.MayOpen
      · exact .inl (Stream.expectCanOpen_ok free)
      · exact .inr (Stream.refuses_expectCanOpen free)

/-- Every operation of a writer or of the document adds its deeds, or is refused in time, or leaves
the empty object of a child. -/
theorem Stands.turnout (stands : s.Stands o) (writing : c.isWriting = true) : Turnout s o c := by
  cases called : s.operation? c with
  | none => exact .misdirected (step_of_none called)
  | some call =>
      cases c with
      | document => exact stands.turnout_document called
      | make slot shape name =>
          exact turnout_of_doing rfl rfl rfl (.inr (stands.make slot shape name))
      | writer => exact stands.turnout_writer called
      | parent => exact stands.turnout_parent called
      | packet => exact stands.turnout_packet called
      | property => exact stands.turnout_property called writing
      | value => exact stands.turnout_value called
      | list => exact stands.turnout_list called
      | stream => exact stands.turnout_stream called writing

end SceneStream.Session
