import SceneStream.Proofs.Comparison.Validity
import SceneStream.Proofs.Session.Correspondence

/-!
# Writers out of turn

Every operation of a writer asks first whether the writer has the turn: whether its opening is the
innermost one of the stream. Out of turn it is refused and changes nothing. The refusal is for the
state of the session, unless an argument was invalid whatever the state.
-/

namespace SceneStream

/-- The error that a command was refused with. -/
def Outcome.error? : Outcome → Option Error
  | refused e => some e
  | answered _ | misdirected => none

namespace Session

variable {s : Session} {c : Command} {q : Place} {a : Address} {h : Handle} {list : String}
  {l : IntervalList} {call : SessionM Reply}

/-- Whether the writer at a place is the innermost open writer of the stream. -/
def HasTurn (s : Session) (q : Place) : Prop :=
  ∃ t, (s.stateAt q).token? = some t ∧ s.stream.active? = some t

theorem not_hasTurn_of_closed (closed : (s.stateAt q).token? = none) : ¬ s.HasTurn q := by
  rintro ⟨t, token, -⟩
  cases closed.symm.trans token

theorem step_of_error? {e : Error} (h : (s.step c).1.error? = some e) :
    s.step c = (.refused e, (s.step c).2) := by
  generalize s.step c = result at h ⊢
  obtain ⟨outcome, s'⟩ := result
  cases outcome <;> cases h
  rfl

/-! ## Out of turn -/

/-- The writer that a command is an operation of, unless it opens the writer or only asks how it
stands. -/
def writerOf? (s : Session) : Command → Option Place
  | .writer a .finish => some (s.placeAt a)
  | .parent a _ => some (s.placeAt a)
  | .packet a _ => some (.packet a.root)
  | .property a c =>
    match c with
    | .interval _ | .delete _ | .openScope | .startIntervals _ => some (.property a)
    | .forceObject _ | .prepareChild | .describe => none
  | .value a _ => some (.property a)
  | .list list c =>
    match c with
    | .startInterval | .finish => some (.list list)
    | .start | .state => none
  | .document _ | .make .. | .writer .. | .stream _ => none

/-- A write of a property out of turn. -/
theorem rejects_write {op : PropertyM Unit} {w : Settings → Bool → Write}
    (writes : Property.Writes op w) (away : ¬ s.HasTurn (.property a)) :
    s.Rejects (onProperty a op) := by
  obtain ⟨legal, p', adds⟩ := writes s.stream (s.propertyAt a)
  exact rejects_onProperty (adds.refuses fun ok => away (adds.takes ok).1)

theorem rejects_prepareChild (away : ¬ s.HasTurn h.place) : s.Rejects (prepareChild h) := by
  obtain ⟨address, shape⟩ := h
  cases shape with
  | packet => exact rejects_onPacket (Packet.refuses_prepareChild away)
  | property => exact rejects_onProperty (Property.refuses_prepareChild fun takes => away takes.1)

theorem rejects_parent {c : ParentCommand} (away : ¬ s.HasTurn h.place)
    (called : onParent? h c = some call) : s.Rejects call := by
  obtain ⟨child, content, -, made⟩ := onParent?_cases called
  have opening : s.Rejects (startChild h child) := (rejects_prepareChild away).bind _
  rcases made with rfl | ⟨k, value, op, -, rfl⟩ | ⟨e, refusal, rfl⟩
  · exact opening.bind _
  · exact (opening.bind _).bind _
  · exact rejects_of_refuses (Refuses.bind ⟨e, refusal, rfl⟩ _)

theorem rejects_content {c : PropertyCommand} {content : Content}
    (named : s.writerOf? (.property a c) = some q) (away : ¬ s.HasTurn q) :
    s.Rejects (onContent a content c) := by
  cases c with
  | interval i =>
      obtain rfl := Option.some.inj named
      exact (rejects_write (Property.writes_writeInterval i) away).bind _
  | delete b =>
      obtain rfl := Option.some.inj named
      exact (rejects_write (Property.writes_writeDelete b) away).bind _
  | openScope =>
      obtain rfl := Option.some.inj named
      exact (rejects_write Property.writes_openScope away).bind _
  | startIntervals list =>
      obtain rfl := Option.some.inj named
      have prepares : s.Rejects (onProperty a Property.prepareIntervals) :=
        rejects_onProperty (Property.refuses_prepareIntervals fun legal => away legal.1)
      exact (prepares.bind _).bind _
  | forceObject | prepareChild | describe => cases named

theorem rejects_intervals {c : ListCommand} (kept : s.lists.get? list = some l)
    (named : s.writerOf? (.list list c) = some q) (away : ¬ s.HasTurn q) :
    s.Rejects (onIntervals list l c) := by
  have closed (q_eq : q = .list list) : ¬ l.HasTurn s.stream := by
    subst q_eq
    rintro ⟨t, token, active⟩
    exact away ⟨t, (token?_list kept).trans token, active⟩
  cases c with
  | startInterval =>
      have refuses : Refuses (IntervalList.prepareInterval (s.intervalIsOpen list l)) ⟨s.stream, l⟩ :=
        IntervalList.refuses_prepareInterval (.inr (closed (Option.some.inj named).symm))
      exact ((rejects_onList kept refuses).bind _).bind _
  | finish =>
      have refuses : Refuses (IntervalList.finish (s.intervalIsOpen list l)) ⟨s.stream, l⟩ :=
        IntervalList.refuses_finish (.inr (closed (Option.some.inj named).symm))
      exact (rejects_onList kept refuses).bind _
  | start | state => cases named

/-- Out of turn, every operation of a writer is refused without a trace. -/
theorem rejects_of_away (called : s.operation? c = some call) (named : s.writerOf? c = some q)
    (away : ¬ s.HasTurn q) : s.Rejects call := by
  cases c with
  | document | make | stream => cases named
  | writer a c =>
      obtain ⟨h, found, ⟨⟩⟩ := Option.bind_eq_some_iff.mp called
      cases c with
      | finish =>
          obtain rfl := Option.some.inj named
          rw [← (place_of_handle? found).2] at away
          apply Rejects.bind
          exact rejects_finish fun t token active => away ⟨t, token, active⟩
      | start | release | state | touch | copy => cases named
  | parent a c =>
      obtain ⟨h, found, made⟩ := Option.bind_eq_some_iff.mp called
      obtain rfl := Option.some.inj named
      rw [← (place_of_handle? found).2] at away
      exact rejects_parent away made
  | packet a c =>
      obtain ⟨h, -, made⟩ := Option.bind_eq_some_iff.mp called
      obtain ⟨-, ⟨⟩⟩ := Option.ite_none_right_eq_some.mp made
      obtain rfl := Option.some.inj named
      apply Rejects.bind
      apply rejects_onPacket
      rcases packetOp_cases c with same | refuses
      · rw [same]
        exact Packet.refuses_member away _ _
      · exact refuses _
  | property a c =>
      obtain ⟨content, rfl⟩ := onContent_of_operation? called
      exact rejects_content named away
  | value a c =>
      obtain ⟨k, op, found, rfl⟩ := valueOp?_of_operation? called
      obtain rfl := Option.some.inj named
      exact (rejects_write (Property.writes_valueOp found) away).bind _
  | list list c =>
      obtain ⟨l, kept, ⟨⟩⟩ := Option.bind_eq_some_iff.mp called
      exact rejects_intervals kept named away

/-- Either a command is no call, or it is refused for the state of the session or for an argument
that is invalid; nothing changes. -/
def Declines (s : Session) (c : Command) : Prop :=
  s.step c = (.misdirected, s) ∨ ∃ e s', s.step c = (.refused e, s') ∧ s.Agrees s' ∧
    ((∃ m, e = .invalidOperation m) ∨ ¬ c.IsValid ∧ ∃ d, e = .invalidArgument d)

theorem declines_of_rejects (called : s.operation? c = some call) (rejects : s.Rejects call) :
    s.Declines c := by
  obtain ⟨e, s', refusal, run, agrees⟩ := rejects
  have refused := step_of_error called run
  refine .inr ⟨e, s', refused, agrees, ?_⟩
  cases e with
  | invalidOperation m => exact .inl ⟨m, rfl⟩
  | invalidArgument d => exact .inr ⟨fun valid => refused_of_isValid valid refused d rfl, d, rfl⟩
  | io | json => cases refusal

theorem declines_of_away (named : s.writerOf? c = some q) (away : ¬ s.HasTurn q) :
    s.Declines c := by
  cases called : s.operation? c with
  | none => exact .inl (step_of_none called)
  | some call => exact declines_of_rejects called (rejects_of_away called named away)

theorem Declines.states (declines : s.Declines c) (q : Place) :
    (s.step c).2.stateAt q = s.stateAt q := by
  rcases declines with step | ⟨e, s', step, agrees, -⟩ <;> rw [step]
  exact agrees.states q

theorem Declines.not_answers (declines : s.Declines c) : s.answers c = false := by
  rcases declines with step | ⟨e, s', step, -, -⟩ <;> rw [answers, step]

/-- A writer out of turn is not closed when the program lets go of it, and nobody hears of it. -/
theorem release_of_away (away : ¬ s.HasTurn h.place) :
    ∃ s', release h s = .ok () s' ∧ s.Agrees s' := by
  cases opened : s.isOpen h with
  | false => exact ⟨s, by simp [release, bind_apply, opened], .refl s⟩
  | true =>
      obtain ⟨e, s', -, run, agrees⟩ :=
        rejects_finish (s := s) fun t token active => away ⟨t, token, active⟩
      exact ⟨s', by rw [release_of_isOpen opened, behind_of_error run], agrees⟩

end Session

end SceneStream
