import SceneStream.Proofs.Comparison.Command
import SceneStream.Proofs.Writer.Memory

/-!
# What a session remembers of closed writers

Two sessions that differ in nothing but the notes of closed properties take every command alike: with
the same outcome, up to the wording of a refusal and but for the notes themselves where a command
reports them, and with the same changes to the stream.
-/

namespace SceneStream

open Writing

/-- The outcomes tell the same, but for the wording of a refusal and for the notes of a property. -/
inductive Outcome.Resembles : Outcome → Outcome → Prop
  | refl (o : Outcome) : Outcome.Resembles o o
  | misuse (m m' : Misuse) :
    Outcome.Resembles (.refused (.invalidOperation m)) (.refused (.invalidOperation m'))
  | property {p p' : Property} (isOpen : p'.isOpen = p.isOpen) (scope : p'.scope = p.scope)
    (forceObject : p'.forceObject = p.forceObject) :
    Outcome.Resembles (.answered (.property p)) (.answered (.property p'))

/-- Whether the command comes to the same whatever is noted of closed properties. -/
def Command.forgets : Command → Bool
  | .writer _ .state | .property _ (.interval _) | .property _ .describe => false
  | .document _ | .make .. | .writer .. | .parent .. | .packet .. | .property .. | .value .. | .list ..
  | .stream _ => true

namespace Session

variable {s s' u l : Session} {a : Address} {h : Handle}

/-- The sessions are the same, but for the notes of closed properties. -/
structure Resembles (s s' : Session) : Prop where
  rest : s' = { s with properties := s'.properties }
  properties : ∀ a, (s.propertyAt a).Resembles (s'.propertyAt a)

namespace Resembles

variable (resembles : s.Resembles s')
include resembles

theorem stream : s'.stream = s.stream := by rw [resembles.rest]

theorem isOpen (h : Handle) : s'.isOpen h = s.isOpen h := by
  obtain ⟨address, shape⟩ := h
  cases shape with
  | packet =>
      rw [resembles.rest]
      rfl
  | property => exact (resembles.properties address).isOpen

theorem intervalIsOpen (list : String) (l : IntervalList) :
    s'.intervalIsOpen list l = s.intervalIsOpen list l := by
  rw [Session.intervalIsOpen, (resembles.properties _).isOpen]
  rfl

/-- A change of anything else. -/
theorem change {f : Session → Session} (kept : ∀ s, (f s).properties = s.properties)
    (apart : ∀ s properties, f { s with properties } = { f s with properties }) :
    (f s).Resembles (f s') where
  rest := by rw [resembles.rest, apart]
  properties a := by
    rw [propertyAt, propertyAt, kept, kept]
    exact resembles.properties a

theorem withStream (stream : Stream) : Resembles { s with stream } { s' with stream } :=
  resembles.change (f := fun s => { s with stream }) (fun _ => rfl) fun _ _ => rfl

theorem put {p p' : Property} (same : p.Resembles p') (a : Address) :
    Resembles { s with properties := s.properties.put a p }
      { s' with properties := s'.properties.put a p' } where
  rest := by rw [resembles.rest]
  properties b := by
    by_cases here : b = a
    · subst here
      simpa [propertyAt] using same
    · have kept (s : Session) (p : Property) :
          propertyAt { s with properties := s.properties.put a p } b = s.propertyAt b := by
        rw [propertyAt, Table.get?_put_of_ne _ _ (Ne.symm here), propertyAt]
      rw [kept, kept]
      exact resembles.properties b

theorem forget (r : Root) : (s.forget r).Resembles (s'.forget r) where
  rest := by
    rw [resembles.rest]
    rfl
  properties b := by
    rw [propertyAt, propertyAt, Session.forget, Session.forget, Table.get?_without,
      Table.get?_without]
    split
    · exact Property.IsSettled.resembles fun _ => rfl
    · exact resembles.properties b

end Resembles

end Session

namespace Comparison

open Session

variable {ω α β : Type} {a : Address} {h : Handle} {list : String} {l : IntervalList}

/-- The comparison of sessions that resemble each other. -/
def memory : Comparison Session where
  moves _ _ := True
  alike := Session.Resembles
  parted _ _ := False
  fine _ := True
  moves_refl _ := trivial
  moves_trans _ _ _ _ _ := trivial
  parted_of_moves _ _ _ _ apart _ _ := apart.elim
  fine_misuse _ := trivial

/-- What follows an answered step may rely on what the step ensures. -/
theorem follows_bind_of {x : SessionM α} {f : α → SessionM β} (first : memory.Follows x)
    (next : ∀ u a u' l', x u = .ok a u' → u'.Resembles l' → memory.Matches (f a u') (f a l')) :
    memory.Follows (x >>= f) where
  moves _ := trivial
  runs u l alike := by
    have same := (first.runs u l alike).resolve_right id
    cases run : x u <;> cases run' : x l <;> rw [run, run'] at same <;> cases same
    next a u' l' alike =>
      rw [bind_of_ok run, bind_of_ok run']
      exact .inl (next u a u' l' run alike)
    next e u' l' fine alike =>
      rw [bind_of_error run, bind_of_error run']
      exact .inl (.error fine alike)

theorem follows_change {f : Session → Session} (kept : ∀ s, (f s).properties = s.properties)
    (apart : ∀ s properties, f { s with properties } = { f s with properties }) :
    memory.Follows (modify f : SessionM PUnit) :=
  follows_modify (fun _ => trivial) fun _ _ alike => alike.change kept apart

/-- An operation of another writer, or of the stream. -/
theorem follows_apart {whole : SessionM β} (op : WriterM ω α) (own : Session → ω)
    (settle : Session → Writing ω → Session) (value : α → ω → β)
    (unfolds : ∀ s, whole s = match op ⟨s.stream, own s⟩ with
      | .ok x w => .ok (value x w.own) (settle s w)
      | .error e w => .error e (settle s w))
    (found : ∀ s properties, own { s with properties } = own s)
    (kept : ∀ s w, (settle s w).properties = s.properties)
    (apart : ∀ s properties w, settle { s with properties } w = { settle s w with properties }) :
    memory.Follows whole where
  moves _ := trivial
  runs u l alike := by
    have same_own : own l = own u := by rw [alike.rest, found]
    have settled (w : Writing ω) : (settle u w).Resembles (settle l w) := by
      refine ⟨by rw [alike.rest, apart], fun a => ?_⟩
      rw [propertyAt, propertyAt, kept, kept]
      exact alike.properties a
    left
    rw [unfolds u, unfolds l, same_own, alike.stream]
    cases op ⟨u.stream, own u⟩ with
    | ok x w => exact .ok _ (settled w)
    | error e w => exact .error trivial (settled w)

theorem memory_onStream (op : StreamM α) : memory.Follows (Session.onStream op) := by
  apply follows_apart (Writing.onStream op) (fun _ => ())
    (fun s w => { s with stream := w.stream }) fun x _ => x
  case unfolds =>
    intro s
    unfold Session.onStream Writing.onStream
    cases op s.stream <;> rfl
  all_goals intros; rfl

theorem memory_onPacket {r : Root} (op : PacketM α) : memory.Follows (onPacket r op) := by
  apply follows_apart op (fun s => s.packetAt r)
    (fun s w => { s with stream := w.stream, packets := s.packets.put r w.own }) fun x _ => x
  case unfolds =>
    intro s
    unfold onPacket
    cases op ⟨s.stream, s.packetAt r⟩ <;> rfl
  all_goals intros; rfl

theorem memory_onList (op : IntervalListM α) : memory.Follows (onList list l op) := by
  apply follows_apart op (fun _ => l)
    (fun s w => { s with stream := w.stream, lists := s.lists.put list w.own }) fun x _ => x
  case unfolds =>
    intro s
    unfold onList
    cases op ⟨s.stream, l⟩ <;> rfl
  all_goals intros; rfl

theorem memory_beside {own : ω} (op : WriterM ω Unit) : memory.Follows (beside own op) := by
  apply follows_apart op (fun _ => own) (fun s w => { s with stream := w.stream })
    fun _ own => own
  case unfolds =>
    intro s
    unfold beside
    cases op ⟨s.stream, own⟩ <;> rfl
  all_goals intros; rfl

theorem matches_onProperty {op : PropertyM α} {u l : Session} (alike : u.Resembles l)
    (same : remembering.Matches (op ⟨u.stream, u.propertyAt a⟩) (op ⟨u.stream, l.propertyAt a⟩)) :
    memory.Matches (onProperty a op u) (onProperty a op l) := by
  rw [onProperty, onProperty, alike.stream]
  cases run : op ⟨u.stream, u.propertyAt a⟩ <;> cases run' : op ⟨u.stream, l.propertyAt a⟩ <;>
    rw [run, run'] at same <;> cases same
  next x w w' alike' =>
    obtain ⟨stream, own⟩ := alike'
    simp only [stream]
    exact .ok x ((alike.withStream w.stream).put own a)
  next e w w' fine alike' =>
    obtain ⟨stream, own⟩ := alike'
    simp only [stream]
    exact .error trivial ((alike.withStream w.stream).put own a)

theorem memory_onProperty {op : PropertyM α} (follows : remembering.Follows op) :
    memory.Follows (onProperty a op) where
  moves _ := trivial
  runs u l alike := .inl (matches_onProperty alike
    ((follows.runs ⟨u.stream, u.propertyAt a⟩ ⟨u.stream, l.propertyAt a⟩
      ⟨rfl, alike.properties a⟩).resolve_right id))

/-! ## Writers of a session -/

theorem memory_start (h : Handle) : memory.Follows (start h) := by
  obtain ⟨address, shape⟩ := h
  cases shape with
  | packet => exact memory_onPacket _
  | property => exact memory_onProperty follows_start

theorem memory_finish (h : Handle) : memory.Follows (finish h) := by
  obtain ⟨address, shape⟩ := h
  cases shape with
  | packet => exact memory_onPacket _
  | property => exact memory_onProperty follows_finish

theorem memory_prepareChild (h : Handle) : memory.Follows (prepareChild h) := by
  obtain ⟨address, shape⟩ := h
  cases shape with
  | packet => exact memory_onPacket _
  | property => exact memory_onProperty follows_propertyPrepareChild

theorem composes_memory : memory.Composes where
  prepareChild := memory_prepareChild
  start := memory_start
  finish := memory_finish
  isOpen _ _ alike := alike.isOpen
  document _ := follows_change (fun _ => rfl) fun _ _ => rfl

/-- A list in place of a property is one of fresh elements, whatever was noted of the property. -/
theorem memory_startIntervals (a : Address) (content : Content) (list : String) :
    memory.Follows (startIntervals a content list) := by
  apply Follows.look
  · intro s
    have prepares : memory.Follows (onProperty a Property.prepareIntervals) :=
      memory_onProperty
        (follows_of_stays Property.asks_prepareIntervals Property.stays_prepareIntervals)
    refine follows_bind_of prepares fun u _ u' l' made alike => ?_
    -- A place for a list is made in open properties only, so that they are the same in both.
    have opened : (u'.propertyAt a).token ≠ none := by
      obtain ⟨w, prepared, rfl⟩ := ok_of_onProperty made
      have before : (u.propertyAt a).token ≠ none := by
        intro closed
        cases (Property.asks_prepareIntervals _ _ closed).symm.trans prepared
      have stays := Property.stays_prepareIntervals (Q := (·.token ≠ none)).of_ok prepared before
      simpa [propertyAt] using stays
    have same := (alike.properties a).eq_of_open opened
    rw [bind_apply, bind_apply, beside, beside, alike.stream]
    cases IntervalList.start ⟨u'.stream, .of (s.propertyAt a) content⟩ with
    | error e w => exact .error trivial (alike.withStream w.stream)
    | ok _ w =>
        have settled : Property.IsSettled { u'.propertyAt a with scope := .intervals } :=
          Property.isSettled_of_open opened
        have noted : Property.Resembles { u'.propertyAt a with scope := .intervals }
            { l'.propertyAt a with scope := .intervals } := by
          rw [same]
          exact settled.resembles
        refine .ok PUnit.unit (.change (f := fun s => { s with lists := s.lists.put list w.own })
          ?_ (fun _ => rfl) fun _ _ => rfl)
        exact ((alike.withStream w.stream).put noted a).forget (.interval list)
  · intro u l alike
    rw [IntervalList.of, IntervalList.of, (alike.properties a).renewed]

theorem memory_startInterval (list : String) (l : IntervalList) :
    memory.Follows (startInterval list l) := by
  apply Follows.look
  · intro s
    refine (memory_onList _).bind fun _ => ?_
    refine follows_bind_of (memory_beside _) fun u element u' l' made alike => ?_
    have settled : element.IsSettled := by
      rw [beside] at made
      cases run : Property.start ⟨u.stream, l.template.renewed⟩ with
      | error e w => simp [run] at made
      | ok _ w =>
          rw [run] at made
          obtain ⟨t, own⟩ := Property.own_of_start run
          obtain ⟨rfl, -⟩ := EStateM.Result.ok.inj made
          rw [own]
          exact Property.isSettled_of_open (Option.some_ne_none t)
    refine .ok PUnit.unit ?_
    have forgotten := (alike.forget (.interval list)).change
      (f := fun s => { s with lists := s.lists.put list { l with hasCurrent := true } })
      (fun _ => rfl) fun _ _ => rfl
    exact forgotten.put settled.resembles _
  · intro u l' alike
    rw [alike.intervalIsOpen]

theorem memory_finishList (list : String) (l : IntervalList) :
    memory.Follows (finishList list l) := by
  apply Follows.look
  · exact fun s => memory_onList _
  · intro u l' alike
    rw [alike.intervalIsOpen]

theorem memory_make (slot : String) (shape : Shape) (name : String) :
    memory.Follows (make slot shape name) := by
  refine follows_modify (fun _ => trivial) fun u l alike => ?_
  have forgotten := alike.forget (.slot slot)
  cases shape with
  | packet =>
      exact forgotten.change (f := fun s => { s with slots := s.slots.put slot .packet })
        (fun _ => rfl) fun _ _ => rfl
  | property content =>
      have slots := forgotten.change
        (f := fun s => { s with slots := s.slots.put slot (.property content) })
        (fun _ => rfl) fun _ _ => rfl
      exact slots.put (Property.IsSettled.resembles fun _ => rfl) _

theorem isSettled_of_copies {s : Session} {slot : String} {p : Property}
    (mem : (a, p) ∈ s.copies h slot) : p.IsSettled := by
  unfold Session.copies at mem
  split at mem
  · obtain ⟨row, -, same⟩ := List.mem_map.mp mem
    obtain ⟨-, rfl⟩ := Prod.mk.inj same
    exact Property.isSettled_renewed _
  · obtain ⟨-, rfl⟩ := Prod.mk.inj (List.mem_singleton.mp mem)
    exact Property.isSettled_renewed _

theorem memory_copy (h : Handle) (slot : String) : memory.Follows (copy h slot) := by
  refine follows_modify (fun _ => trivial) fun u l alike => ?_
  have copies : l.copies h slot = u.copies h slot := by
    unfold Session.copies
    split
    · exact List.map_congr_left fun row _ => by rw [(alike.properties _).renewed]
    · rw [(alike.properties _).renewed]
  have forgotten := alike.forget (.slot slot)
  refine ⟨?_, fun b => ?_⟩
  · rw [alike.rest]
    rfl
  · have found (s : Session) : propertyAt (behind (copy h slot) s) b =
        (((s.copies h slot).get? b).or ((s.forget (.slot slot)).properties.get? b)).getD
          { name := b.path.getLast?.getD "" } :=
      congrArg (Option.getD · _) (Table.get?_append _ _ _)
    change (propertyAt (behind (copy h slot) u) b).Resembles (propertyAt (behind (copy h slot) l) b)
    rw [found, found, copies]
    cases kept : (u.copies h slot).get? b with
    | none => exact forgotten.properties b
    | some p => exact (isSettled_of_copies (Table.mem_of_get? kept)).resembles

/-! ## Commands -/

theorem Matches.doing {op : SessionM Unit} {u l : Session} (same : memory.Matches (op u) (op l)) :
    memory.Matches (doing op u) (doing op l) := by
  rw [Session.doing, bind_apply, bind_apply]
  cases run : op u <;> cases run' : op l <;> rw [run, run'] at same <;> cases same
  next x u' l' alike => exact .ok Reply.done alike
  next e u' l' fine alike => exact .error fine alike

theorem memory_look {f : Session → Reply} (common : ∀ u l, u.Resembles l → f l = f u) :
    memory.Follows (look f) := by
  apply Follows.look
  · exact fun _ => follows_pure _
  · intro u l alike
    rw [common u l alike]

theorem memory_onDocument {c : DocumentCommand} (d : Document) :
    memory.Follows (onDocument d c) := by
  cases c with
  | openPacket => exact (composes_memory.openPacket d).doing
  | writeDocumentPacket name =>
      exact (composes_memory.writeDocumentPacket d name (memory_onPacket _)).doing
  | packetCount => exact follows_pure _
  | finish => exact ((composes_memory.document none).bind fun _ => memory_onStream _).doing

theorem memory_onParent {c : ParentCommand} {call : SessionM Reply}
    (called : onParent? h c = some call) : memory.Follows call := by
  obtain ⟨child, content, -, made⟩ := onParent?_cases called
  rcases made with rfl | ⟨k, value, op, found, rfl⟩ | ⟨e, -, rfl⟩
  · exact (composes_memory.startChild h child).doing
  · exact (composes_memory.writeChild h child
      (memory_onProperty (follows_rememberedValue found))).doing
  · exact Follows.doing (follows_throw trivial)

theorem memory_onIntervals {c : ListCommand} : memory.Follows (onIntervals list l c) := by
  cases c with
  | start => exact (memory_onList _).doing
  | startInterval => exact (memory_startInterval list l).doing
  | finish => exact (memory_finishList list l).doing
  | state => exact follows_pure _

theorem memory_onOutput {s : Session} {c : StreamCommand} {call : SessionM Reply}
    (called : s.onOutput? c = some call) : memory.Follows call := by
  cases c with
  | startObject | endObject | startSequence | endSequence | name | value | flush | expectCanOpen =>
      obtain rfl := Option.some.inj called
      exact (memory_onStream _).doing
  | endWriter | grantChild | expectActive =>
      obtain ⟨t, -, rfl⟩ := Option.map_eq_some_iff.mp called
      exact (memory_onStream _).doing
  | describe =>
      obtain rfl := Option.some.inj called
      exact memory_look fun u l alike => by rw [alike.stream]
  | active =>
      obtain rfl := Option.some.inj called
      exact memory_look fun u l alike => by rw [alike.rest]; rfl
  | beginWriter token =>
      obtain rfl := Option.some.inj called
      refine (memory_onStream _).bind fun t => Follows.bind ?_ fun _ => follows_pure _
      exact follows_change (fun _ => rfl) fun _ _ => rfl

/-- What writers say of themselves aside, a command comes to the same whatever is noted of closed
properties. -/
theorem memory_of_operation? {s : Session} {c : Command} {call : SessionM Reply}
    (called : s.operation? c = some call) (forgets : c.forgets = true) : memory.Follows call := by
  cases c with
  | document c =>
      obtain ⟨d, -, rfl⟩ := Option.map_eq_some_iff.mp called
      exact memory_onDocument d
  | make slot shape name =>
      obtain rfl := Option.some.inj called
      exact (memory_make slot shape name).doing
  | writer a c =>
      obtain ⟨h, -, ⟨⟩⟩ := Option.bind_eq_some_iff.mp called
      cases c with
      | start => exact (memory_start h).doing
      | finish => exact (memory_finish h).doing
      | release => exact (composes_memory.release h).doing
      | state => cases forgets
      | touch => exact follows_pure _
      | copy slot => exact (memory_copy h slot).doing
  | parent a c =>
      obtain ⟨h, -, made⟩ := Option.bind_eq_some_iff.mp called
      exact memory_onParent made
  | packet a c =>
      obtain ⟨h, -, made⟩ := Option.bind_eq_some_iff.mp called
      obtain ⟨-, ⟨⟩⟩ := Option.ite_none_right_eq_some.mp made
      exact (memory_onPacket _).doing
  | property a c =>
      obtain ⟨content, rfl⟩ := onContent_of_operation? called
      cases c with
      | interval | describe => cases forgets
      | delete b => exact (memory_onProperty (follows_member _ _)).doing
      | forceObject force => exact (memory_onProperty (follows_setForceObject force)).doing
      | openScope => exact (memory_onProperty follows_openScope).doing
      | prepareChild => exact (memory_onProperty follows_propertyPrepareChild).doing
      | startIntervals list => exact (memory_startIntervals a content list).doing
  | value a c =>
      obtain ⟨k, op, found, rfl⟩ := valueOp?_of_operation? called
      exact (memory_onProperty (follows_rememberedValue found)).doing
  | list list c =>
      obtain ⟨l, -, ⟨⟩⟩ := Option.bind_eq_some_iff.mp called
      exact memory_onIntervals
  | stream c => exact memory_onOutput called

end Comparison

/-- A property with members tells nothing that is noted. -/
theorem Property.Resembles.description_composite {p p' : Property} (resembles : p.Resembles p')
    (c : Composite) :
    Session.description p' (.composite c) = Session.description p (.composite c) := by
  unfold Session.description
  dsimp only
  rw [resembles.name, resembles.isOpen]

/-- An interval is refused by a closed property, for one reason or the other. -/
theorem Property.writeInterval_of_closed (i : Interval) (s : Stream) {p : Property}
    (closed : p.token = none) :
    ∃ m, writeInterval i ⟨s, p⟩ = .error (.invalidOperation m) ⟨s, p⟩ := by
  cases written : p.intervalWritten with
  | true =>
      refine ⟨.secondInterval p.name, ?_⟩
      simp [writeInterval, bind_apply, written, refuse]
  | false =>
      refine ⟨.propertyNotOpen p.name, ?_⟩
      rw [writeInterval, bind_of_ok (getOwn_apply _)]
      simp only [written, Bool.false_eq_true, if_false]
      exact bind_of_error (asks_member _ _ s p closed) _

namespace Session

variable {u l : Session} {a : Address} {c : Command} {call : SessionM Reply}

/-- What a command calls does not depend on the properties. -/
theorem operation?_properties (s : Session) (properties : Table Address Property) (c : Command) :
    { s with properties }.operation? c = s.operation? c := by
  cases c <;> rfl

/-- The command has a property with a value tell its notes. -/
def TellsNotes (s : Session) (c : Command) : Prop :=
  ∃ a k, c = .property a .describe ∧ s.handle? a = some ⟨a, .property (.value k)⟩

namespace Resembles

variable (resembles : u.Resembles l)
include resembles

theorem operation? (c : Command) : l.operation? c = u.operation? c := by
  rw [resembles.rest, operation?_properties]

theorem step_of_matches (called : u.operation? c = some call)
    (same : Comparison.memory.Matches (call u) (call l)) :
    Outcome.Resembles (u.step c).1 (l.step c).1 ∧ (u.step c).2.Resembles (l.step c).2 := by
  have called' := (resembles.operation? c).trans called
  cases run : call u <;> cases run' : call l <;> rw [run, run'] at same <;> cases same
  next reply u' l' alike =>
    rw [step_of_ok called run, step_of_ok called' run']
    exact ⟨.refl _, alike⟩
  next e u' l' fine alike =>
    rw [step_of_error called run, step_of_error called' run']
    exact ⟨.refl _, alike⟩

theorem step_interval {i : Interval} (called : u.operation? (.property a (.interval i)) = some call) :
    Outcome.Resembles (u.step (.property a (.interval i))).1 (l.step (.property a (.interval i))).1 ∧
      (u.step (.property a (.interval i))).2.Resembles (l.step (.property a (.interval i))).2 := by
  have called' := (resembles.operation? _).trans called
  have property := resembles.properties a
  obtain ⟨content, rfl⟩ := onContent_of_operation? called
  by_cases closed : (u.propertyAt a).token = none
  · obtain ⟨m, refused⟩ := Property.writeInterval_of_closed i u.stream closed
    obtain ⟨m', refused'⟩ := Property.writeInterval_of_closed i u.stream (property.token.trans closed)
    have run : onProperty a (Property.writeInterval i) u = .error (.invalidOperation m)
        { u with properties := u.properties.put a (u.propertyAt a) } := by
      rw [onProperty, refused]
    have run' : onProperty a (Property.writeInterval i) l = .error (.invalidOperation m')
        { l with stream := u.stream, properties := l.properties.put a (l.propertyAt a) } := by
      rw [onProperty, resembles.stream, refused']
    rw [step_of_error called (doing_error run), step_of_error called' (doing_error run')]
    exact ⟨.misuse m m', (resembles.withStream u.stream).put property a⟩
  · have stays := Property.stays_writeInterval Comparison.lasting_open i ⟨u.stream, u.propertyAt a⟩
    have same := Comparison.matches_of_settled (Property.isSettled_of_open (stays closed))
    have written : Comparison.memory.Matches (onProperty a (Property.writeInterval i) u)
        (onProperty a (Property.writeInterval i) l) := by
      apply Comparison.matches_onProperty resembles
      rwa [property.eq_of_open closed]
    exact resembles.step_of_matches called written.doing

/-- A writer that is asked how it stands tells nothing that is noted. -/
theorem step_state (called : u.operation? (.writer a .state) = some call) :
    Outcome.Resembles (u.step (.writer a .state)).1 (l.step (.writer a .state)).1 ∧
      (u.step (.writer a .state)).2.Resembles (l.step (.writer a .state)).2 := by
  have called' := (resembles.operation? _).trans called
  obtain ⟨h, -, ⟨⟩⟩ := Option.bind_eq_some_iff.mp called
  rw [step_of_ok called rfl, step_of_ok called' rfl]
  refine ⟨?_, resembles⟩
  obtain ⟨address, shape⟩ := h
  cases shape with
  | packet =>
      rw [resembles.rest]
      exact .refl _
  | property content =>
      have property := resembles.properties address
      exact .property property.isOpen property.scope property.forceObject

/-- A property that is described may tell what is noted, if it has values. -/
theorem step_describe (called : u.operation? (.property a .describe) = some call) :
    (¬ u.TellsNotes (.property a .describe) →
      Outcome.Resembles (u.step (.property a .describe)).1 (l.step (.property a .describe)).1) ∧
      (u.step (.property a .describe)).2.Resembles (l.step (.property a .describe)).2 := by
  have called' := (resembles.operation? _).trans called
  obtain ⟨⟨address, shape⟩, found, made⟩ := Option.bind_eq_some_iff.mp called
  obtain rfl : address = a := (place_of_handle? found).1
  cases shape with
  | packet => cases made
  | property content =>
      obtain rfl := Option.some.inj made
      have told (s : Session) : onContent address content .describe s =
          .ok (.text (description (s.propertyAt address) content)) s := rfl
      rw [step_of_ok called (told u), step_of_ok called' (told l)]
      refine ⟨fun silent => ?_, resembles⟩
      cases content with
      | value k => exact absurd ⟨address, k, rfl, found⟩ silent
      | composite c =>
          rw [(resembles.properties address).description_composite c]
          exact .refl _

theorem step (c : Command) : (¬ u.TellsNotes c → Outcome.Resembles (u.step c).1 (l.step c).1) ∧
    (u.step c).2.Resembles (l.step c).2 := by
  cases called : u.operation? c with
  | none =>
      rw [step_of_none called, step_of_none ((resembles.operation? c).trans called)]
      exact ⟨fun _ => .refl _, resembles⟩
  | some call =>
      by_cases forgets : c.forgets = true
      · have same := (Comparison.memory_of_operation? called forgets).runs u l resembles
        exact (resembles.step_of_matches called (same.resolve_right id)).imp_left fun h _ => h
      · cases c with
        | document | make | parent | packet | value | list | stream => exact absurd rfl forgets
        | writer a c =>
            cases c with
            | start | finish | release | touch | copy => exact absurd rfl forgets
            | state => exact (resembles.step_state called).imp_left fun h _ => h
        | property a c =>
            cases c with
            | delete | forceObject | openScope | prepareChild | startIntervals =>
                exact absurd rfl forgets
            | interval i => exact (resembles.step_interval called).imp_left fun h _ => h
            | describe => exact resembles.step_describe called

end Resembles

end Session

end SceneStream
