import SceneStream.Proofs.Session.Leaving
import SceneStream.Proofs.Session.Turn

/-!
# Which commands open writers

A command opens one writer of its own choice or none: the writer it is addressed to, a child, a list, or
the next interval. Since no place for a child outlives the command that makes it, a writer is opened
only while no other is open, or by the innermost writer inside itself.
-/

namespace SceneStream.Session

variable {s : Session} {o : Outline} {roll : List Opening} {c : Command} {q outer : Place}
  {call : SessionM Reply}

/-- What a command opens, and the writer that it is opened in, if it belongs into one. -/
def opening? (s : Session) : Command → Option (Option Place × Place)
  | .document .openPacket | .document (.writeDocumentPacket _) => some (none, .packet .document)
  | .writer a .start => some (none, s.placeAt a)
  | .list list .start => some (none, .list list)
  | .parent a c => some (some (s.placeAt a), .property (a.child c.child))
  | .property a (.startIntervals list) => some (some (.property a), .list list)
  | .list list .startInterval => some (some (.list list), .property { root := .interval list })
  | .document _ | .make .. | .writer .. | .packet .. | .property .. | .value .. | .list ..
  | .stream _ => none

/-- The property that a command sets to be an object, or not to be one. -/
def sets? : Command → Option Place
  | .property a (.forceObject _) => some (.property a)
  | _ => none

theorem eq_forceObject_of_sets? (set : sets? c = some q) :
    ∃ a force, c = .property a (.forceObject force) ∧ q = .property a := by
  unfold sets? at set
  split at set
  · exact ⟨_, _, rfl, (Option.some.inj set).symm⟩
  · cases set

/-- A command leaves all writers as they are or closes them, but for its own, the one that it opens and
the one that it sets. -/
theorem leavesOrCloses_step (s : Session) (writing : c.isWriting = true) :
    LeavesOrCloses
      (fun q => s.writerOf? c = some q ∨ (∃ outer, s.opening? c = some (outer, q)) ∨
        sets? c = some q) s (s.step c).2 := by
  cases called : s.operation? c with
  | none =>
      rw [step_of_none called]
      exact refl s
  | some call =>
      rw [behind_of_operation? called]
      intro q away
      obtain ⟨foreign, unopened, unset⟩ : s.writerOf? c ≠ some q ∧
          (¬ ∃ outer, s.opening? c = some (outer, q)) ∧ sets? c ≠ some q := by
        simpa only [not_or] using away
      have untouched (away : ¬ s.touches q c) : (behind call s).stateAt q = s.stateAt q ∨
          ((behind call s).stateAt q).token? = none := by
        rw [← behind_of_operation? called]
        exact .inl ((s.touches_step c).elsewhere q away)
      -- Where a command may change another writer, it gives it up.
      cases c with
      | packet | value => exact untouched fun touched => foreign (by rw [touched]; rfl)
      | stream => exact untouched id
      | document c =>
          cases c with
          | openPacket | writeDocumentPacket =>
              exact untouched fun touched => unopened ⟨none, by rw [touched]; rfl⟩
          | packetCount | finish => exact untouched id
      | make slot shape name =>
          obtain rfl := Option.some.inj called
          exact (leavesOrCloses_make (P := fun _ => False) slot shape name).bind
            (fun _ => moves_pure _) s q id
      | writer a c =>
          obtain ⟨h, found, ⟨⟩⟩ := Option.bind_eq_some_iff.mp called
          cases c with
          | start => exact untouched fun touched => unopened ⟨none, by rw [touched]; rfl⟩
          | finish => exact untouched fun touched => foreign (by rw [touched]; rfl)
          | release =>
              exact (moves_release (leavesOrCloses_finish (P := fun _ => False))).bind
                (fun _ => moves_pure _) s q id
          | state | touch => exact untouched id
          | copy slot =>
              exact (leavesOrCloses_copy (P := fun _ => False) h slot).bind (fun _ => moves_pure _)
                s q id
      | parent a c =>
          refine untouched fun touched => ?_
          rcases touched with rfl | rfl
          · exact foreign rfl
          · exact unopened ⟨_, rfl⟩
      | property a c =>
          obtain ⟨content, rfl⟩ := onContent_of_operation? called
          cases c with
          | interval | delete | openScope =>
              exact untouched fun touched => foreign (by rw [touched]; rfl)
          | prepareChild => cases writing
          | forceObject force => exact untouched fun touched => unset (by rw [touched]; rfl)
          | describe => exact .inl rfl
          | startIntervals list =>
              have moves := leavesOrCloses_startIntervals
                (P := fun q => q = .property a ∨ q = .list list) (.inl rfl) (.inr rfl) content
              refine moves.bind (fun _ => moves_pure _) s q ?_
              rintro (rfl | rfl)
              · exact foreign rfl
              · exact unopened ⟨_, rfl⟩
      | list list c =>
          obtain ⟨l, kept, ⟨⟩⟩ := Option.bind_eq_some_iff.mp called
          cases c with
          | start => exact untouched fun touched => unopened ⟨none, by rw [touched]; rfl⟩
          | finish => exact untouched fun touched => foreign (by rw [touched]; rfl)
          | state => exact .inl rfl
          | startInterval =>
              have moves := leavesOrCloses_startInterval
                (P := fun q => q = .list list ∨ q = .property { root := .interval list })
                (.inl rfl) (.inr rfl) l
              refine moves.bind (fun _ => moves_pure _) s q ?_
              rintro (rfl | rfl)
              · exact foreign rfl
              · exact unopened ⟨_, rfl⟩

/-- How a property is set does not change anything else of it. -/
theorem propertyAt_forceObject (s : Session) (a : Address) (force : Bool) :
    (s.step (.property a (.forceObject force))).2.propertyAt a = s.propertyAt a ∨
      (s.step (.property a (.forceObject force))).2.propertyAt a =
        { s.propertyAt a with forceObject := force } := by
  cases called : s.operation? (.property a (.forceObject force)) with
  | none =>
      rw [step_of_none called]
      exact .inl rfl
  | some call =>
      obtain ⟨content, rfl⟩ := onContent_of_operation? called
      have put := put_property s a s.stream { s.propertyAt a with forceObject := force }
      rw [behind_of_operation? called]
      exact .inr (WriterState.property.inj put.here)

/-- A command opens no other writer than the one that it names, whatever becomes of it. -/
theorem closed_step (s : Session) (writing : c.isWriting = true)
    (closed : (s.stateAt q).token? = none) (away : ¬ ∃ outer, s.opening? c = some (outer, q)) :
    ((s.step c).2.stateAt q).token? = none := by
  by_cases named : s.writerOf? c = some q
  · rwa [(declines_of_away named (not_hasTurn_of_closed closed)).states]
  by_cases set : sets? c = some q
  · obtain ⟨a, force, rfl, rfl⟩ := eq_forceObject_of_sets? set
    change ((s.step (.property a (.forceObject force))).2.propertyAt a).token = none
    rcases s.propertyAt_forceObject a force with same | same <;> rw [same] <;> exact closed
  · rcases s.leavesOrCloses_step writing q (by simp [named, set, away]) with same | gone
    · rwa [same]
    · exact gone

/-! ## When a writer is opened -/

theorem answers_of_rejects (called : s.operation? c = some call) (rejects : s.Rejects call) :
    s.answers c = false := by
  obtain ⟨e, s', -, run, -⟩ := rejects
  rw [answers, step_of_error called run]

theorem rejects_start_of_crowded (crowded : ¬ s.stream.MayOpen) (h : Handle) :
    s.Rejects (start h) := by
  obtain ⟨address, shape⟩ := h
  have refuses := Stream.refuses_begin_of_crowded crowded
  cases shape with
  | packet => exact rejects_onPacket (Packet.refuses_start_of_begin (.inr (refuses _)))
  | property => exact rejects_onProperty (Property.refuses_start_of_begin (.inr (refuses _)))

/-- A writer that belongs into no other is not opened while one is open that makes no place for it. -/
theorem rejects_opening (crowded : ¬ s.stream.MayOpen) (opening : s.opening? c = some (none, q))
    (called : s.operation? c = some call) : s.Rejects call := by
  have starting := rejects_start_of_crowded crowded
  cases c with
  | document c =>
      obtain ⟨d, -, rfl⟩ := Option.map_eq_some_iff.mp called
      have opens : s.Rejects (Session.openPacket d) := (starting documentPacket).bind _
      cases c with
      | openPacket => exact opens.bind _
      | writeDocumentPacket name =>
          apply Rejects.bind
          unfold Session.writeDocumentPacket
          split
          · exact (rejects_of_refuses (refuses_refuse _ _)).bind _
          · exact opens.bind _
      | packetCount | finish => cases opening
  | writer a c =>
      obtain ⟨h, found, ⟨⟩⟩ := Option.bind_eq_some_iff.mp called
      cases c with
      | start => exact (starting h).bind _
      | finish | release | state | touch | copy => cases opening
  | list list c =>
      obtain ⟨l, kept, ⟨⟩⟩ := Option.bind_eq_some_iff.mp called
      cases c with
      | start =>
          exact (rejects_onList kept (IntervalList.refuses_start_of_begin
            (.inr (Stream.refuses_begin_of_crowded crowded _)))).bind _
      | startInterval | finish | state => cases opening
  | property a c => cases c <;> cases opening
  | make | parent | packet | value | stream => cases opening

theorem writerOf?_of_opening? (opening : s.opening? c = some (some outer, q)) :
    s.writerOf? c = some outer := by
  cases c with
  | document c => cases c <;> cases opening
  | writer a c => cases c <;> cases opening
  | parent a c =>
      cases opening
      rfl
  | property a c =>
      cases c <;> cases opening
      rfl
  | list list c =>
      cases c <;> cases opening
      rfl
  | make | packet | value | stream => cases opening

/-- Whoever opens a writer has the turn; and where nobody does, no writer is open. -/
def AllowsOpening (s : Session) (outer : Option Place) : Prop :=
  match outer with
  | some p => s.HasTurn p
  | none => s.stream.writers = []

/-- A writer is opened only where its opening is allowed, even if the command goes on to fail. -/
theorem Stands.allowsOpening {outer : Option Place} (stands : s.Stands o)
    (opening : s.opening? c = some (outer, q))
    (opens : s.answers c = true ∨ s.opensChild c = true) : s.AllowsOpening outer := by
  cases outer with
  | some p =>
      by_contra away
      have refused {c : Command} (named : s.writerOf? c = some p) : s.answers c = false :=
        (declines_of_away named away).not_answers
      rcases opens with answered | opened
      · rw [refused (writerOf?_of_opening? opening)] at answered
        cases answered
      · cases c with
        | parent a c =>
            rw [opensChild, Bool.and_eq_true] at opened
            have same : s.placeAt a = p := Option.some.inj (writerOf?_of_opening? opening)
            rw [refused (c := .parent a (.startChild c.child)) (congrArg some same)] at opened
            cases opened.2
        | document | make | writer | packet | property | value | list | stream => cases opened
  | none =>
      obtain ⟨grant, roll, tells⟩ := stands
      by_contra busy
      have crowded : ¬ s.stream.MayOpen := by
        rw [Stream.MayOpen, grant, eq_comm (a := none), or_self, Stream.active?,
          List.head?_eq_none_iff]
        exact busy
      rcases opens with answered | opened
      · cases called : s.operation? c with
        | none =>
            rw [answers, step_of_none called] at answered
            cases answered
        | some call =>
            rw [answers_of_rejects called (rejects_opening crowded opening called)] at answered
            cases answered
      · cases c with
        | parent => cases opening
        | document | make | writer | packet | property | value | list | stream => cases opened

end SceneStream.Session
