import SceneStream.Proofs.Session.Refinement

/-!
# What a refused command leaves

All checks of an operation come before its first character, so a refused command leaves the session
as it was: sink, frames, stack of writers, grant, and the state of every writer. The exception is a
value that is written to a child in one command. There the child is open before its value is checked,
and is closed again as an empty object.
-/

namespace SceneStream

/-- Whether the command holds a value, or a sample in its window, that is none of its kind. -/
def Command.HoldsDefect : Command → Prop
  | .value _ (.write _ _ b) | .parent _ (.writeChild _ _ _ b) => ¬ b.IsValid
  | .value _ (.samples k dates values) =>
    ∃ series, TimeSeries.of dates values = .ok series ∧ ∃ v ∈ series.values, k.defect? v ≠ none
  | .value _ (.window k dates values start length) =>
    ∃ series, (do (← TimeSeries.of dates values).slice start length) = .ok series ∧
      ∃ v ∈ series.values, k.defect? v ≠ none
  | _ => False

/-- Such a command is not valid. -/
theorem Command.HoldsDefect.not_isValid {c : Command} (defect : c.HoldsDefect) : ¬ c.IsValid := by
  have invalid {k : Kind} {x : Except Error (TimeSeries k.Value)}
      (defect : ∃ series, x = .ok series ∧ ∃ v ∈ series.values, k.defect? v ≠ none) :
      ¬ ∃ series, x = .ok series ∧ (Binding.samples series : Binding k).IsValid := by
    obtain ⟨series, built, v, mem, refused⟩ := defect
    rintro ⟨_, same, valid⟩
    obtain rfl := Except.ok.inj (built.symm.trans same)
    exact refused (valid v mem)
  cases c with
  | value a c =>
      cases c with
      | write => exact defect
      | samples | window => exact invalid defect
      | reference | resolved | algorithm | degree => cases defect
  | parent a c =>
      cases c with
      | writeChild => exact defect
      | startChild | referChild | writeImage => cases defect
  | document | make | writer | packet | property | list | stream => cases defect

namespace Session

variable {s s' s₀ : Session} {c : Command} {cs : List Command} {settings : Settings} {e : Error}
  {op : SessionM Unit} {reply : Reply}

/-- A command that is answered is a call, and its operation does not fail. -/
theorem run_of_answers (h : s.answers c = true) :
    ∃ call reply, s.operation? c = some call ∧ call s = .ok reply (s.step c).2 := by
  obtain ⟨reply, answered⟩ := answered_of_answers h
  cases called : s.operation? c with
  | none =>
      rw [step_of_none called] at answered
      cases answered
  | some call =>
      cases run : call s with
      | ok reply s' => exact ⟨call, reply, rfl, by rw [step_of_ok called run, run]⟩
      | error e s' =>
          rw [step_of_error called run] at answered
          cases answered

/-- A value that every property refuses is written to no child. -/
theorem writeChild_of_refuses {op : PropertyM Unit} (refuses : ∀ s p, Refuses op ⟨s, p⟩)
    (s : Session) (h child : Handle) : ∃ e s', writeChild h child op s = .error e s' := by
  rw [writeChild, bind_apply]
  cases startChild h child s with
  | error e s' => exact ⟨e, s', rfl⟩
  | ok _ s₁ =>
      obtain ⟨e, s₂, -, refused, -⟩ :=
        rejects_onProperty (refuses s₁.stream (s₁.propertyAt child.address))
      exact ⟨e, _, closing_of_error refused⟩

/-- No session answers a command with an argument that is not valid. -/
theorem isValid_of_answers (answered : s.answers c = true) : c.IsValid := by
  obtain ⟨call, reply, called, run⟩ := run_of_answers answered
  by_contra invalid
  cases c with
  | value a c =>
      obtain ⟨k, op, found, rfl⟩ := valueOp?_of_operation? called
      have refuses := (Property.adds_valueOp found s.stream (s.propertyAt a)).refuses fun legal =>
        invalid legal.1
      obtain ⟨e, s', -, refused, -⟩ := rejects_onProperty refuses
      cases refused.symm.trans (ok_of_doing run)
  | parent a c =>
      obtain ⟨h, found, made⟩ := Option.bind_eq_some_iff.mp called
      cases c with
      | startChild => exact invalid trivial
      | writeImage => exact invalid rfl
      | writeChild name k e b =>
          obtain ⟨⟨child, content⟩, -, made⟩ := Option.bind_eq_some_iff.mp made
          obtain ⟨-, ⟨⟩⟩ := Option.ite_none_right_eq_some.mp made
          have refuses (stream : Stream) (p : Property) :
              Refuses (Property.write k e b) ⟨stream, p⟩ :=
            (Property.adds_write k e b).refuses fun legal => invalid legal.2
          obtain ⟨error, s₁, refused⟩ := writeChild_of_refuses refuses s h child
          cases refused.symm.trans (ok_of_doing run)
      | referChild name source =>
          obtain ⟨⟨child, content⟩, -, made⟩ := Option.bind_eq_some_iff.mp made
          cases content with
          | composite => cases made
          | value k =>
              obtain rfl := Option.some.inj made
              have run := ok_of_doing run
              cases resolved : source.resolve with
              | ok r => exact invalid ⟨r, resolved⟩
              | error e =>
                  rw [referChild, resolved] at run
                  cases run
  | packet a c =>
      obtain ⟨h, -, made⟩ := Option.bind_eq_some_iff.mp called
      obtain ⟨-, ⟨⟩⟩ := Option.ite_none_right_eq_some.mp made
      cases c with
      | id text =>
          obtain rfl : text = "" := by simpa [Command.IsValid, PacketCommand.IsValid] using invalid
          cases ok_of_doing run
      | name | parent | version | delete | availability => exact invalid trivial
  | document | make | writer | property | list | stream => exact invalid trivial

/-- No session answers a command with a value that is none of its kind. -/
theorem answers_of_holdsDefect (s : Session) (defect : c.HoldsDefect) : s.answers c = false := by
  rw [Bool.eq_false_iff]
  exact fun answered => defect.not_isValid (isValid_of_answers answered)

/-- If the command is refused, it is a misuse or has an invalid argument, and leaves the session as
it was. Only a value that is refused to a child that was opened for it leaves something: what opening
and closing the child leave. -/
def RefusesInTime (s : Session) (c : Command) : Prop :=
  ∀ e s', s.step c = (.refused e, s') → e.isRefusal = true ∧
    (s.opensChild c = false → (s.surrender c).Agrees s') ∧
    (s.opensChild c = true → ∃ a p h child content, c = .parent a p ∧ s.handle? a = some h ∧
      member? h p.child = some (child, content) ∧ s.LeavesEmpty h child s')

/-- However a document was written to, a command is answered or refused in time, and one with a value
or a sample that is none of its kind is not answered. -/
theorem refusesInTime_run (made : ofDocument {} settings = .ok s₀)
    (writing : ∀ c ∈ cs, c.isWriting = true) (last : c.isWriting = true) :
    (s₀.run cs).RefusesInTime c ∧ (c.HoldsDefect → (s₀.run cs).answers c = false) := by
  constructor
  · intro e s' refused
    cases ((stands_ofDocument made).run writing).turnout last with
    | misdirected step =>
        rw [step] at refused
        cases refused
    | answered reply s'' step =>
        rw [step] at refused
        cases refused
    | rejected e' s'' step refusal whole agrees =>
        obtain ⟨⟨⟩, rfl⟩ := Prod.mk.inj (step.symm.trans refused)
        exact ⟨refusal, fun _ => agrees, fun opens => by simp [whole] at opens⟩
    | emptied a p h child content e' s'' command found member step refusal opens leaves =>
        obtain ⟨⟨⟩, rfl⟩ := Prod.mk.inj (step.symm.trans refused)
        exact ⟨refusal, fun whole => by simp [opens] at whole,
          fun _ => ⟨a, p, h, child, content, command, found, member, leaves⟩⟩
  · exact answers_of_holdsDefect _

/-- An open rectangle, and a height for it that is no number. -/
def openRectangle : List Command × Command :=
  let packet : Address := { root := .document }
  ([.document .openPacket, .parent packet (.startChild "rectangle")],
    .parent (packet.child "rectangle") (.writeChild "height" .number () (.literal .nan)))

theorem refusesInTime_openRectangle :
    ofDocument {} {} = .ok (newDocument {}) ∧
      (∀ c ∈ openRectangle.1, c.isWriting = true) ∧ openRectangle.2.isWriting = true ∧
      openRectangle.2.HoldsDefect ∧
      ((newDocument {}).run openRectangle.1).RefusesInTime openRectangle.2 ∧
      ((newDocument {}).run openRectangle.1).answers openRectangle.2 = false := by
  have defect : openRectangle.2.HoldsDefect := by
    intro valid
    cases valid
  have writing : ∀ c ∈ openRectangle.1, c.isWriting = true := by decide
  have last : openRectangle.2.isWriting = true := rfl
  obtain ⟨inTime, unanswered⟩ := refusesInTime_run (ofDocument_eq {}) writing last
  exact ⟨ofDocument_eq {}, writing, last, defect, inTime, unanswered defect⟩

end Session

end SceneStream
