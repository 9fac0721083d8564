import SceneStream.Proofs.Session.Completion
import SceneStream.Proofs.Session.Turn
import SceneStream.Proofs.Structure.Ending

/-!
# Closing a writer again

A writer whose closing failed for want of room is still open, but the container that it kept open is
not: it was let go of before its bracket was written. Closing the writer again lets go of the next
container, if that is of the same sort, and so on; nothing is written, and the writer stays open. A
property under its name in an object and a list that stands alone end containers of others that way;
packets, elements, and lists that stand for a property do not.
-/

namespace SceneStream

/-- The calls that complete the writer. -/
def WriterState.closing : WriterState → List Call
  | packet _ => [.endObject]
  | property p => p.scope.closing
  | list _ => [.endSequence]

/-- A writer is completed by the end of the container that it keeps open, and without one by an empty
object or by nothing. -/
theorem WriterState.closing_cases (w : WriterState) :
    (∃ b, w.standing.brackets = [b] ∧ w.closing = [b.ending]) ∨
      w.standing.brackets = [] ∧ (w.closing = [.startObject, .endObject] ∨ w.closing = []) := by
  cases w with
  | packet => exact .inl ⟨.object, rfl, rfl⟩
  | property p =>
      simp only [standing, closing, Standing.brackets]
      cases p.scope with
      | object => exact .inl ⟨.object, rfl, rfl⟩
      | unopened => exact .inr ⟨rfl, .inl rfl⟩
      | bare | intervals => exact .inr ⟨rfl, .inr rfl⟩
  | list => exact .inl ⟨.array, rfl, rfl⟩

/-- A full sink keeps a writer from being completed, if there is anything to write for that. -/
theorem WriterState.closing_of_isFull {w : WriterState} {s s' : Stream} (full : s.sink.IsFull)
    (lacks : w.closing ≠ []) : Stream.performs w.closing s ≠ .ok () s' := by
  intro run
  rcases w.closing_cases with ⟨b, -, calls⟩ | ⟨-, calls | calls⟩
  · rw [calls, Stream.performs_singleton] at run
    exact Stream.ending_of_isFull full b run
  · rw [calls, Stream.performs_cons] at run
    obtain ⟨_, s₁, begun, -⟩ := ok_of_bind run
    exact Stream.startObject_of_isFull full begun
  · exact lacks calls

theorem WriterState.fills_closing (w : WriterState) : Stream.Fills (Stream.performs w.closing) := by
  rcases w.closing_cases with ⟨b, -, calls⟩ | ⟨-, calls | calls⟩
  · rw [calls, Stream.performs_singleton]
    exact .ending b
  · rw [calls, Stream.performs_cons, Stream.performs_singleton]
    exact (Stream.Fills.beginContainer _ _).seq (.ending .object)
  · rw [calls]
    exact fun s sound => .inl ⟨s, rfl, sound⟩

namespace Part

variable {p : Part} {rest : List Part} {b : Bracket}

theorem brackets_of_scope (h : p.scope = .object) : p.brackets = [.object] := by
  cases p with
  | packet | element => rfl
  | member name body => exact congrArg Property.Scope.brackets h
  | list => cases h

theorem brackets_cases (p : Part) : (∃ b, p.brackets = [b]) ∨ p.brackets = [] := by
  rcases p with _ | ⟨_, _ | _ | _ | _⟩ | _ | _ <;> first | exact .inl ⟨_, rfl⟩ | exact .inr rfl

/-- What is open around a part in a document is of the same sort as what the part keeps open exactly for
members that hold an object, and for lists that lie in no other part. -/
theorem head_brackets_iff (chain : Chain (p :: rest)) (brackets : p.brackets = [b]) :
    (rest.flatMap Part.brackets ++ [Bracket.array]).head? = some b ↔
      (∃ name members, p = member name (.object members)) ∨
        (∃ name items, p = list name items) ∧ rest = [] := by
  obtain ⟨fits, chain⟩ := chain
  -- the part around decides, but for a property that became a list, where the one around that does
  cases p with
  | packet members =>
      obtain rfl : rest = [] := fits
      obtain rfl := List.singleton_inj.mp brackets
      simp
  | member name body =>
      obtain ⟨outer, head, scope⟩ := fits
      obtain ⟨rest', rfl⟩ : ∃ rest', rest = outer :: rest' := ⟨_, (List.cons_head?_tail head).symm⟩
      cases body with
      | object members =>
          obtain rfl := List.singleton_inj.mp brackets
          simp [brackets_of_scope scope]
      | nothing | bare | intervals => cases brackets
  | element name members =>
      obtain rfl := List.singleton_inj.mp brackets
      cases rest with
      | nil => simp
      | cons outer rest' =>
          obtain ⟨items, rfl⟩ := fits outer rfl
          simp [Part.brackets]
  | list name items =>
      obtain rfl := List.singleton_inj.mp brackets
      cases rest with
      | nil => simp
      | cons outer rest' =>
          obtain rfl := fits.2 outer rfl
          obtain ⟨outer', head, scope⟩ := chain.1
          obtain ⟨rest'', rfl⟩ : ∃ rest'', rest' = outer' :: rest'' :=
            ⟨_, (List.cons_head?_tail head).symm⟩
          have around := brackets_of_scope scope
          have behind : (member name (.intervals none)).brackets = [] := rfl
          simp [behind, around]

end Part

namespace Writing

variable {ω : Type} {s s' : Stream} {t : Token} {calls : List Call} {e : Error}

theorem closes_of_ok (own own' : ω) (active : s.active? = some t)
    (run : Stream.performs calls s = .ok () s') :
    ∃ w, (do onStream (Stream.finish (Stream.performs calls) t); setOwn own' : WriterM ω Unit)
      ⟨s, own⟩ = .ok () w := by
  have kept := (Stream.continues_performs calls).of_ok run
  have still : s'.active? = some t := by rwa [Stream.active?, kept.writers]
  have closed : Stream.finish (Stream.performs calls) t s = .ok () s'.closed := by
    rw [Stream.finish, bind_of_ok (Stream.expectActive_ok active), bind_of_ok run,
      Stream.endWriter_ok still]
  exact ⟨⟨s'.closed, own'⟩, by rw [bind_apply, onStream, closed]; rfl⟩

theorem closes_of_error (own own' : ω) (active : s.active? = some t)
    (run : Stream.performs calls s = .error e s') :
    (do onStream (Stream.finish (Stream.performs calls) t); setOwn own' : WriterM ω Unit)
      ⟨s, own⟩ = .error e ⟨s', own⟩ := by
  have failed : Stream.finish (Stream.performs calls) t s = .error e s' := by
    rw [Stream.finish, bind_of_ok (Stream.expectActive_ok active), bind_of_error run]
  rw [bind_apply, onStream, failed]

end Writing

namespace Session

variable {s s' s₀ : Session} {q : Place} {e : Error} {o : Outline} {rest : List Opening} {t : Token}
  {st : Standing}

/-- Nothing but what is missing of its text keeps the writer at a place from being closed. -/
structure MayClose (s : Session) (q : Place) : Prop where
  found : s.Finds q
  turn : s.HasTurn q
  settled : ∀ list l, q = .list list → s.lists.get? list = some l → s.intervalIsOpen list l = false

theorem writerOf?_closingOf (found : s.Finds q) : s.writerOf? (closingOf q) = some q := by
  cases q with
  | packet r => exact congrArg some (place_of_handle? found).2.symm
  | property a =>
      obtain ⟨content, found⟩ := found
      exact congrArg some (place_of_handle? found).2.symm
  | list name => rfl

/-- A closing that fails for want of room was not refused, so the writer may be closed. -/
theorem mayClose_of_failure (found : s.Finds q) (refusal : e.isRefusal = false)
    (failed : s.step (closingOf q) = (.refused e, s')) : s.MayClose q where
  found := found
  turn := by
    by_contra away
    rcases declines_of_away (writerOf?_closingOf found) away with
      nothing | ⟨e', s₁, refused, -, kind⟩
    · cases failed.symm.trans nothing
    · obtain rfl := Outcome.refused.inj (Prod.mk.inj (failed.symm.trans refused)).1
      rcases kind with ⟨m, rfl⟩ | ⟨-, d, rfl⟩ <;> cases refusal
  settled := by
    rintro list l rfl kept
    rw [Bool.eq_false_iff]
    intro current
    have rejects : s.Rejects (finishList list l) := by
      apply rejects_onList kept
      exact IntervalList.refuses_finish (.inl current)
    obtain ⟨e', s₁, refused, run, -⟩ := rejects
    rw [step_of_error (operation?_closeList kept) (doing_error run)] at failed
    obtain rfl := Outcome.refused.inj (Prod.mk.inj failed).1
    cases refusal.symm.trans refused

/-- A closing that comes to what the calls come to is answered or refused as they are. -/
theorem step_of_closing {c : Command} {op : SessionM Unit} {calls : List Call}
    (called : s.operation? c = some (doing op))
    (closes : ∀ stream, Stream.performs calls s.stream = .ok () stream → ∃ s', op s = .ok () s')
    (fails : ∀ e stream, Stream.performs calls s.stream = .error e stream →
      ∃ s', op s = .error e s' ∧ Agrees { s with stream } s') :
    (∃ stream, Stream.performs calls s.stream = .ok () stream ∧
        ∃ s', s.step c = (.answered .done, s')) ∨
      ∃ e stream, Stream.performs calls s.stream = .error e stream ∧
        ∃ s', s.step c = (.refused e, s') ∧ Agrees { s with stream } s' := by
  cases run : Stream.performs calls s.stream with
  | ok _ stream =>
      obtain ⟨s', closed⟩ := closes stream run
      exact .inl ⟨stream, rfl, s', step_of_ok called (doing_ok closed)⟩
  | error e stream =>
      obtain ⟨s', failed, agrees⟩ := fails e stream run
      exact .inr ⟨e, stream, rfl, s', step_of_error called (doing_error failed), agrees⟩

/-- Where a writer may be closed, its closing fails exactly where what completes it does, and with the
same error; then nothing but the stream is changed. -/
theorem MayClose.step (may : s.MayClose q) :
    (∃ stream, Stream.performs (s.stateAt q).closing s.stream = .ok () stream ∧
        ∃ s', s.step (closingOf q) = (.answered .done, s')) ∨
      ∃ e stream, Stream.performs (s.stateAt q).closing s.stream = .error e stream ∧
        ∃ s', s.step (closingOf q) = (.refused e, s') ∧ Agrees { s with stream } s' := by
  obtain ⟨found, ⟨t, token, active⟩, settled⟩ := may
  cases q with
  | packet r =>
      have closes := Packet.finish_apply (s := s.stream) token
      rw [← Stream.performs_singleton] at closes
      apply step_of_closing (operation?_closeWriter found)
      · intro stream run
        obtain ⟨w, done⟩ := Writing.closes_of_ok (s.packetAt r) {} active run
        exact ⟨_, onPacket_eq (closes.trans done)⟩
      · intro e stream run
        have failed := Writing.closes_of_error (s.packetAt r) {} active run
        exact ⟨_, onPacket_error (closes.trans failed),
          (put_packet s r stream (s.packetAt r)).agrees⟩
  | property a =>
      obtain ⟨content, found⟩ := found
      let closed : Property := { s.propertyAt a with token := none, scope := .unopened }
      have closes := Property.finish_apply (s := s.stream) token
      rw [Property.complete_eq_performs] at closes
      apply step_of_closing (operation?_closeWriter found)
      · intro stream run
        obtain ⟨w, done⟩ := Writing.closes_of_ok (s.propertyAt a) closed active run
        exact ⟨_, onProperty_eq (closes.trans done)⟩
      · intro e stream run
        have failed := Writing.closes_of_error (s.propertyAt a) closed active run
        exact ⟨_, onProperty_error (closes.trans failed),
          (put_property s a stream (s.propertyAt a)).agrees⟩
  | list name =>
      obtain ⟨l, kept⟩ := found
      rw [token?_list kept] at token
      let closed : IntervalList := { l with token := none, hasCurrent := false }
      have finishing : finishList name l s = onList name l (IntervalList.finish false) s := by
        change onList name l (IntervalList.finish (s.intervalIsOpen name l)) s = _
        rw [settled name l rfl kept]
      have closes := IntervalList.finish_apply token active
      rw [← Stream.performs_singleton] at closes
      apply step_of_closing (operation?_closeList kept)
      · intro stream run
        obtain ⟨w, done⟩ := Writing.closes_of_ok l closed active run
        obtain ⟨s', answered, -⟩ := onList_ok name (closes.trans done)
        exact ⟨s', finishing.trans answered⟩
      · intro e stream run
        have failed := Writing.closes_of_error l closed active run
        have refused : onList name l (IntervalList.finish false) s =
            .error e { s with stream, lists := s.lists.put name l } := by
          rw [onList, closes.trans failed]
        have put := put_list s name stream l
        rw [← kept] at put
        exact ⟨_, finishing.trans refused, put.agrees⟩

theorem Finds.congr (found : s.Finds q) (agrees : Agrees { s with stream := s'.stream } s') :
    s'.Finds q := by
  have lists (name : String) : s'.lists.get? name = s.lists.get? name :=
    WriterState.list.inj (agrees.states (.list name))
  have same (a : Address) : s'.handle? a = s.handle? a := by
    have shape : s'.shapeAt? a.root = s.shapeAt? a.root :=
      shapeAt?_congr agrees.document agrees.slots fun list _ => lists list
    rw [handle?, handle?, shape]
  cases q with
  | packet r => rwa [Finds, same]
  | property a => rwa [Finds, same]
  | list name => rwa [Finds, lists]

/-- Only calls of the stream came between, so the writer may be closed as before. -/
theorem MayClose.congr (may : s.MayClose q) (agrees : Agrees { s with stream := s'.stream } s')
    (kept : s.stream.Continues s'.stream) : s'.MayClose q where
  found := may.found.congr agrees
  turn := by
    obtain ⟨t, token, active⟩ := may.turn
    refine ⟨t, ?_, ?_⟩
    · rw [agrees.states q]
      exact token
    · rwa [Stream.active?, kept.writers]
  settled list l here keeps := by
    have lists : s'.lists.get? list = s.lists.get? list :=
      WriterState.list.inj (agrees.states (.list list))
    have settled := may.settled list l here (lists ▸ keeps)
    rwa [intervalIsOpen, agrees.propertyAt]

/-! ## Again and again -/

/-- The session after so many attempts to close the writer at a place. -/
def retried (s : Session) (q : Place) (n : Nat) : Session := s.run (List.replicate n (closingOf q))

theorem retried_succ (s : Session) (q : Place) (n : Nat) :
    s.retried q (n + 1) = ((s.retried q n).step (closingOf q)).2 := by
  rw [retried, List.replicate_succ', run, List.foldl_append]
  rfl

/-- What comes of closing a writer again and again, once its closing has failed for want of room. -/
structure FailsAgain (s : Session) (q : Place) : Prop where
  /-- It is never closed. -/
  refused : ∀ n, ∃ e, ((s.retried q n).step (closingOf q)).1 = .refused e
  /-- All writers stay as they are, and whose turn it is. -/
  agrees : ∀ n, Agrees { s with stream := (s.retried q n).stream } (s.retried q n)
  continues : ∀ n, s.stream.Continues (s.retried q n).stream
  /-- Nothing is written any more. -/
  bytes : ∀ n, (s.retried q (n + 1)).stream.sink.bytes = (s.retried q 1).stream.sink.bytes
  /-- Each attempt ends the container that is innermost then, if that is of the writer's sort. -/
  ends : ∀ b, (s.stateAt q).standing.brackets = [b] →
    (∃ f rest, s.stream.frames = f :: rest ∧ b.Ends f = true) ∧
      ∀ n, (s.retried q n).stream.frames = b.leave^[n] s.stream.frames
  /-- A property with nothing written leaves no containers and ends none. -/
  keeps : (s.stateAt q).standing.brackets = [] →
    ∀ n, s.stream.KeepsBrackets (s.retried q n).stream

/-- An attempt to close the writer at a place: what completes the writer failed, nothing but the stream
is changed, and its sink is full. -/
structure Attempts (s : Session) (q : Place) (s' : Session) : Prop where
  fails : ∃ e, s.step (closingOf q) = (.refused e, s') ∧
    Stream.performs (s.stateAt q).closing s.stream = .error e s'.stream
  agrees : Agrees { s with stream := s'.stream } s'
  full : s'.stream.sink.IsFull

theorem Attempts.continues (attempts : s.Attempts q s') : s.stream.Continues s'.stream := by
  obtain ⟨e, -, run⟩ := attempts.fails
  have kept := Stream.continues_performs (s.stateAt q).closing s.stream
  rwa [behind_of_error run] at kept

/-- A closing that fails for want of room. -/
theorem attempts_of_failure (sound : s.stream.sink.IsSound) (found : s.Finds q)
    (refusal : e.isRefusal = false) (failed : s.step (closingOf q) = (.refused e, s')) :
    s.Attempts q s' := by
  rcases (mayClose_of_failure found refusal failed).step with
    ⟨stream, -, s₁, answered⟩ | ⟨e', stream, run, s₁, step, agrees⟩
  · cases failed.symm.trans answered
  · obtain ⟨same, rfl⟩ := Prod.mk.inj (failed.symm.trans step)
    obtain rfl := Outcome.refused.inj same
    obtain rfl := agrees.stream
    exact ⟨⟨e, step, run⟩, agrees, (s.stateAt q).fills_closing.isFull sound run refusal⟩

/-- A sink that is full stays full, whatever is called. -/
theorem isFull_step (full : s.stream.sink.IsFull) (c : Command) :
    (s.step c).2.stream.sink.IsFull :=
  full.grows ((Truncation.absorbs 0).covers.moves_step (Truncation.permits 0 c) s full.sound)

/-- The next attempt on a full sink fails too. -/
theorem MayClose.attempts (may : s.MayClose q) (full : s.stream.sink.IsFull)
    (lacks : (s.stateAt q).closing ≠ []) : s.Attempts q (s.step (closingOf q)).2 := by
  rcases may.step with ⟨stream, run, -⟩ | ⟨e, stream, run, s', step, agrees⟩
  · exact absurd run (WriterState.closing_of_isFull full lacks)
  · obtain rfl := agrees.stream
    have still := isFull_step full (closingOf q)
    rw [step] at still ⊢
    exact ⟨⟨e, step, run⟩, agrees, still⟩

/-- One attempt after the other. -/
theorem attempts_retried (sound : s.stream.sink.IsSound) (found : s.Finds q)
    (refusal : e.isRefusal = false) (failed : s.step (closingOf q) = (.refused e, s')) (n : Nat) :
    (s.retried q n).Attempts q (s.retried q (n + 1)) ∧
      Agrees { s with stream := (s.retried q n).stream } (s.retried q n) ∧
      s.stream.Continues (s.retried q n).stream := by
  have may := mayClose_of_failure found refusal failed
  have first := attempts_of_failure sound found refusal failed
  have lacks : (s.stateAt q).closing ≠ [] := by
    obtain ⟨e', -, run⟩ := first.fails
    intro none
    rw [none] at run
    cases run
  induction n with
  | zero =>
      refine ⟨?_, Agrees.refl s, refl _⟩
      rw [retried_succ]
      exact (congrArg Prod.snd failed) ▸ first
  | succ n ih =>
      obtain ⟨attempts, agrees, continues⟩ := ih
      have agrees' : Agrees { s with stream := (s.retried q (n + 1)).stream }
          (s.retried q (n + 1)) :=
        ⟨rfl, attempts.agrees.document.trans agrees.document,
          attempts.agrees.slots.trans agrees.slots, attempts.agrees.tokens.trans agrees.tokens,
          fun r => (attempts.agrees.states r).trans (agrees.states r)⟩
      have continues' := trans_of _ continues attempts.continues
      refine ⟨?_, agrees', continues'⟩
      rw [retried_succ s q (n + 1)]
      apply (may.congr agrees' continues').attempts attempts.full
      rwa [agrees'.states q]

/-- What an attempt leaves of the containers. -/
theorem Attempts.frames (attempts : s.Attempts q s') {b : Bracket}
    (brackets : (s.stateAt q).standing.brackets = [b]) :
    s'.stream.frames = b.leave s.stream.frames := by
  obtain ⟨e, -, run⟩ := attempts.fails
  rcases (s.stateAt q).closing_cases with ⟨b', same, calls⟩ | ⟨none, -⟩
  · obtain rfl := List.singleton_inj.mp (same.symm.trans brackets)
    rw [calls, Stream.performs_singleton] at run
    rw [← Stream.frames_ending, behind_of_error run]
  · cases brackets.symm.trans none

theorem Attempts.keepsBrackets (attempts : s.Attempts q s')
    (brackets : (s.stateAt q).standing.brackets = []) : s.stream.KeepsBrackets s'.stream := by
  obtain ⟨e, -, run⟩ := attempts.fails
  rcases (s.stateAt q).closing_cases with ⟨b, same, -⟩ | ⟨-, calls | calls⟩
  · cases brackets.symm.trans same
  · rw [calls] at run
    exact Stream.keepsBrackets_of_error run
  · rw [calls] at run
    cases run

/-- However often a writer is closed after its closing failed for want of room: it stays open, nothing
is written, and each attempt takes one container that is of the writer's sort. -/
theorem failsAgain (sound : s.stream.sink.IsSound) (found : s.Finds q)
    (refusal : e.isRefusal = false) (failed : s.step (closingOf q) = (.refused e, s')) :
    s.FailsAgain q := by
  have each := attempts_retried sound found refusal failed
  have standing (n : Nat) : ((s.retried q n).stateAt q) = s.stateAt q := (each n).2.1.states q
  refine ⟨fun n => ?_, fun n => (each n).2.1, fun n => (each n).2.2, fun n => ?_,
    fun b brackets => ⟨?_, fun n => ?_⟩, fun brackets n => ?_⟩
  · obtain ⟨e', step, -⟩ := (each n).1.fails
    exact ⟨e', by rw [step]⟩
  · induction n with
    | zero => rfl
    | succ n ih =>
        have full := (each n).1.full
        have grows := (Truncation.absorbs 0).covers.moves_step (Truncation.permits 0 (closingOf q))
          (s.retried q (n + 1)) full.sound
        rw [retried_succ s q (n + 1), ← ih]
        exact Sink.eq_of_full (grows.limit.trans full.limited) grows.sound
          (by rw [Sink.length_bytes]) grows.bytes
  · obtain ⟨e', step, run⟩ := (attempts_of_failure sound found refusal failed).fails
    obtain rfl := Outcome.refused.inj (Prod.mk.inj (failed.symm.trans step)).1
    rcases (s.stateAt q).closing_cases with ⟨b', same, calls⟩ | ⟨none, -⟩
    · obtain rfl := List.singleton_inj.mp (same.symm.trans brackets)
      rw [calls, Stream.performs_singleton] at run
      exact Stream.ends_of_ending b' refusal run
    · cases brackets.symm.trans none
  · induction n with
    | zero => rfl
    | succ n ih =>
        rw [(each n).1.frames (by rwa [standing n]), ih, Function.iterate_succ_apply']
  · induction n with
    | zero => exact refl _
    | succ n ih => exact trans_of _ ih ((each n).1.keepsBrackets (by rwa [standing n]))

/-- The containers that were open around the writer at a place are open still. -/
structure Spares (s : Session) (q : Place) (s' : Session) : Prop where
  depth : s.stream.depth ≤ s'.stream.depth + 1
  around : (s.stream.frames.drop (s.stateAt q).standing.brackets.length).map Frame.bracket <:+
    s'.stream.frames.map Frame.bracket

/-- No attempt does harm exactly where the container around that of the writer is of another sort, or
has a name without a value. -/
theorem FailsAgain.spares_iff (fails : s.FailsAgain q) :
    (∀ n, s.Spares q (s.retried q n)) ↔
      ∀ b ∈ (s.stateAt q).standing.brackets, ∀ f ∈ s.stream.frames.tail.head?, b.Ends f = false := by
  rcases (s.stateAt q).closing_cases with ⟨b, brackets, -⟩ | ⟨brackets, -⟩
  · obtain ⟨⟨f, rest, frames, ends⟩, each⟩ := fails.ends b brackets
    simp only [brackets, frames, List.mem_singleton, forall_eq, List.tail_cons]
    have behind_first (n : Nat) : (s.retried q (n + 1)).stream.frames = b.leave^[n] rest := by
      rw [each, frames, Function.iterate_succ_apply, Bracket.leave_cons_of_ends ends]
    constructor
    · intro spares f' head
      obtain ⟨rest', rfl⟩ : ∃ rest', rest = f' :: rest' := ⟨_, (List.cons_head?_tail head).symm⟩
      rw [Bool.eq_false_iff]
      intro ends'
      have depth := (spares 2).depth
      rw [Stream.depth, Stream.depth, behind_first, frames, Function.iterate_one,
        Bracket.leave_cons_of_ends ends', List.length_cons, List.length_cons] at depth
      omega
    · intro stuck n
      cases n with
      | zero => exact ⟨Nat.le_succ _, by rw [List.map_drop]; exact List.drop_suffix ..⟩
      | succ n =>
          have kept := (behind_first n).trans (Bracket.iterate_leave_of_stuck stuck n)
          refine ⟨?_, ?_⟩
          · rw [Stream.depth, Stream.depth, kept, frames, List.length_cons]
          · rw [brackets, kept, frames]
            exact List.suffix_rfl
  · simp only [brackets, List.not_mem_nil, false_implies, implies_true, iff_true]
    intro n
    have kept := fails.keeps brackets n
    refine ⟨?_, ?_⟩
    · have length := congrArg List.length kept
      simp only [List.length_map] at length
      rw [Stream.depth, Stream.depth, length]
      omega
    · rw [brackets, kept]
      exact List.suffix_rfl

/-! ## Writers that must not be closed again -/

/-- Whether another attempt takes a container from another writer: the writer is a property that holds
an object under its name in another one, or a list that is the only open writer. -/
def IsExposed (s : Session) (q : Place) : Prop :=
  match s.stateAt q with
  | .packet _ => False
  | .property p => p.role = .member ∧ p.scope = .object
  | .list _ => s.stream.writers.length = 1

/-- What a writer shows of its part says whether it is exposed. -/
theorem Tells.isExposed_iff_part (tells : s.Tells o (⟨t, some q, st⟩ :: rest)) {p : Part}
    {parts : List Part} (parts_eq : o.parts = p :: parts) :
    s.IsExposed q ↔ (∃ name members, p = .member name (.object members)) ∨
      (∃ name items, p = .list name items) ∧ parts = [] := by
  obtain ⟨-, standing, -⟩ := tells.turn
  have standings := tells.standings
  rw [parts_eq, List.map_cons, List.map_cons, List.cons.injEq] at standings
  obtain ⟨shown, others⟩ := standings
  have alone : s.stream.writers.length = 1 ↔ parts = [] := by
    have length := congrArg List.length others
    rw [List.length_map, List.length_map] at length
    rw [tells.registers.writers, List.length_map, List.length_cons, ← List.length_eq_zero_iff, length]
    omega
  unfold IsExposed
  cases here : s.stateAt q with
  | packet =>
      obtain rfl : st = .packet := by rw [← standing, here]; rfl
      cases p <;> simp_all [Part.standing]
  | property p' =>
      obtain rfl : st = .property p'.name p'.role p'.scope := by rw [← standing, here]; rfl
      rcases p with _ | ⟨_, _ | _ | _ | _⟩ | _ | _ <;> simp_all [Part.standing, Body.scope]
  | list l =>
      obtain ⟨name, rfl⟩ : ∃ name, st = .list name := ⟨_, by rw [← standing, here]; rfl⟩
      cases p <;> simp_all [Part.standing]

/-- Of the containers in a document, the one around that of the innermost writer is of the same sort
exactly if the writer is exposed. -/
theorem Tells.isExposed_iff (tells : s.Tells o (⟨t, some q, st⟩ :: rest)) (document : o.alone = false) :
    s.IsExposed q ↔
      ∃ b ∈ (s.stateAt q).standing.brackets, ∃ f ∈ s.stream.frames.tail.head?, b.Ends f = true := by
  obtain ⟨-, standing, -⟩ := tells.turn
  obtain ⟨p, parts, parts_eq, shown, -⟩ := tells.top
  have unfinished := tells.sound.unfinished parts_eq
  have brackets := tells.sound.brackets_draft unfinished
  rw [Draft.brackets, ← tells.shows.frames, parts_eq, List.flatMap_cons, Outline.base, document,
    List.append_assoc, if_neg Bool.false_ne_true] at brackets
  have settled : ∀ f ∈ s.stream.frames.tail, f.isPending = false := by
    rw [tells.shows.frames]
    exact fun f => Draft.isPending_of_mem_tail
  have chain := tells.sound.chain
  rw [parts_eq] at chain
  rw [tells.isExposed_iff_part parts_eq, standing, ← show p.standing = st from shown,
    brackets_standing]
  rcases p.brackets_cases with ⟨b, own⟩ | none
  · have tail : s.stream.frames.tail.map Frame.bracket =
        parts.flatMap Part.brackets ++ [Bracket.array] := by
      rw [List.map_tail, brackets, own]
      rfl
    rw [← Part.head_brackets_iff chain own, ← tail, own, List.head?_map]
    simp only [List.mem_singleton, exists_eq_left, Option.map_eq_some_iff]
    constructor
    · rintro ⟨f, head, rfl⟩
      have := settled f (List.mem_of_mem_head? head)
      exact ⟨f, head, by simp [Bracket.Ends, this]⟩
    · rintro ⟨f, head, ends⟩
      simp only [Bracket.Ends, Bool.and_eq_true, decide_eq_true_eq] at ends
      exact ⟨f, head, ends.1⟩
  · rw [none]
    simp only [List.not_mem_nil, false_and, exists_false, iff_false, not_or, not_exists]
    refine ⟨?_, ?_⟩
    · rintro name members rfl
      cases none
    · rintro ⟨⟨name, items, rfl⟩, -⟩
      cases none

/-! ## Documents -/

/-- A document begins on a sound sink, and leaves it sound whatever is called. -/
theorem isSound_run {sink : Sink} {settings : Settings} (sound : sink.IsSound)
    (made : ofDocument sink settings = .ok s₀) (cs : List Command) :
    (s₀.run cs).stream.sink.IsSound := by
  have begun : s₀.stream.sink.IsSound := by
    rcases Stream.Fills.beginContainer "[" (.array 0) { sink, settings } sound with
      ⟨stream, begun, sound'⟩ | ⟨e, stream, failed, -⟩
    · rw [ofDocument, Stream.startSequence, begun] at made
      obtain rfl := Except.ok.inj made
      exact sound'
    · rw [ofDocument, Stream.startSequence, failed] at made
      cases made
  exact ((Truncation.absorbs 0).covers.moves_run (fun c _ => Truncation.permits 0 c) s₀ begun).sound

/-- However a document on a sink was written to, closing a writer again once its closing failed for want
of room never closes it and writes nothing, but takes containers of its sort one after the other. As long
as all text before had room, and writers alone were used, these are containers of other writers exactly
if the writer is exposed. -/
theorem failsAgain_run {sink : Sink} {settings : Settings} {cs : List Command} {f : StorageFailure}
    (sound : sink.IsSound) (made : ofDocument sink settings = .ok s₀)
    (found : (s₀.run cs).Finds q) (failed : (s₀.run cs).step (closingOf q) = (.refused (.io f), s')) :
    (s₀.run cs).FailsAgain q ∧
      ∀ room, sink = { limit := some room } → (∀ c ∈ cs, c.isWriting = true) →
        ((newDocument settings).run cs).stream.sink.size ≤ room →
          ((∀ n, (s₀.run cs).Spares q ((s₀.run cs).retried q n)) ↔ ¬ (s₀.run cs).IsExposed q) := by
  have again := failsAgain (isSound_run sound made cs) found rfl failed
  refine ⟨again, ?_⟩
  rintro room rfl writing fits
  -- while all text has room, the writers are those of the same run on a sink without a limit
  obtain ⟨u, begun, rest⟩ := truncates_new true settings room
  obtain rfl : newDocument settings = u := Except.ok.inj begun
  rcases rest with ⟨-, -, nothing⟩ | ⟨l, made', truncates⟩
  · cases made.symm.trans nothing
  obtain rfl : s₀ = l := Except.ok.inj (made.symm.trans made')
  have same := ((truncates cs).same fits).2
  obtain ⟨-, roll, tells⟩ := (stands_ofDocument (ofDocument_eq settings)).run writing
  obtain ⟨t, token, active⟩ := (mayClose_of_failure found rfl failed).turn
  rw [same] at token active
  obtain ⟨rest, rfl⟩ := tells.registers.head_of_active token active
  have exposed := tells.isExposed_iff (alone_describe _ _ _)
  rw [again.spares_iff, same]
  change _ ↔ ¬ ((newDocument settings).run cs).IsExposed q
  rw [exposed]
  simp only [not_exists, not_and, Bool.not_eq_true]
  rfl

/-- A rectangle in a packet, with a member behind which the sink has no more room. -/
def shownRectangle : List Command :=
  let packet : Address := { root := .document }
  [.document .openPacket, .parent packet (.startChild "rectangle"),
    .parent (packet.child "rectangle") (.writeChild "show" .boolean () (.literal true))]

/-- The rectangle of the packet. -/
def rectanglePlace : Place := .property { root := .document, path := ["rectangle"] }

theorem failsAgain_shownRectangle :
    let s := ((newDocument {}).limited 26).run shownRectangle
    Sink.IsSound { limit := some 26 } ∧
      ofDocument { limit := some 26 } {} = .ok ((newDocument {}).limited 26) ∧
      s.Finds rectanglePlace ∧
      s.step (closingOf rectanglePlace) =
        (.refused (.io .sinkFull), (s.step (closingOf rectanglePlace)).2) ∧
      (∀ c ∈ shownRectangle, c.isWriting = true) ∧
      ((newDocument {}).run shownRectangle).stream.sink.size ≤ 26 ∧ s.FailsAgain rectanglePlace ∧
      ((∀ n, s.Spares rectanglePlace (s.retried rectanglePlace n)) ↔
        ¬ s.IsExposed rectanglePlace) := by
  intro s
  have made : ofDocument { limit := some 26 } {} = .ok ((newDocument {}).limited 26) := rfl
  have found : s.Finds rectanglePlace := ⟨.composite .rectangle, by decide +kernel⟩
  have failed : s.step (closingOf rectanglePlace) =
      (.refused (.io .sinkFull), (s.step (closingOf rectanglePlace)).2) :=
    step_of_error? (by decide +kernel)
  have writing : ∀ c ∈ shownRectangle, c.isWriting = true := by decide
  have fits : ((newDocument {}).run shownRectangle).stream.sink.size ≤ 26 := by decide +kernel
  obtain ⟨again, exact⟩ := failsAgain_run (Sink.isSound_empty (some 26)) made found failed
  exact ⟨Sink.isSound_empty _, made, found, failed, writing, fits, again, exact 26 rfl writing fits⟩

/-- Closing the rectangle twice ends the object of the packet, which stays open. -/
theorem endsPacket_of_retried :
    let s := ((newDocument {}).limited 26).run shownRectangle
    ofDocument { limit := some 26 } {} = .ok ((newDocument {}).limited 26) ∧
      (s.step (closingOf rectanglePlace)).1.error? = some (.io .sinkFull) ∧
      s.stream.frames = [.object 1 false, .object 1 false, .array 1] ∧
      (s.retried rectanglePlace 1).stream.frames = [.object 1 false, .array 1] ∧
      (s.retried rectanglePlace 2).stream.frames = [.array 1] ∧
      (s.retried rectanglePlace 2).stream.writers = s.stream.writers ∧
      ¬ s.Spares rectanglePlace (s.retried rectanglePlace 2) := by
  refine ⟨rfl, by decide +kernel, by decide +kernel, by decide +kernel, by decide +kernel,
    by decide +kernel, ?_⟩
  intro spares
  exact absurd spares.depth (by decide +kernel)

end Session

end SceneStream
