import SceneStream.Proofs.Comparison.Alone
import SceneStream.Proofs.Session.Openings
import SceneStream.Proofs.Writer.Within

/-!
# Writers that may not be opened

While a writer is open and makes no place for a child, no other writer is opened on the stream, neither
directly nor through a writer that is not innermost. Nothing but the innermost writer changes that: it
makes a place, or it is closed. All other commands leave the turns as they are, whatever comes of them.
-/

namespace SceneStream

open Writing

namespace Stream

variable {s s' s'' : Stream} {t : Token}

/-- The opening is innermost, and no place is made inside it. -/
structure Bars (s : Stream) (t : Token) : Prop where
  active : s.active? = some t
  ungranted : s.grant ≠ some t

theorem Bars.crowded (bars : s.Bars t) : ¬ s.MayOpen := by
  rw [MayOpen, bars.active]
  rintro (closed | granted)
  · cases closed
  · exact bars.ungranted granted

/-- The same writers are open, and the same one has a place for a child. -/
structure SameTurns (s s' : Stream) : Prop where
  writers : s'.writers = s.writers
  grant : s'.grant = s.grant

theorem SameTurns.refl (s : Stream) : s.SameTurns s := ⟨rfl, rfl⟩

theorem SameTurns.trans (first : s.SameTurns s') (second : s'.SameTurns s'') : s.SameTurns s'' :=
  ⟨second.writers.trans first.writers, second.grant.trans first.grant⟩

theorem Continues.sameTurns (h : s.Continues s') : s.SameTurns s' := ⟨h.writers, h.grant⟩

theorem Bars.congr (bars : s.Bars t) (same : s.SameTurns s') : s'.Bars t where
  active := by rw [active?, same.writers]; exact bars.active
  ungranted := by rw [same.grant]; exact bars.ungranted

/-- The turns are the same, or the innermost writer was closed. -/
def EndsAtMost (s s' : Stream) : Prop :=
  s.SameTurns s' ∨ s'.writers = s.writers.tail ∧ s'.grant = none

theorem SameTurns.endsAtMost (same : s.SameTurns s') : s.EndsAtMost s' := .inl same

theorem EndsAtMost.after (ends : s'.EndsAtMost s'') (same : s.SameTurns s') : s.EndsAtMost s'' := by
  rcases ends with same' | ⟨writers, grant⟩
  · exact .inl (same.trans same')
  · exact .inr ⟨by rw [writers, same.writers], grant⟩

theorem behind_flush (s : Stream) : behind flush s = s := by
  unfold behind flush
  rw [bind_apply, get_apply]
  cases flushes : s.sink.flushFails <;> simp [flushes]

theorem behind_expectActive (t : Token) (s : Stream) : behind (expectActive t) s = s := by
  by_cases active : s.active? = some t
  · exact behind_of_ok (expectActive_ok active)
  · obtain ⟨e, -, refused⟩ := refuses_expectActive active
    exact behind_of_error refused

theorem endsAtMost_endWriter (t : Token) (s : Stream) : s.EndsAtMost (behind (endWriter t) s) := by
  by_cases active : s.active? = some t
  · rw [behind_of_ok (endWriter_ok active)]
    exact .inr ⟨rfl, rfl⟩
  · obtain ⟨e, -, refused⟩ : Refuses (endWriter t) s := (refuses_expectActive active).bind _
    rw [behind_of_error refused]
    exact .inl (.refl s)

/-- Whatever completes a writer, closing it changes no other turn. -/
theorem endsAtMost_finish {op : StreamM Unit} (moves : Moves Continues op) (t : Token) (s : Stream) :
    s.EndsAtMost (behind (finish op t) s) := by
  by_cases active : s.active? = some t
  · have kept := moves s
    rw [finish, behind_bind_of_ok (expectActive_ok active)]
    cases run : op s with
    | ok _ s₁ =>
        rw [behind_of_ok run] at kept
        rw [behind_bind_of_ok run]
        exact (endsAtMost_endWriter t s₁).after kept.sameTurns
    | error e s₁ =>
        rw [behind_of_error run] at kept
        rw [behind_bind_of_error run]
        exact .inl kept.sameTurns
  · obtain ⟨e, -, refused⟩ : Refuses (finish op t) s := (refuses_expectActive active).bind _
    rw [behind_of_error refused]
    exact .inl (.refl s)

/-- Writes go on with the stream. -/
theorem serves_alone : (Comparison.alone Continues).Serves where
  perform c _ := Comparison.follows_alone (continues_perform c)
  writers _ _ alike := congrArg Stream.writers alike.symm
  epochs _ _ alike := congrArg (fun s => s.settings.sampleEpoch) alike.symm

end Stream

/-! ## Closing a writer -/

theorem Writing.stream_behind_closes {ω : Type} {own own' : ω} (op : StreamM Unit) (s : Stream) :
    (behind (do onStream op; setOwn own' : WriterM ω Unit) ⟨s, own⟩).stream = behind op s := by
  have noted := Comparison.behind_onStream op (⟨s, own⟩ : Writing ω)
  cases run : onStream op (⟨s, own⟩ : Writing ω) with
  | ok _ w =>
      rw [behind_of_ok run] at noted
      rw [behind_bind_of_ok run, behind_of_ok (setOwn_apply own' w), noted]
  | error e w =>
      rw [behind_of_error run] at noted
      rw [behind_bind_of_error run, noted]

section

variable (s : Stream)

theorem Property.endsAtMost_finish (p : Property) :
    s.EndsAtMost (behind finish ⟨s, p⟩).stream := by
  cases token : p.token with
  | none =>
      obtain ⟨e, -, refused⟩ : Refuses finish ⟨s, p⟩ :=
        refuses_finish fun ⟨t, opened, _⟩ => Option.some_ne_none t (opened.symm.trans token)
      rw [behind_of_error refused]
      exact .inl (.refl s)
  | some t =>
      rw [behind, finish_apply token, ← behind, stream_behind_closes, complete_eq_performs]
      exact Stream.endsAtMost_finish (Stream.continues_performs _) t s

theorem Packet.endsAtMost_finish (p : Packet) : s.EndsAtMost (behind finish ⟨s, p⟩).stream := by
  cases token : p.token with
  | none =>
      obtain ⟨e, -, refused⟩ : Refuses finish ⟨s, p⟩ :=
        refuses_finish fun ⟨t, opened, _⟩ => Option.some_ne_none t (opened.symm.trans token)
      rw [behind_of_error refused]
      exact .inl (.refl s)
  | some t =>
      rw [behind, finish_apply token, ← behind, stream_behind_closes]
      exact Stream.endsAtMost_finish (Stream.continues_perform _) t s

theorem IntervalList.endsAtMost_finish (l : IntervalList) (current : Bool) :
    s.EndsAtMost (behind (finish current) ⟨s, l⟩).stream := by
  by_cases legal : current = true ∨ ¬ l.HasTurn s
  · obtain ⟨e, -, refused⟩ : Refuses (finish current) ⟨s, l⟩ := refuses_finish legal
    rw [behind_of_error refused]
    exact .inl (.refl s)
  · obtain ⟨settled, t, token, active⟩ : current = false ∧ l.HasTurn s := by simpa using legal
    rw [settled, behind, finish_apply token active, ← behind, stream_behind_closes]
    exact Stream.endsAtMost_finish (Stream.continues_perform _) t s

end

namespace Session

variable {s s' : Session} {c : Command} {cs : List Command} {q : Place} {a : Address} {h : Handle}
  {t : Token} {call : SessionM Reply}

theorem stream_behind_onPacket {α : Type} {r : Root} (op : PacketM α) (s : Session) :
    (behind (onPacket r op) s).stream = (behind op ⟨s.stream, s.packetAt r⟩).stream := by
  unfold behind onPacket
  cases op ⟨s.stream, s.packetAt r⟩ <;> rfl

theorem stream_behind_onProperty {α : Type} {a : Address} (op : PropertyM α) (s : Session) :
    (behind (onProperty a op) s).stream = (behind op ⟨s.stream, s.propertyAt a⟩).stream := by
  unfold behind onProperty
  cases op ⟨s.stream, s.propertyAt a⟩ <;> rfl

theorem stream_behind_onList {α : Type} {list : String} {l : IntervalList} (op : IntervalListM α)
    (s : Session) : (behind (onList list l op) s).stream = (behind op ⟨s.stream, l⟩).stream := by
  unfold behind onList
  cases op ⟨s.stream, l⟩ <;> rfl

theorem stream_behind_onStream {α : Type} (op : StreamM α) (s : Session) :
    (behind (onStream op) s).stream = behind op s.stream := by
  unfold behind onStream
  cases op s.stream <;> rfl

theorem stream_behind_doing (op : SessionM Unit) (s : Session) :
    (behind (doing op) s).stream = (behind op s).stream := by
  cases run : op s with
  | ok _ s' => rw [doing, behind_bind_of_ok run, behind_of_ok run]; rfl
  | error e s' => rw [doing, behind_bind_of_error run, behind_of_error run]

theorem Rejects.sameTurns {α : Type} {op : SessionM α} (rejects : s.Rejects op) :
    s.stream.SameTurns (behind op s).stream := by
  obtain ⟨e, s', -, run, agrees⟩ := rejects
  rw [behind_of_error run, agrees.stream]
  exact .refl _

theorem Declines.sameTurns (declines : s.Declines c) : s.stream.SameTurns (s.step c).2.stream := by
  rcases declines with step | ⟨e, s', step, agrees, -⟩
  · rw [step]
    exact .refl _
  · rw [step, agrees.stream]
    exact .refl _

theorem endsAtMost_finish (h : Handle) (s : Session) :
    s.stream.EndsAtMost (behind (finish h) s).stream := by
  unfold finish
  split
  · rw [stream_behind_onPacket]
    exact Packet.endsAtMost_finish _ _
  · rw [stream_behind_onProperty]
    exact Property.endsAtMost_finish _ _

theorem endsAtMost_release (h : Handle) (s : Session) :
    s.stream.EndsAtMost (behind (release h) s).stream := by
  by_cases isOpen : s.isOpen h = true
  · rw [behind_of_ok (release_of_isOpen isOpen)]
    exact endsAtMost_finish h s
  · have nothing : release h s = .ok () s := by simp [release, bind_apply, isOpen]
    rw [behind_of_ok nothing]
    exact .inl (.refl _)

/-- A write to a property, behind which another writer or the same one is closed. -/
theorem endsAtMost_closing {op : PropertyM Unit}
    (follows : ((Comparison.alone Stream.Continues).writing Property).Follows op) (h : Handle)
    (s : Session) : s.stream.EndsAtMost (behind (closing h (onProperty a op)) s).stream := by
  have kept : s.stream.Continues (behind op ⟨s.stream, s.propertyAt a⟩).stream :=
    follows.moves ⟨s.stream, s.propertyAt a⟩
  rw [← stream_behind_onProperty] at kept
  cases run : onProperty a op s with
  | ok _ s₁ =>
      rw [behind_of_ok run] at kept
      rw [behind, closing_of_ok run]
      exact (endsAtMost_finish h s₁).after kept.sameTurns
  | error e s₁ =>
      rw [behind_of_error run] at kept
      rw [behind_of_error (closing_of_error run)]
      exact (endsAtMost_release h s₁).after kept.sameTurns

/-! ## One command -/

/-- The opening of the writer that makes a place for a child with this command. -/
def granter? (s : Session) : Command → Option Token
  | .parent a _ => (s.stateAt (s.placeAt a)).token?
  | .property a .prepareChild | .property a (.startIntervals _) => (s.propertyAt a).token
  | .list list .startInterval => (s.stateAt (.list list)).token?
  | .stream (.grantChild token) => s.tokens.get? token
  | _ => none

/-- A writer that is not the innermost one makes no place. -/
theorem away_of_bars (bars : s.stream.Bars t) (other : (s.stateAt q).token? ≠ some t) :
    ¬ s.HasTurn q := by
  rintro ⟨u, token, active⟩
  obtain rfl := Option.some.inj (active.symm.trans bars.active)
  exact other token

theorem endsAtMost_document (bars : s.stream.Bars t) {c : DocumentCommand}
    (called : s.operation? (.document c) = some call) :
    s.stream.EndsAtMost (behind call s).stream := by
  obtain ⟨d, -, rfl⟩ := Option.map_eq_some_iff.mp called
  cases c with
  | openPacket | writeDocumentPacket =>
      exact (rejects_opening bars.crowded rfl called).sameTurns.endsAtMost
  | packetCount => exact .inl (.refl _)
  | finish =>
      have writers : s.stream.writers ≠ [] := by
        intro none
        have active := bars.active
        rw [Stream.active?, none] at active
        cases active
      rw [onDocument, stream_behind_doing, behind_of_error (finishDocument_of_open writers)]
      exact .inl (.refl _)

theorem endsAtMost_writer (bars : s.stream.Bars t) {c : WriterCommand}
    (called : s.operation? (.writer a c) = some call) :
    s.stream.EndsAtMost (behind call s).stream := by
  obtain ⟨h, found, ⟨⟩⟩ := Option.bind_eq_some_iff.mp called
  cases c with
  | start => exact (rejects_opening bars.crowded rfl called).sameTurns.endsAtMost
  | finish =>
      rw [onWriter, stream_behind_doing]
      exact endsAtMost_finish h s
  | release =>
      rw [onWriter, stream_behind_doing]
      exact endsAtMost_release h s
  | state | touch | copy => exact .inl (.refl _)

/-- A write to a property. -/
theorem endsAtMost_write {op : PropertyM Unit}
    (follows : ((Comparison.alone Stream.Continues).writing Property).Follows op) :
    s.stream.EndsAtMost (behind (doing (onProperty a op)) s).stream := by
  rw [stream_behind_doing, stream_behind_onProperty]
  have kept : s.stream.Continues (behind op ⟨s.stream, s.propertyAt a⟩).stream :=
    follows.moves ⟨s.stream, s.propertyAt a⟩
  exact .inl kept.sameTurns

theorem endsAtMost_property (bars : s.stream.Bars t) {c : PropertyCommand}
    (called : s.operation? (.property a c) = some call)
    (ungranted : s.granter? (.property a c) ≠ some t) :
    s.stream.EndsAtMost (behind call s).stream := by
  obtain ⟨content, rfl⟩ := onContent_of_operation? called
  cases c with
  | interval i => exact endsAtMost_write (Stream.serves_alone.writeInterval i)
  | delete d => exact endsAtMost_write (Stream.serves_alone.scalarMember "delete" (v := .bool d) rfl)
  | openScope => exact endsAtMost_write Stream.serves_alone.openScope
  | prepareChild =>
      have away : ¬ s.HasTurn (.property a) := away_of_bars bars ungranted
      have rejects : s.Rejects (onProperty a Property.prepareChild) :=
        rejects_onProperty (Property.refuses_prepareChild fun takes => away takes.1)
      exact (rejects.bind _).sameTurns.endsAtMost
  | startIntervals list =>
      have away : ¬ s.HasTurn (.property a) := away_of_bars bars ungranted
      exact (rejects_content rfl away).sameTurns.endsAtMost
  | forceObject | describe => exact .inl (.refl _)

theorem endsAtMost_list (bars : s.stream.Bars t) {list : String} {c : ListCommand}
    (called : s.operation? (.list list c) = some call)
    (ungranted : s.granter? (.list list c) ≠ some t) :
    s.stream.EndsAtMost (behind call s).stream := by
  obtain ⟨l, kept, ⟨⟩⟩ := Option.bind_eq_some_iff.mp called
  cases c with
  | start => exact (rejects_opening bars.crowded rfl called).sameTurns.endsAtMost
  | startInterval =>
      have away : ¬ s.HasTurn (.list list) := away_of_bars bars ungranted
      exact (rejects_intervals kept rfl away).sameTurns.endsAtMost
  | finish =>
      rw [onIntervals, stream_behind_doing]
      change s.stream.EndsAtMost
        (behind (onList list l (IntervalList.finish (s.intervalIsOpen list l))) s).stream
      rw [stream_behind_onList]
      exact IntervalList.endsAtMost_finish _ _ _
  | state => exact .inl (.refl _)

/-- A call of the stream itself. -/
theorem endsAtMost_onStream {op : StreamM Unit} (ends : s.stream.EndsAtMost (behind op s.stream)) :
    s.stream.EndsAtMost (behind (doing (onStream op)) s).stream := by
  rwa [stream_behind_doing, stream_behind_onStream]

theorem endsAtMost_output (bars : s.stream.Bars t) {c : StreamCommand}
    (called : s.onOutput? c = some call) (ungranted : s.granter? (.stream c) ≠ some t) :
    s.stream.EndsAtMost (behind call s).stream := by
  have makes (c : Call) : s.stream.EndsAtMost (behind (Stream.perform c) s.stream) :=
    .inl (Stream.continues_perform c s.stream).sameTurns
  have refused {op : StreamM Unit} (refuses : Refuses op s.stream) :
      s.stream.EndsAtMost (behind op s.stream) := by
    obtain ⟨e, -, run⟩ := refuses
    rw [behind_of_error run]
    exact .inl (.refl _)
  have looks {op : StreamM Unit} (same : behind op s.stream = s.stream) :
      s.stream.EndsAtMost (behind op s.stream) := by
    rw [same]
    exact .inl (.refl _)
  cases c with
  | startObject =>
      obtain rfl := Option.some.inj called
      exact endsAtMost_onStream (makes .startObject)
  | endObject =>
      obtain rfl := Option.some.inj called
      exact endsAtMost_onStream (makes .endObject)
  | startSequence =>
      obtain rfl := Option.some.inj called
      exact endsAtMost_onStream (makes .startSequence)
  | endSequence =>
      obtain rfl := Option.some.inj called
      exact endsAtMost_onStream (makes .endSequence)
  | name key =>
      obtain rfl := Option.some.inj called
      exact endsAtMost_onStream (makes (.name key))
  | value v =>
      obtain rfl := Option.some.inj called
      exact endsAtMost_onStream (makes (.value v))
  | flush =>
      obtain rfl := Option.some.inj called
      exact endsAtMost_onStream (looks (Stream.behind_flush _))
  | describe | active =>
      obtain rfl := Option.some.inj called
      exact .inl (.refl _)
  | expectCanOpen =>
      obtain rfl := Option.some.inj called
      exact endsAtMost_onStream (refused (Stream.refuses_expectCanOpen bars.crowded))
  | beginWriter token =>
      obtain rfl := Option.some.inj called
      have refuses : Refuses Stream.beginWriter s.stream :=
        (Stream.refuses_expectCanOpen bars.crowded).bind _
      exact (rejects_onStream refuses |>.bind _).sameTurns.endsAtMost
  | endWriter token =>
      obtain ⟨u, kept, rfl⟩ := Option.map_eq_some_iff.mp called
      exact endsAtMost_onStream (Stream.endsAtMost_endWriter u _)
  | grantChild token =>
      obtain ⟨u, kept, rfl⟩ := Option.map_eq_some_iff.mp called
      have away : s.stream.active? ≠ some u := by
        rintro active
        obtain rfl := Option.some.inj (active.symm.trans bars.active)
        exact ungranted kept
      exact endsAtMost_onStream (refused ((Stream.refuses_expectActive away).bind _))
  | expectActive token =>
      obtain ⟨u, kept, rfl⟩ := Option.map_eq_some_iff.mp called
      exact endsAtMost_onStream (looks (Stream.behind_expectActive u _))

/-- While no place is made, no command that is not of the innermost writer changes the turns, and what
the innermost writer does changes them only where it is closed. -/
theorem endsAtMost_step (bars : s.stream.Bars t) (ungranted : s.granter? c ≠ some t) :
    s.stream.EndsAtMost (s.step c).2.stream := by
  cases called : s.operation? c with
  | none =>
      rw [step_of_none called]
      exact .inl (.refl _)
  | some call =>
      rw [behind_of_operation? called]
      cases c with
      | document c => exact endsAtMost_document bars called
      | make slot shape name =>
          obtain rfl := Option.some.inj called
          exact .inl (.refl _)
      | writer a c => exact endsAtMost_writer bars called
      | parent a c =>
          exact (rejects_of_away called rfl (away_of_bars bars ungranted)).sameTurns.endsAtMost
      | packet a c =>
          obtain ⟨h, -, made⟩ := Option.bind_eq_some_iff.mp called
          obtain ⟨-, ⟨⟩⟩ := Option.ite_none_right_eq_some.mp made
          have follows : ((Comparison.alone Stream.Continues).writing Packet).Follows (packetOp c) :=
            Stream.serves_alone.packetOp (.inr fun _ _ => trivial)
          have kept : s.stream.Continues (behind (packetOp c) ⟨s.stream, s.packetAt a.root⟩).stream :=
            follows.moves ⟨s.stream, s.packetAt a.root⟩
          rw [stream_behind_doing, stream_behind_onPacket]
          exact .inl kept.sameTurns
      | property a c => exact endsAtMost_property bars called ungranted
      | value a c =>
          obtain ⟨k, op, found, rfl⟩ := valueOp?_of_operation? called
          exact endsAtMost_write (Stream.serves_alone.valueOp found (.inr fun _ _ => trivial))
      | list list c => exact endsAtMost_list bars called ungranted
      | stream c => exact endsAtMost_output bars called ungranted

/-! ## Others than the innermost writer -/

/-- The command opens a writer on the stream itself, or through a writer that is not innermost. -/
def StraysIn (s : Session) : Command → Prop
  | .stream (.beginWriter _) => True
  | c => ∃ outer q, s.opening? c = some (outer, q) ∧ ∀ p ∈ outer, ¬ s.HasTurn p

/-- No such writer is opened while the innermost one makes no place. -/
theorem declines_of_bars (bars : s.stream.Bars t) (strays : s.StraysIn c) : s.Declines c := by
  have declines (away : ∃ outer q, s.opening? c = some (outer, q) ∧ ∀ p ∈ outer, ¬ s.HasTurn p) :
      s.Declines c := by
    obtain ⟨outer, q, opening, away⟩ := away
    cases outer with
    | some p => exact declines_of_away (writerOf?_of_opening? opening) (away p rfl)
    | none =>
        cases called : s.operation? c with
        | none => exact .inl (step_of_none called)
        | some call =>
            exact declines_of_rejects called (rejects_opening bars.crowded opening called)
  cases c with
  | stream c =>
      cases c with
      | beginWriter token =>
          have refuses : Refuses Stream.beginWriter s.stream :=
            (Stream.refuses_expectCanOpen bars.crowded).bind _
          exact declines_of_rejects rfl ((rejects_onStream refuses).bind _)
      | startObject | endObject | startSequence | endSequence | name | value | flush | describe
      | endWriter | grantChild | expectActive | expectCanOpen | active => exact declines strays
  | document | make | writer | parent | packet | property | value | list => exact declines strays

/-- None of the commands makes a place in this opening. -/
def LeavesUngranted (t : Token) : Session → List Command → Prop
  | _, [] => True
  | s, c :: cs => s.granter? c ≠ some t ∧ LeavesUngranted t (s.step c).2 cs

/-- Whatever is done, others are kept out until the innermost writer makes a place or is closed. -/
theorem bars_run (bars : s.stream.Bars t) (ungranted : LeavesUngranted t s cs) :
    (s.run cs).stream.Bars t ∨
      ∃ done rest, cs = done ++ rest ∧ (s.run done).stream.writers = s.stream.writers.tail := by
  induction cs generalizing s with
  | nil => exact .inl bars
  | cons c cs ih =>
      rcases endsAtMost_step bars ungranted.1 with same | ⟨ended, -⟩
      · rcases ih (bars.congr same) ungranted.2 with kept | ⟨done, rest, rfl, ended⟩
        · exact .inl kept
        · exact .inr ⟨c :: done, rest, rfl, ended.trans (congrArg List.tail same.writers)⟩
      · exact .inr ⟨[c], cs, rfl, ended⟩

end Session

end SceneStream
