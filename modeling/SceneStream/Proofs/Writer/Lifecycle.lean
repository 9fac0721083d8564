import SceneStream.IntervalList
import SceneStream.Packet
import SceneStream.Proofs.Writer.Property

/-!
# Opening and closing writers

Packets, properties and lists are opened and closed alike: a check whether it is this writer's turn,
the calls at that end of its part, and the change on the stack of writers. Only the check and the
first call can refuse, so what is refused has changed nothing.
-/

namespace SceneStream

open Writing

variable {s : Stream} {d e : Draft} {t : Token} {calls : List Call}

namespace Stream

/-- Makes the first call of a writer and registers it. -/
def begin (c : Call) : StreamM Token := do
  expectCanOpen
  perform c
  beginWriter

/-- The end of the innermost writer. -/
def finish (op : StreamM Unit) (t : Token) : StreamM Unit := do
  expectActive t
  op
  endWriter t

theorem begin_ok {c : Call} (free : s.MayOpen) (shows : s.Shows d)
    (accepted : d.acceptAll [c] = some e) :
    ∃ text, begin c s = .ok s.nextToken (s.drawn text e).opened ∧
      (s.drawn text e).opened.Shows e := by
  obtain ⟨text, run, shown⟩ := makes_perform c shows accepted
  refine ⟨text, ?_, shown.opened⟩
  rw [begin, bind_of_ok (expectCanOpen_ok free), bind_of_ok run]
  exact beginWriter_ok free

/-- While no writer may be opened, none is. -/
theorem refuses_begin_of_crowded (crowded : ¬ s.MayOpen) (c : Call) : Refuses (begin c) s :=
  (refuses_expectCanOpen crowded).bind _

theorem refuses_begin {c : Call} (shows : s.Shows d)
    (h : ¬ s.MayOpen ∨ d.acceptAll [c] = none) : Refuses (begin c) s := by
  by_cases free : s.MayOpen
  · have forbidden : d.accept c = none := by simpa using h.resolve_left (not_not_intro free)
    exact Refuses.after (expectCanOpen_ok free) ((refuses_perform shows forbidden).bind _)
  · exact refuses_begin_of_crowded free c

theorem finish_ok {op : StreamM Unit} (h : Makes op calls) (active : s.active? = some t)
    (shows : s.Shows d) (accepted : d.acceptAll calls = some e) :
    ∃ text, finish op t s = .ok () (s.drawn text e).closed ∧
      (s.drawn text e).closed.Shows e := by
  obtain ⟨text, run, shown⟩ := h shows accepted
  refine ⟨text, ?_, shown.closed⟩
  rw [finish, bind_of_ok (expectActive_ok active), bind_of_ok run]
  exact endWriter_ok active

end Stream

section

variable {ω : Type} {own own' : ω}

/-- A writer is opened with its first call, and keeps the token of its opening. -/
theorem opens {f : Token → ω} {c : Call} (free : s.MayOpen) (shows : s.Shows d)
    (accepted : d.acceptAll [c] = some e) :
    ∃ text, (do setOwn (f (← onStream (Stream.begin c))) : WriterM ω Unit) ⟨s, own⟩ =
        .ok () ⟨(s.drawn text e).opened, f s.nextToken⟩ ∧ (s.drawn text e).opened.Shows e := by
  obtain ⟨text, run, shown⟩ := Stream.begin_ok free shows accepted
  refine ⟨text, ?_, shown⟩
  rw [bind_apply, onStream, run]
  rfl

/-- A writer is closed behind the calls that complete its part, and forgets its token. -/
theorem closes {op : StreamM Unit} (h : Stream.Makes op calls) (active : s.active? = some t)
    (shows : s.Shows d) (accepted : d.acceptAll calls = some e) :
    ∃ text, (do onStream (Stream.finish op t); setOwn own' : WriterM ω Unit) ⟨s, own⟩ =
        .ok () ⟨(s.drawn text e).closed, own'⟩ ∧ (s.drawn text e).closed.Shows e := by
  obtain ⟨text, run, shown⟩ := Stream.finish_ok h active shows accepted
  refine ⟨text, ?_, shown⟩
  rw [bind_apply, onStream, run]
  rfl

end

namespace Property

variable {p : Property}

/-- What a writer for this property has written when it is opened. -/
def part (p : Property) : Part :=
  match p.role with
  | .member => .member p.name .nothing
  | .element => .element p.name []

/-- The property when it is opened. -/
def started (p : Property) (t : Token) : Property :=
  { p with token := some t, scope := p.part.scope, intervalWritten := false, valueWritten := false }

/-- The call by which a property is opened. -/
def firstCall (p : Property) : Call :=
  match p.role with
  | .member => .name p.name
  | .element => .startObject

theorem calls_part (p : Property) : p.part.calls = [p.firstCall] := by
  unfold part firstCall
  cases p.role <;> rfl

theorem awaitsList_part (p : Property) : p.part.awaitsList = false := by
  unfold part
  cases p.role <;> rfl

theorem standing_part (p : Property) :
    p.part.standing = .property p.name p.role p.part.scope := by
  unfold part
  cases p.role <;> rfl

theorem start_apply (closed : p.token = none) :
    start ⟨s, p⟩ = (do setOwn (p.started (← onStream (Stream.begin p.firstCall)))) ⟨s, p⟩ := by
  obtain ⟨name, role, token⟩ := p
  obtain rfl : token = none := closed
  cases role <;> rfl

theorem start_ok (closed : p.token = none) (free : s.MayOpen) (shows : s.Shows d)
    (accepted : d.acceptAll p.part.calls = some e) :
    ∃ text, start ⟨s, p⟩ = .ok () ⟨(s.drawn text e).opened, p.started s.nextToken⟩ ∧
      (s.drawn text e).opened.Shows e := by
  rw [calls_part] at accepted
  rw [start_apply closed]
  exact opens free shows accepted

/-- A property is not opened where it is open already, or where it may not begin. -/
theorem refuses_start_of_begin (h : p.token ≠ none ∨ Refuses (Stream.begin p.firstCall) s) :
    Refuses start ⟨s, p⟩ := by
  cases token : p.token with
  | some t =>
      refine ⟨.invalidOperation (.propertyOpen p.name), rfl, ?_⟩
      simp [start, bind_apply, isOpen, token]
  | none =>
      rw [Refuses, start_apply token]
      exact (refuses_onStream (h.resolve_left (not_not_intro token))).bind _

theorem refuses_start (shows : s.Shows d)
    (h : p.token ≠ none ∨ ¬ s.MayOpen ∨ d.acceptAll p.part.calls = none) :
    Refuses start ⟨s, p⟩ := by
  rw [calls_part] at h
  exact refuses_start_of_begin (h.imp_right (Stream.refuses_begin shows))

/-- What completes a property makes the closing calls of its part. -/
theorem makes_complete (scope : Scope) : Stream.Makes (complete scope) scope.closing := by
  cases scope with
  | unopened => exact (Stream.makes_perform .startObject).seq (Stream.makes_perform .endObject)
  | object => exact Stream.makes_perform .endObject
  | bare | intervals => exact Stream.makes_pure

theorem finish_apply (token : p.token = some t) :
    finish ⟨s, p⟩ = (do
      onStream (Stream.finish (complete p.scope) t)
      setOwn { p with token := none, scope := .unopened }) ⟨s, p⟩ := by
  rw [finish, bind_of_ok (getOwn_apply _), bind_of_ok (opening_ok token)]
  rfl

/-- What an opening leaves of a property that it opens. -/
theorem own_of_start {w : Writing Property} (run : start ⟨s, p⟩ = .ok () w) :
    ∃ t, w.own = p.started t := by
  have closed : p.token = none := by
    by_contra opened
    simp [start, bind_apply, isOpen, Option.isSome_iff_ne_none.mpr opened] at run
  rw [start_apply closed] at run
  obtain ⟨t, w₁, begun, noted⟩ := ok_of_bind run
  obtain rfl := (EStateM.Result.ok.inj noted).2
  exact ⟨t, rfl⟩

/-- Closing a property fails and leaves its state, or closes it. -/
theorem finish_cases (s : Stream) (p : Property) :
    (∃ e w, finish ⟨s, p⟩ = .error e w ∧ w.own = p) ∨
      ∃ w, finish ⟨s, p⟩ = .ok () w ∧ w.own.token = none := by
  cases token : p.token with
  | none =>
      refine .inl ⟨.invalidOperation (.propertyNotOpen p.name), ⟨s, p⟩, ?_, rfl⟩
      simp [finish, opening, bind_apply, token]
  | some t =>
      rw [finish_apply token, bind_apply, onStream]
      cases Stream.finish (complete p.scope) t s with
      | ok _ s' => exact .inr ⟨_, rfl, rfl⟩
      | error e s' => exact .inl ⟨e, _, rfl, rfl⟩

theorem finish_ok (token : p.token = some t) (active : s.active? = some t) (shows : s.Shows d)
    (accepted : d.acceptAll p.scope.closing = some e) :
    ∃ text, finish ⟨s, p⟩ =
        .ok () ⟨(s.drawn text e).closed, { p with token := none, scope := .unopened }⟩ ∧
      (s.drawn text e).closed.Shows e := by
  rw [finish_apply token]
  exact closes (makes_complete p.scope) active shows accepted

theorem refuses_finish (away : ¬ p.HasTurn s) : Refuses finish ⟨s, p⟩ := by
  apply Refuses.after (getOwn_apply _)
  apply refuses_opening_bind away
  intro t active
  exact (refuses_onStream ((Stream.refuses_expectActive active).bind _)).bind _

/-- A place for a child is made in the object, which is begun for it if need be. -/
theorem prepareChild_ok (token : p.token = some t) (active : s.active? = some t)
    (scope : p.scope = .unopened ∨ p.scope = .object) (shows : s.Shows d)
    (accepted : d.acceptAll p.scope.opening = some e) :
    ∃ text, prepareChild ⟨s, p⟩ = .ok () ⟨(s.drawn text e).granting t,
        { p with scope := .object }⟩ ∧ (s.drawn text e).Shows e := by
  have begun := adds_openScope.draws ⟨⟨t, token, active⟩, scope⟩
  have calls : ((Write.members []).entry p.scope).calls p.scope = p.scope.opening := by
    simp [Write.entry, Entry.calls, Tree.memberCalls]
  rw [calls] at begun
  obtain ⟨text, run, shown⟩ := begun.run shows accepted
  refine ⟨text, ?_, shown⟩
  rw [prepareChild, bind_of_ok run, bind_of_ok (opening_ok (p := { p with scope := .object }) token),
    onStream, Stream.grantChild_ok (s := s.drawn text e) active]

theorem refuses_prepareChild (illegal : ¬ p.TakesEntries s) : Refuses prepareChild ⟨s, p⟩ :=
  (adds_openScope.refuses illegal).bind _

/-- A property in which a place was made for a child is an object. -/
theorem own_of_prepareChild {w : Writing Property} (run : prepareChild ⟨s, p⟩ = .ok () w) :
    w.own = { p with scope := .object } := by
  obtain ⟨_, w₁, begun, granted⟩ := ok_of_bind run
  rw [openScope, bind_of_ok (getOwn_apply _)] at begun
  obtain ⟨_, w₂, -, noted⟩ := ok_of_bind begun
  obtain rfl := (EStateM.Result.ok.inj noted).2
  cases token : p.token with
  | none => simp [opening, bind_apply, token] at granted
  | some t =>
      rw [bind_of_ok (opening_ok (by exact token))] at granted
      obtain ⟨s', -, rfl⟩ := ok_of_onStream granted
      rw [← token]

/-- A place for a list of intervals is made before anything is written, and writes nothing. -/
theorem prepareIntervals_ok (token : p.token = some t) (active : s.active? = some t)
    (scope : p.scope = .unopened) :
    prepareIntervals ⟨s, p⟩ = .ok () ⟨s.granting t, p⟩ := by
  rw [prepareIntervals, bind_of_ok (getOwn_apply _), bind_of_ok (opening_ok token), bind_apply,
    onStream, Stream.expectActive_ok active]
  simp only [scope, ne_eq, not_true_eq_false, if_false]
  rw [onStream, Stream.grantChild_ok active]

theorem refuses_prepareIntervals (illegal : ¬ (p.HasTurn s ∧ p.scope = .unopened)) :
    Refuses prepareIntervals ⟨s, p⟩ := by
  by_cases turn : p.HasTurn s
  · obtain ⟨t, token, active⟩ := turn
    have scope : p.scope ≠ .unopened := fun scope => illegal ⟨⟨t, token, active⟩, scope⟩
    refine ⟨.invalidOperation (.intervalsNotFirst p.name), rfl, ?_⟩
    rw [prepareIntervals, bind_of_ok (getOwn_apply _), bind_of_ok (opening_ok token), bind_apply,
      onStream, Stream.expectActive_ok active]
    simp only [scope, ne_eq, not_false_eq_true, if_true]
    rfl
  · apply Refuses.after (getOwn_apply _)
    apply refuses_opening_bind turn
    intro t active
    exact (refuses_onStream (Stream.refuses_expectActive active)).bind _

theorem eq_of_prepareIntervals {w : Writing Property} (run : prepareIntervals ⟨s, p⟩ = .ok () w) :
    p.HasTurn s ∧ p.scope = .unopened ∧ w.own = p := by
  by_cases legal : p.HasTurn s ∧ p.scope = .unopened
  · obtain ⟨⟨t, token, active⟩, scope⟩ := legal
    rw [prepareIntervals_ok token active scope] at run
    obtain rfl := (EStateM.Result.ok.inj run).2
    exact ⟨⟨t, token, active⟩, scope, rfl⟩
  · obtain ⟨e, -, refused⟩ := refuses_prepareIntervals legal
    cases refused.symm.trans run

end Property

namespace Packet

variable {p : Packet}

/-- Whether this is the innermost open writer of the stream. -/
def HasTurn (p : Packet) (s : Stream) : Prop := ∃ t, p.token = some t ∧ s.active? = some t

theorem opening_ok (h : p.token = some t) : opening ⟨s, p⟩ = .ok t ⟨s, p⟩ := by
  simp [opening, bind_apply, h]

theorem refuses_opening_bind {f : Token → PacketM Unit} (away : ¬ p.HasTurn s)
    (h : ∀ t, s.active? ≠ some t → Refuses (f t) ⟨s, p⟩) : Refuses (opening >>= f) ⟨s, p⟩ := by
  cases token : p.token with
  | none =>
      apply Refuses.bind
      refine ⟨.invalidOperation .packetNotOpen, rfl, ?_⟩
      simp [opening, bind_apply, token]
  | some t =>
      apply Refuses.after (opening_ok token)
      apply h t
      intro active
      exact away ⟨t, token, active⟩

private theorem start_apply (closed : p.token = none) :
    start ⟨s, p⟩ =
      (do setOwn { token := some (← onStream (Stream.begin .startObject)) } : PacketM Unit)
        ⟨s, p⟩ := by
  obtain ⟨token⟩ := p
  obtain rfl : token = none := closed
  rfl

theorem start_ok (closed : p.token = none) (free : s.MayOpen) (shows : s.Shows d)
    (accepted : d.acceptAll (Part.packet []).calls = some e) :
    ∃ text, start ⟨s, p⟩ = .ok () ⟨(s.drawn text e).opened, { token := some s.nextToken }⟩ ∧
      (s.drawn text e).opened.Shows e := by
  rw [start_apply closed]
  exact opens (f := fun t => ({ token := some t } : Packet)) free shows accepted

theorem refuses_start_of_begin (h : p.token ≠ none ∨ Refuses (Stream.begin .startObject) s) :
    Refuses start ⟨s, p⟩ := by
  cases token : p.token with
  | some t =>
      refine ⟨.invalidOperation .packetOpen, rfl, ?_⟩
      simp [start, bind_apply, isOpen, token]
  | none =>
      rw [Refuses, start_apply token]
      exact (refuses_onStream (h.resolve_left (not_not_intro token))).bind _

theorem refuses_start (shows : s.Shows d)
    (h : p.token ≠ none ∨ ¬ s.MayOpen ∨ d.acceptAll (Part.packet []).calls = none) :
    Refuses start ⟨s, p⟩ :=
  refuses_start_of_begin (h.imp_right (Stream.refuses_begin shows))

theorem finish_apply (token : p.token = some t) :
    finish ⟨s, p⟩ = (do
      onStream (Stream.finish (Stream.perform .endObject) t)
      setOwn {} : PacketM Unit) ⟨s, p⟩ := by
  rw [finish, bind_of_ok (opening_ok token)]
  rfl

/-- Closing a packet fails and leaves its state, or closes it. -/
theorem finish_cases (s : Stream) (p : Packet) :
    (∃ e w, finish ⟨s, p⟩ = .error e w ∧ w.own = p) ∨
      ∃ w, finish ⟨s, p⟩ = .ok () w ∧ w.own.token = none := by
  cases token : p.token with
  | none =>
      refine .inl ⟨.invalidOperation .packetNotOpen, ⟨s, p⟩, ?_, rfl⟩
      simp [finish, opening, bind_apply, token]
  | some t =>
      rw [finish_apply token, bind_apply, onStream]
      cases Stream.finish (Stream.perform .endObject) t s with
      | ok _ s' => exact .inr ⟨_, rfl, rfl⟩
      | error e s' => exact .inl ⟨e, _, rfl, rfl⟩

theorem finish_ok (token : p.token = some t) (active : s.active? = some t) (shows : s.Shows d)
    (accepted : d.acceptAll [.endObject] = some e) :
    ∃ text, finish ⟨s, p⟩ = .ok () ⟨(s.drawn text e).closed, {}⟩ ∧
      (s.drawn text e).closed.Shows e := by
  rw [finish_apply token]
  exact closes (Stream.makes_perform .endObject) active shows accepted

theorem refuses_finish (away : ¬ p.HasTurn s) : Refuses finish ⟨s, p⟩ := by
  apply refuses_opening_bind away
  intro t active
  exact (refuses_onStream ((Stream.refuses_expectActive active).bind _)).bind _

theorem draws_member (turn : p.HasTurn s) (key : String) (v : Scalar) :
    Draws s p (member key v) (Tree.memberCalls [(key, .scalar v)]) p := by
  obtain ⟨t, token, active⟩ := turn
  have made : Stream.Makes (Stream.member key v) [.name key, .value v] :=
    (Stream.makes_name key).seq (Stream.makes_value v)
  apply (draws_onStream made).of_eq
  intro text d
  rw [member, bind_of_ok (opening_ok token), onStream,
    bind_of_ok (Stream.expectActive_ok (s := s.drawn text d) active)]
  rfl

theorem refuses_member (away : ¬ p.HasTurn s) (key : String) (v : Scalar) :
    Refuses (member key v) ⟨s, p⟩ := by
  apply refuses_opening_bind away
  intro t active
  exact refuses_onStream ((Stream.refuses_expectActive active).bind _)

theorem prepareChild_ok (token : p.token = some t) (active : s.active? = some t) :
    prepareChild ⟨s, p⟩ = .ok () ⟨s.granting t, p⟩ := by
  rw [prepareChild, bind_of_ok (opening_ok token), onStream, Stream.grantChild_ok active]

theorem refuses_prepareChild (away : ¬ p.HasTurn s) : Refuses prepareChild ⟨s, p⟩ := by
  apply refuses_opening_bind away
  intro t active
  exact refuses_onStream ((Stream.refuses_expectActive active).bind _)

end Packet

namespace IntervalList

variable {l : IntervalList} {current : Bool}

/-- Whether this is the innermost open writer of the stream. -/
def HasTurn (l : IntervalList) (s : Stream) : Prop := ∃ t, l.token = some t ∧ s.active? = some t

theorem activeOpening_ok (token : l.token = some t) (active : s.active? = some t) :
    activeOpening ⟨s, l⟩ = .ok t ⟨s, l⟩ := by
  rw [activeOpening, bind_of_ok (getOwn_apply _)]
  simp only [token]
  rw [bind_apply, onStream, Stream.expectActive_ok active]
  rfl

theorem refuses_activeOpening (away : ¬ l.HasTurn s) : Refuses activeOpening ⟨s, l⟩ := by
  apply Refuses.after (getOwn_apply _)
  cases token : l.token with
  | none => exact refuses_refuse _ _
  | some t =>
      apply Refuses.bind
      apply refuses_onStream
      apply Stream.refuses_expectActive
      intro active
      exact away ⟨t, token, active⟩

theorem start_apply (closed : l.token = none) :
    start ⟨s, l⟩ =
      (do setOwn { l with token := some (← onStream (Stream.begin .startSequence)) } :
        IntervalListM Unit) ⟨s, l⟩ := by
  obtain ⟨template, content, token⟩ := l
  obtain rfl : token = none := closed
  rfl

theorem start_ok (closed : l.token = none) (free : s.MayOpen) (shows : s.Shows d)
    (accepted : d.acceptAll (Part.list l.template.name []).calls = some e) :
    ∃ text, start ⟨s, l⟩ =
        .ok () ⟨(s.drawn text e).opened, { l with token := some s.nextToken }⟩ ∧
      (s.drawn text e).opened.Shows e := by
  rw [start_apply closed]
  exact opens (f := fun t => { l with token := some t }) free shows accepted

theorem refuses_start_of_begin (h : l.token ≠ none ∨ Refuses (Stream.begin .startSequence) s) :
    Refuses start ⟨s, l⟩ := by
  cases token : l.token with
  | some t =>
      refine ⟨.invalidOperation (.listOpen l.template.name), rfl, ?_⟩
      simp [start, bind_apply, isOpen, token]
  | none =>
      rw [Refuses, start_apply token]
      exact (refuses_onStream (h.resolve_left (not_not_intro token))).bind _

theorem refuses_start (shows : s.Shows d)
    (h : l.token ≠ none ∨ ¬ s.MayOpen ∨
      d.acceptAll (Part.list l.template.name []).calls = none) : Refuses start ⟨s, l⟩ :=
  refuses_start_of_begin (h.imp_right (Stream.refuses_begin shows))

theorem prepareInterval_ok (token : l.token = some t) (active : s.active? = some t) :
    prepareInterval false ⟨s, l⟩ = .ok () ⟨s.granting t, l⟩ := by
  have whole : prepareInterval false ⟨s, l⟩ =
      (do onStream (Stream.grantChild (← activeOpening))) ⟨s, l⟩ := rfl
  rw [whole, bind_of_ok (activeOpening_ok token active), onStream, Stream.grantChild_ok active]

theorem refuses_prepareInterval (h : current = true ∨ ¬ l.HasTurn s) :
    Refuses (prepareInterval current) ⟨s, l⟩ := by
  cases current with
  | true => exact ⟨.invalidOperation (.previousIntervalOpen l.template.name), rfl, rfl⟩
  | false => exact (refuses_activeOpening (h.resolve_left Bool.false_ne_true)).bind _

theorem finish_apply (token : l.token = some t) (active : s.active? = some t) :
    finish false ⟨s, l⟩ = (do
      onStream (Stream.finish (Stream.perform .endSequence) t)
      setOwn { l with token := none, hasCurrent := false } : IntervalListM Unit) ⟨s, l⟩ := by
  have whole : finish false ⟨s, l⟩ = (do
      let t ← activeOpening
      onStream do
        Stream.endSequence
        Stream.endWriter t
      setOwn { l with token := none, hasCurrent := false } : IntervalListM Unit) ⟨s, l⟩ := rfl
  have ends : Stream.finish (Stream.perform .endSequence) t s =
      (do Stream.endSequence; Stream.endWriter t : StreamM Unit) s :=
    bind_of_ok (Stream.expectActive_ok active) _
  rw [whole, bind_of_ok (activeOpening_ok token active), bind_apply, bind_apply, onStream, onStream,
    ends]

theorem finish_ok (token : l.token = some t) (active : s.active? = some t) (shows : s.Shows d)
    (accepted : d.acceptAll [.endSequence] = some e) :
    ∃ text, finish false ⟨s, l⟩ = .ok () ⟨(s.drawn text e).closed,
        { l with token := none, hasCurrent := false }⟩ ∧ (s.drawn text e).closed.Shows e := by
  rw [finish_apply token active]
  exact closes (Stream.makes_perform .endSequence) active shows accepted

theorem refuses_finish (h : current = true ∨ ¬ l.HasTurn s) :
    Refuses (finish current) ⟨s, l⟩ := by
  cases current with
  | true => exact ⟨.invalidOperation (.intervalOpen l.template.name), rfl, rfl⟩
  | false => exact (refuses_activeOpening (h.resolve_left Bool.false_ne_true)).bind _

end IntervalList

end SceneStream
