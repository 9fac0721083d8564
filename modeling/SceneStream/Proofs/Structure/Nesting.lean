import SceneStream.Proofs.Outline.Part
import SceneStream.Proofs.Structure.Writes

/-!
# Calls on any stream

What a stream notes of its text, its open containers and whether a root value was begun, decides which
call is permitted and what is noted behind it, whatever the sink. A call that is not permitted is
refused without a trace. A permitted one is answered, or fails because the sink has a limit; either
way it leaves alone all that has to do with writers.
-/

namespace SceneStream

/-- What a stream notes of its text. -/
structure Nesting where
  frames : List Frame
  started : Bool

namespace Nesting

/-- What is noted once a value has been announced, if a value may come next. -/
def inside? : Nesting → Option Nesting
  | ⟨.object members true :: rest, started⟩ => some ⟨.object members false :: rest, started⟩
  | ⟨.array items :: rest, started⟩ => some ⟨.array (items + 1) :: rest, started⟩
  | ⟨[], false⟩ => some ⟨[], true⟩
  | _ => none

/-- What is noted inside one more container. -/
def enter (n : Nesting) (frame : Frame) : Nesting := { n with frames := frame :: n.frames }

/-- What is noted behind a call, if the call is permitted. -/
def accept (n : Nesting) : Call → Option Nesting
  | .startObject => n.inside?.map (enter · (.object 0 false))
  | .startSequence => n.inside?.map (enter · (.array 0))
  | .value _ => n.inside?
  | .name _ =>
    match n.frames with
    | .object members false :: rest => some { n with frames := .object (members + 1) true :: rest }
    | _ => none
  | .endObject =>
    match n.frames with
    | .object _ false :: rest => some { n with frames := rest }
    | _ => none
  | .endSequence =>
    match n.frames with
    | .array _ :: rest => some { n with frames := rest }
    | _ => none

/-- What is noted behind several more calls, if each is permitted. -/
def acceptAll (n : Nesting) (calls : List Call) : Option Nesting := calls.foldlM accept n

@[simp] theorem acceptAll_nil (n : Nesting) : n.acceptAll [] = some n := rfl

@[simp] theorem acceptAll_cons (n : Nesting) (c : Call) (calls : List Call) :
    n.acceptAll (c :: calls) = (n.accept c).bind (acceptAll · calls) := rfl

theorem acceptAll_append (n : Nesting) (a b : List Call) :
    n.acceptAll (a ++ b) = (n.acceptAll a).bind (acceptAll · b) := List.foldlM_append

/-- A name is permitted in an object, behind whole members. -/
theorem accept_name {n m : Nesting} {key : String} :
    n.accept (.name key) = some m ↔ ∃ members rest, n.frames = .object members false :: rest ∧
      m = ⟨.object (members + 1) true :: rest, n.started⟩ := by
  constructor
  · intro permitted
    rcases n with ⟨_ | ⟨⟨members, _ | _⟩ | items, rest⟩, started⟩ <;> try cases permitted
    exact ⟨members, rest, rfl, rfl⟩
  · rintro ⟨members, rest, frames, rfl⟩
    simp [accept, frames]

mutual

/-- The calls of a tree are one value. -/
theorem acceptAll_calls (t : Tree) {n m : Nesting} (inside : n.inside? = some m) :
    n.acceptAll t.calls = some m := by
  cases t with
  | scalar v => simp [Tree.calls, accept, inside]
  | array items =>
      simp only [Tree.calls, acceptAll_cons, accept, inside, Option.map_some, Option.bind_some]
      rw [acceptAll_append, enter, acceptAll_itemCalls items]
      rfl
  | object members =>
      simp only [Tree.calls, acceptAll_cons, accept, inside, Option.map_some, Option.bind_some]
      rw [acceptAll_append, enter, acceptAll_memberCalls members]
      rfl

theorem acceptAll_itemCalls (items : List Tree) {done : Nat} {rest : List Frame} {started : Bool} :
    acceptAll ⟨.array done :: rest, started⟩ (Tree.itemCalls items) =
      some ⟨.array (done + items.length) :: rest, started⟩ := by
  cases items with
  | nil => simp [Tree.itemCalls]
  | cons t items =>
      rw [Tree.itemCalls, acceptAll_append, acceptAll_calls t rfl, Option.bind_some,
        acceptAll_itemCalls items, List.length_cons, Nat.add_right_comm, Nat.add_assoc]

theorem acceptAll_memberCalls (members : List (String × Tree)) {done : Nat} {rest : List Frame}
    {started : Bool} :
    acceptAll ⟨.object done false :: rest, started⟩ (Tree.memberCalls members) =
      some ⟨.object (done + members.length) false :: rest, started⟩ := by
  cases members with
  | nil => simp [Tree.memberCalls]
  | cons m members =>
      obtain ⟨key, t⟩ := m
      rw [Tree.memberCalls, acceptAll_cons, accept, Option.bind_some, acceptAll_append,
        acceptAll_calls t rfl, Option.bind_some, acceptAll_memberCalls members, List.length_cons,
        Nat.add_right_comm, Nat.add_assoc]

end

end Nesting

namespace Stream

/-- What the stream notes of its text. -/
def nesting (s : Stream) : Nesting := ⟨s.frames, s.rootWritten⟩

/-- Only the text and what is noted of it may differ. -/
structure Continues (s s' : Stream) : Prop where
  settings : s'.settings = s.settings
  writers : s'.writers = s.writers
  grant : s'.grant = s.grant
  nextToken : s'.nextToken = s.nextToken
  limit : s'.sink.limit = s.sink.limit

instance : IsPreorder Stream Continues where
  refl _ := ⟨rfl, rfl, rfl, rfl, rfl⟩
  trans _ _ _ h h' := ⟨h'.settings.trans h.settings, h'.writers.trans h.writers,
    h'.grant.trans h.grant, h'.nextToken.trans h.nextToken, h'.limit.trans h.limit⟩

/-- The operation fails because the sink has a limit. -/
def RunsOut (op : StreamM Unit) (s : Stream) : Prop :=
  ∃ e s', op s = .error e s' ∧ e.isRefusal = false ∧ s.sink.limit ≠ none ∧ Continues s s'

/-- Where this is noted, the operation is answered and that is noted, or the sink has a limit and the
operation fails for want of room. -/
def Leads (n m : Nesting) (op : StreamM Unit) : Prop :=
  ∀ s : Stream, s.nesting = n →
    (∃ s', op s = .ok () s' ∧ s'.nesting = m ∧ Continues s s') ∨ RunsOut op s

variable {n m l : Nesting} {op op' : StreamM Unit} {s : Stream}

namespace Leads

theorem pure : Leads n n (pure ()) := fun s noted => .inl ⟨s, rfl, noted, refl s⟩

theorem seq (first : Leads n m op) (second : Leads m l op') : Leads n l (do op; op') := by
  intro s noted
  rcases first s noted with ⟨s', run, noted', kept⟩ | ⟨e, s', run, rest⟩
  · rcases second s' noted' with ⟨s'', run', noted'', kept'⟩ | ⟨e, s'', run', other, limit, kept'⟩
    · exact .inl ⟨s'', by rw [bind_of_ok run, run'], noted'', trans_of _ kept kept'⟩
    · exact .inr ⟨e, s'', by rw [bind_of_ok run, run'], other, kept.limit ▸ limit,
        trans_of _ kept kept'⟩
  · exact .inr ⟨e, s', bind_of_error run _, rest⟩

/-- Only streams that note this count. -/
theorem of_eq (same : ∀ s : Stream, s.nesting = n → op s = op' s) (h : Leads n m op') :
    Leads n m op := by
  intro s noted
  rcases h s noted with ⟨s', run, rest⟩ | ⟨e, s', run, rest⟩
  · exact .inl ⟨s', by rw [same s noted, run], rest⟩
  · exact .inr ⟨e, s', by rw [same s noted, run], rest⟩

theorem modify {f : Stream → Stream} (notes : ∀ s : Stream, s.nesting = n → (f s).nesting = m)
    (kept : ∀ s, Continues s (f s)) : Leads n m (modify f) :=
  fun s noted => .inl ⟨f s, rfl, notes s noted, kept s⟩

theorem emit {failure : Error} (other : failure.isRefusal = false) (piece : String) :
    Leads n n (emit failure piece) := by
  intro s noted
  have limit := s.sink.limit_put piece
  cases put : s.sink.put piece with
  | mk sink taken =>
      rw [put] at limit
      cases taken with
      | true =>
          exact .inl ⟨{ s with sink }, by simp [Stream.emit, put], noted, rfl, rfl, rfl, rfl, limit⟩
      | false =>
          refine .inr ⟨failure, { s with sink }, by simp [Stream.emit, put], other, ?_,
            rfl, rfl, rfl, rfl, limit⟩
          intro unlimited
          rw [Sink.put_of_unlimited unlimited] at put
          cases put

theorem punctuation (piece : String) : Leads n n (punctuation piece) := emit rfl piece

theorem scalarText (piece : String) : Leads n n (scalarText piece) := emit rfl piece

theorem setFrames (frames : List Frame) : Leads n ⟨frames, n.started⟩ (setFrames frames) := by
  refine modify (fun s noted => ?_) fun s => ⟨rfl, rfl, rfl, rfl, rfl⟩
  rw [← noted]
  rfl

/-- A step that looks at the stream. -/
theorem look {f : Stream → StreamM Unit} (next : ∀ s : Stream, s.nesting = n → Leads n m (f s)) :
    Leads n m (get >>= f) :=
  fun s noted => next s noted s noted

theorem lookFrames {f : Stream → StreamM Unit}
    (next : ∀ s : Stream, s.frames = n.frames → Leads n m (f s)) : Leads n m (get >>= f) :=
  look fun s noted => next s (congrArg Nesting.frames noted)

theorem newline : Leads n n newline := by
  apply look
  intro s _
  split
  · exact punctuation _
  · exact pure

theorem beginValue (inside : n.inside? = some m) : Leads n m beginValue := by
  apply lookFrames
  intro s frames
  rcases n with ⟨_ | ⟨⟨members, _ | _⟩ | items, rest⟩, started⟩
  · cases started
    · obtain rfl := Option.some.inj inside
      simp only [frames]
      apply look
      intro s noted
      have unwritten : s.rootWritten = false := congrArg Nesting.started noted
      rw [if_neg (by simp [unwritten])]
      refine modify (fun s noted => ?_) fun s => ⟨rfl, rfl, rfl, rfl, rfl⟩
      exact congrArg (Nesting.mk · true) (congrArg Nesting.frames noted)
    · cases inside
  · cases inside
  · obtain rfl := Option.some.inj inside
    simp only [frames]
    exact setFrames _
  · obtain rfl := Option.some.inj inside
    simp only [frames]
    refine (setFrames _).seq ?_
    split
    · exact (punctuation ",").seq newline
    · exact newline

theorem beginContainer (inside : n.inside? = some m) (bracket : String) (frame : Frame) :
    Leads n (m.enter frame) (beginContainer bracket frame) := by
  refine (beginValue inside).seq ((punctuation bracket).seq ?_)
  refine modify (fun s noted => ?_) fun s => ⟨rfl, rfl, rfl, rfl, rfl⟩
  rw [← noted]
  rfl

theorem endContainer (bracket : String) (rest : List Frame) (count : Nat) :
    Leads n ⟨rest, n.started⟩ (endContainer bracket rest count) := by
  refine (setFrames rest).seq ?_
  split
  · exact newline.seq (punctuation bracket)
  · exact punctuation bracket

/-- A permitted call. -/
theorem perform {c : Call} (permitted : n.accept c = some m) : Leads n m (perform c) := by
  cases c with
  | startObject | startSequence =>
      obtain ⟨l, inside, rfl⟩ := Option.map_eq_some_iff.mp permitted
      exact beginContainer inside _ _
  | value v => exact (beginValue permitted).seq (scalarText _)
  | name key =>
      apply lookFrames
      intro s frames
      rcases n with ⟨_ | ⟨⟨members, _ | _⟩ | items, rest⟩, started⟩ <;> try cases permitted
      simp only [frames]
      refine (setFrames _).seq ?_
      have spelt {n : Nesting} : Leads n n (do
          Stream.newline
          Stream.scalarText (Json.quote key)
          Stream.punctuation (if (← get).settings.pretty then ": " else ":")) :=
        newline.seq ((scalarText _).seq (look fun s _ => punctuation _))
      split
      · exact (punctuation ",").seq spelt
      · exact spelt
  | endObject =>
      apply lookFrames
      intro s frames
      rcases n with ⟨_ | ⟨⟨members, _ | _⟩ | items, rest⟩, started⟩ <;> try cases permitted
      simp only [frames]
      exact endContainer _ _ _
  | endSequence =>
      apply lookFrames
      intro s frames
      rcases n with ⟨_ | ⟨⟨members, _ | _⟩ | items, rest⟩, started⟩ <;> try cases permitted
      simp only [frames]
      exact endContainer _ _ _

end Leads

theorem refuses_beginValue (outside : s.nesting.inside? = none) : Refuses beginValue s := by
  obtain ⟨sink, settings, frames, started, writers, grant, nextToken⟩ := s
  rcases frames with _ | ⟨⟨members, _ | _⟩ | items, rest⟩
  · cases started
    · cases outside
    · exact ⟨.invalidOperation .secondRoot, rfl, rfl⟩
  · exact ⟨.invalidOperation .valueWithoutName, rfl, rfl⟩
  · cases outside
  · cases outside

/-- A call that is not permitted. -/
theorem refuses_of_accept {c : Call} (forbidden : s.nesting.accept c = none) :
    Refuses (perform c) s := by
  cases c with
  | startObject | startSequence | value =>
      refine Refuses.bind (refuses_beginValue ?_) _
      simpa [Nesting.accept] using forbidden
  | name key =>
      obtain ⟨sink, settings, frames, started, writers, grant, nextToken⟩ := s
      rcases frames with _ | ⟨⟨members, _ | _⟩ | items, rest⟩
      · exact ⟨.invalidOperation (.nameOutsideObject key), rfl, rfl⟩
      · cases forbidden
      · exact ⟨.invalidOperation (.unansweredName key), rfl, rfl⟩
      · exact ⟨.invalidOperation (.nameOutsideObject key), rfl, rfl⟩
  | endObject =>
      obtain ⟨sink, settings, frames, started, writers, grant, nextToken⟩ := s
      rcases frames with _ | ⟨⟨members, _ | _⟩ | items, rest⟩
      · exact ⟨.invalidOperation .noOpenObject, rfl, rfl⟩
      · cases forbidden
      · exact ⟨.invalidOperation .objectEndsOnName, rfl, rfl⟩
      · exact ⟨.invalidOperation .noOpenObject, rfl, rfl⟩
  | endSequence =>
      obtain ⟨sink, settings, frames, started, writers, grant, nextToken⟩ := s
      rcases frames with _ | ⟨⟨members, _ | _⟩ | items, rest⟩
      · exact ⟨.invalidOperation .noOpenSequence, rfl, rfl⟩
      · exact ⟨.invalidOperation .noOpenSequence, rfl, rfl⟩
      · exact ⟨.invalidOperation .noOpenSequence, rfl, rfl⟩
      · cases forbidden

/-- Whatever becomes of a call, it leaves alone what has to do with writers. -/
theorem continues_perform (c : Call) : Moves Continues (perform c) := by
  intro s
  cases permitted : s.nesting.accept c with
  | none =>
      obtain ⟨e, -, refused⟩ := refuses_of_accept permitted
      rw [behind_of_error refused]
      exact refl s
  | some n =>
      rcases Leads.perform permitted s rfl with ⟨s', run, -, kept⟩ | ⟨e, s', run, -, -, kept⟩
      · rwa [behind_of_ok run]
      · rwa [behind_of_error run]

/-! ## Sequences of calls -/

/-- Makes calls one after the other, up to the first that fails. -/
def performs (calls : List Call) : StreamM Unit := calls.forM perform

@[simp] theorem performs_nil : performs [] = pure () := rfl

theorem performs_cons (c : Call) (calls : List Call) :
    performs (c :: calls) = (do perform c; performs calls) := rfl

theorem performs_append (a b : List Call) :
    performs (a ++ b) = (do performs a; performs b) := List.forM_append

@[simp] theorem performs_singleton (c : Call) : performs [c] = perform c := bind_pure_unit

theorem continues_performs (calls : List Call) : Moves Continues (performs calls) := by
  induction calls with
  | nil => exact moves_pure ()
  | cons c calls ih => exact (continues_perform c).bind fun _ => ih

theorem Leads.performs {calls : List Call} (permitted : n.acceptAll calls = some m) :
    Leads n m (performs calls) := by
  induction calls generalizing n with
  | nil =>
      obtain rfl : n = m := Option.some.inj permitted
      exact pure
  | cons c calls ih =>
      obtain ⟨l, first, rest⟩ := Option.bind_eq_some_iff.mp permitted
      exact (perform first).seq (ih rest)

theorem performs_flatMap {α : Type} (calls : α → List Call) (xs : List α) :
    performs (xs.flatMap calls) = xs.forM fun x => performs (calls x) := by
  induction xs with
  | nil => rfl
  | cons x xs ih => rw [List.flatMap_cons, performs_append, ih]; rfl

theorem values_eq_performs (cs : List Scalar) :
    values cs = performs (Tree.itemCalls (cs.map .scalar)) := by
  rw [Tree.itemCalls_scalars, performs_flatMap]
  simp only [performs_singleton]
  rfl

/-- Items between the brackets of an array. -/
theorem array_eq_performs (items : List Tree) :
    (do startSequence; performs (Tree.itemCalls items); endSequence) =
      performs (Tree.array items).calls := by
  rw [Tree.calls, performs_cons, performs_append, performs_singleton]
  rfl

theorem literal_eq_performs (k : Kind) (e : k.Encoding) (v : k.Value) :
    literal k e v = performs (Tree.ofLiteral k e v).calls := by
  have length := k.length_components e v
  unfold literal Tree.ofLiteral
  split
  next single =>
    obtain ⟨c, one⟩ := List.length_eq_one_iff.mp (length.trans single)
    rw [one]
    exact (values_eq_performs [c]).trans (congrArg performs (List.append_nil _))
  next several =>
    split
    next c one => exact absurd (by rw [← length, one, List.length_singleton]) several
    next => rw [values_eq_performs, array_eq_performs]

theorem samples_eq_performs (k : Kind) (e : k.Encoding) (epoch : Option Instant)
    (s : TimeSeries k.Value) :
    samples k e epoch s = performs (Tree.ofSamples k e epoch s).calls := by
  rw [Tree.ofSamples, ← array_eq_performs, Tree.itemCalls_flatMap, performs_flatMap, samples]
  simp only [values_eq_performs]
  rfl

end Stream

/-- What completes a property makes the closing calls of its scope. -/
theorem Property.complete_eq_performs (scope : Property.Scope) :
    complete scope = Stream.performs scope.closing := by
  cases scope with
  | unopened =>
      rw [Scope.closing, Stream.performs_cons, Stream.performs_singleton]
      rfl
  | object => exact (Stream.performs_singleton .endObject).symm
  | bare | intervals => rfl

end SceneStream
