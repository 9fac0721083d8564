import SceneStream.Proofs.Session.Turnout
import SceneStream.Proofs.Structure.RoundTrip

/-!
# A document reads back as its outline

Commands follow each other in any order, answered or refused, and the session stays what the outline
of the answered ones describes. When the document is finished, its text is one JSON array with the
items of that outline.
-/

namespace SceneStream.Session

variable {s s' s₀ : Session} {o : Outline} {c : Command} {cs : List Command} {settings : Settings}
  {reply : Reply}

/-! ## A new session -/

/-- A session as a program begins it: with a document, or with a stream and nothing on it. -/
def new (document : Bool) (sink : Sink) (settings : Settings) : Except Error Session :=
  if document then ofDocument sink settings else .ok (ofStream sink settings)

/-- The session of a new document. -/
def newDocument (settings : Settings) : Session where
  stream := { sink := { text := "[" }, settings, frames := [.array 0], rootWritten := true }
  document := some {}

theorem ofDocument_eq (settings : Settings) :
    ofDocument {} settings = .ok (newDocument settings) := rfl

theorem stateAt_new (stream : Stream) (document : Option Document) (q : Place) :
    stateAt { stream, document } q = fresh q := by
  cases q <;> rfl

/-- Nobody has a writer in a new session, and nothing is written. -/
theorem stands_new {stream : Stream} {document : Option Document} {alone : Bool}
    (writers : stream.writers = []) (grant : stream.grant = none)
    (shows : stream.Shows (Outline.draft { alone })) :
    Stands { stream, document } { alone } := by
  refine ⟨grant, [], Outline.sound_empty alone, shows, ?_, rfl, ?_⟩
  · refine ⟨writers, by simp [writers], by simp [writers], ?_, trivial⟩
    intro q t st
    rw [stateAt_new, WriterState.shown?_of_token? (token?_fresh q)]
    simp
  · intro q
    rw [stateAt_new]
    exact isRegular_fresh q

theorem stands_ofDocument (made : ofDocument {} settings = .ok s) : s.Stands {} := by
  obtain ⟨text, run, shows⟩ := Stream.makes_perform .startSequence (Stream.shows_blank settings)
    (Outline.sound_empty false).acceptAll_calls
  have start : Stream.startSequence { settings } =
      .ok () (Stream.drawn { settings } text (Outline.draft {})) := run
  rw [ofDocument, start] at made
  obtain rfl := Except.ok.inj made
  exact stands_new rfl rfl shows

theorem stands_ofStream (settings : Settings) : (ofStream {} settings).Stands { alone := true } :=
  stands_new rfl rfl (Stream.shows_blank settings)

theorem stands_of_new {document : Bool} (begun : new document {} settings = .ok s) :
    s.Stands { alone := !document } := by
  cases document with
  | true => exact stands_ofDocument begun
  | false =>
      obtain rfl := Except.ok.inj begun
      exact stands_ofStream settings

/-- No writer is open in a new session. -/
theorem stateAt_of_new {document : Bool} (begun : new document {} settings = .ok s) (q : Place) :
    s.stateAt q = fresh q := by
  cases document with
  | true =>
      obtain rfl := Except.ok.inj ((ofDocument_eq settings).symm.trans begun)
      exact stateAt_new _ _ q
  | false =>
      obtain rfl := Except.ok.inj begun
      exact stateAt_new _ _ q

/-! ## Runs -/

/-- However a command turns out, the session stays what the outline describes. -/
theorem Stands.step (stands : s.Stands o) (writing : c.isWriting = true) :
    (s.step c).2.Stands (o.afterAll (s.described c)) := by
  unfold described
  cases stands.turnout writing with
  | misdirected step => rwa [step]
  | answered reply s' step stands => rwa [step]
  | rejected e s' step refusal whole agrees =>
      have nothing : s.remnants c = [] := by
        cases c with
        | parent => simp [remnants, whole]
        | _ => rfl
      have kept : (s.surrender c).Stands o := by
        unfold surrender
        split
        · exact stands.setDocument none
        · exact stands
      rw [step]
      simpa [nothing] using agrees.stands kept
  | emptied a p h child content e s' command found member step refusal opens leaves stands =>
      rwa [step]

theorem Stands.run (stands : s.Stands o) (writing : ∀ c ∈ cs, c.isWriting = true) :
    (s.run cs).Stands (s.describe o cs) := by
  induction cs generalizing s o with
  | nil => exact stands
  | cons c cs ih =>
      obtain ⟨first, rest⟩ := List.forall_mem_cons.mp writing
      exact ih (stands.step first) rest

theorem alone_describe (s : Session) (o : Outline) (cs : List Command) :
    (s.describe o cs).alone = o.alone := by
  induction cs generalizing s o with
  | nil => rfl
  | cons c cs ih => rw [describe, ih, Outline.alone_afterAll]

theorem answered_of_answers (h : s.answers c = true) :
    ∃ reply, (s.step c).1 = .answered reply := by
  unfold answers at h
  split at h
  next reply step => exact ⟨reply, step⟩
  all_goals cases h

/-- The text of a session whose document is finished. -/
theorem Tells.parse? {roll : List Opening} (tells : s.Tells o roll) (document : o.alone = false)
    (finished : o.finished = true) :
    Json.parse? s.stream.sink.contents = some (Tree.array o.items).json := by
  have shows := tells.shows
  obtain ⟨t, whole, array⟩ := tells.sound.draft_finished finished
  rw [whole, array document] at shows
  exact Stream.parse?_of_shows_complete shows

/-- The text of a finished document is one array, with what the answered commands describe and
nothing else: an item for each packet, and one for each other writer that was opened on the
document's output itself, in the order in which they were opened. -/
theorem parse?_of_finished (made : ofDocument {} settings = .ok s₀)
    (writing : ∀ c ∈ cs, c.isWriting = true)
    (finished : (s₀.run cs).answers (.document .finish) = true) :
    Json.parse? ((s₀.run cs).step (.document .finish)).2.stream.sink.contents =
        some (Tree.array (s₀.describe {} cs).items).json ∧
      ∀ t ∈ (s₀.describe {} cs).items, t.IsItem := by
  have ended := ((stands_ofDocument made).run writing).step (c := .document .finish) rfl
  have described : (s₀.run cs).described (.document .finish) = [.finish] := by
    obtain ⟨reply, answered⟩ := answered_of_answers finished
    rw [Session.described, answered]
    rfl
  rw [described] at ended
  obtain ⟨-, roll, tells⟩ := ended
  exact ⟨tells.parse? (alone_describe _ _ _) rfl, tells.sound.items⟩

/-- An identifier without characters and a text that is no reference, both refused. -/
def refusingPacket : List Command :=
  let packet : Address := { root := .document }
  let box : Address := packet.child "box"
  [.document .openPacket, .packet packet (.id ""), .packet packet (.id "a"),
    .parent packet (.startChild "box"), .parent box (.referChild "show" (.text "elsewhere")),
    .parent box (.writeChild "fill" .boolean () (.literal true)), .writer box .finish,
    .writer packet .finish]

theorem parse?_of_refusingPacket :
    ofDocument {} {} = .ok (newDocument {}) ∧ (∀ c ∈ refusingPacket, c.isWriting = true) ∧
      ((newDocument {}).run refusingPacket).answers (.document .finish) = true ∧
      Json.parse?
          (((newDocument {}).run refusingPacket).step (.document .finish)).2.stream.sink.contents =
        some (Tree.array ((newDocument {}).describe {} refusingPacket).items).json ∧
      ∀ t ∈ ((newDocument {}).describe {} refusingPacket).items, t.IsItem :=
  ⟨ofDocument_eq {}, by decide, by decide +kernel,
    parse?_of_finished (ofDocument_eq {}) (by decide) (by decide +kernel)⟩

/-- A list of intervals that is closed, and opened again on the output of the document. -/
def reopenedList : List Command :=
  let packet : Address := { root := .document }
  let description : Address := packet.child "description"
  [.document .openPacket, .parent packet (.startChild "description"),
    .property description (.startIntervals "list"), .list "list" .finish,
    .writer description .finish, .writer packet .finish, .list "list" .start, .list "list" .finish]

/-- Not every item of a document is an object. -/
theorem array_of_reopenedList :
    ofDocument {} {} = .ok (newDocument {}) ∧ (∀ c ∈ reopenedList, c.isWriting = true) ∧
      ((newDocument {}).run reopenedList).answers (.document .finish) = true ∧
      Json.parse?
          (((newDocument {}).run reopenedList).step (.document .finish)).2.stream.sink.contents =
        some (.array [.object [(some "description", .array [])], .array []]) := by
  have text : (((newDocument {}).run reopenedList).step (.document .finish)).2.stream.sink.contents =
      "[\x7b\"description\":[]\x7d,[]]" := by decide +kernel
  refine ⟨ofDocument_eq {}, by decide, by decide +kernel, ?_⟩
  rw [text]
  rfl

end SceneStream.Session
