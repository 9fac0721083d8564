import SceneStream.Proofs.Session.Advance
import SceneStream.Proofs.Session.Refusal
import SceneStream.Proofs.Structure.RoundTrip

/-!
# What finishing a document ends

Finishing a document asks for no open writer and for an array that is innermost, and ends this array.
Writers leave no containers behind, so after writers alone it is the array of packets. A program that
also calls the stream itself may have left others open: then the document is said to be finished, and
its text is no JSON text.
-/

namespace SceneStream

namespace Draft

variable {d e : Draft}

/-- Only the end of an array ends a sequence. -/
theorem array_of_accept_endSequence (h : d.accept .endSequence = some e) :
    ∃ items outer, d = array items outer ∧ e = place outer (.array items) := by
  cases d with
  | array items outer => exact ⟨items, outer, rfl, (Option.some.inj h).symm⟩
  | blank | complete | object | named => cases h

end Draft

namespace Session

variable {s s' s₀ : Session} {settings : Settings} {cs : List Command}

/-- A document that is finished lets go of the innermost array, and is whole if no container was around
it. -/
structure EndsInnermost (s s' : Session) : Prop where
  writers : s.stream.writers = []
  array : ∃ items, s.stream.frames = .array items :: s'.stream.frames
  whole : s'.stream.depth = 0 →
    ∃ items, Json.parse? s'.stream.sink.contents = some (.array items)
  part : s'.stream.depth ≠ 0 → Json.parse? s'.stream.sink.contents = none

theorem ok_of_onStream {α : Type} {op : StreamM α} {a : α} (run : onStream op s = .ok a s') :
    op s.stream = .ok a s'.stream := by
  unfold onStream at run
  cases done : op s.stream with
  | ok b stream =>
      rw [done] at run
      obtain ⟨rfl, rfl⟩ := EStateM.Result.ok.inj run
      rfl
  | error e stream =>
      rw [done] at run
      cases run

/-- Finishing a document makes one call, which is permitted if it is answered. -/
theorem ok_of_finishDocument {d : Draft} (shows : s.stream.Shows d)
    (run : finishDocument s = .ok () s') :
    s.stream.writers = [] ∧ ∃ e, d.accept .endSequence = some e ∧ s'.stream.Shows e := by
  by_cases writers : s.stream.writers = []
  · refine ⟨writers, ?_⟩
    rw [finishDocument_of_closed writers] at run
    obtain ⟨_, stream, ended, flushed⟩ := ok_of_bind (ok_of_onStream run)
    cases permitted : d.accept .endSequence with
    | none =>
        obtain ⟨e, -, refused⟩ := Stream.refuses_perform shows permitted
        cases ended.symm.trans refused
    | some e =>
        obtain ⟨text, done, shown⟩ := Stream.perform_of_accept shows permitted
        obtain rfl := (EStateM.Result.ok.inj (ended.symm.trans done)).2
        obtain same := (EStateM.Result.ok.inj (flushed.symm.trans (flush_ok shown))).2
        exact ⟨e, rfl, same ▸ shown⟩
  · rw [finishDocument_of_open writers] at run
    cases run

/-- However a document was written to, finishing it ends the innermost container, which is an array,
and the text is whole exactly if there was no other. -/
theorem endsInnermost_finish (made : ofDocument {} settings = .ok s₀) (cs : List Command)
    (finished : (s₀.run cs).answers (.document .finish) = true) :
    EndsInnermost (s₀.run cs) ((s₀.run cs).step (.document .finish)).2 := by
  obtain ⟨call, reply, called, run⟩ := run_of_answers finished
  obtain ⟨document, -, rfl⟩ := Option.map_eq_some_iff.mp called
  have anyCall : ∀ c : Call, c.isFinite = true → True := fun _ _ => trivial
  obtain ⟨d, calls, shows, -, -⟩ := shows_run made anyCall fun _ _ => trivial
  obtain ⟨writers, e, ended, shown⟩ := ok_of_finishDocument shows (ok_of_doing run)
  obtain ⟨items, outer, rfl, rfl⟩ := Draft.array_of_accept_endSequence ended
  have frames := shown.frames
  rw [Draft.frames_place] at frames
  have depth : ((s₀.run cs).step (.document .finish)).2.stream.depth = outer.length := by
    rw [Stream.depth, frames, List.length_map]
  refine ⟨writers, ⟨items.length, ?_⟩, fun closed => ?_, fun open_ => ?_⟩
  · rw [shows.frames, frames]
    rfl
  · obtain rfl := List.eq_nil_of_length_eq_zero (depth.symm.trans closed)
    exact ⟨_, Stream.parse?_of_shows_complete shown⟩
  · cases parsed : Json.parse? ((s₀.run cs).step (.document .finish)).2.stream.sink.contents with
    | none => rfl
    | some v =>
        obtain ⟨t, whole, -⟩ := Stream.complete_of_parse? shown parsed
        have closed := congrArg Draft.frames whole
        rw [Draft.frames_place] at closed
        rw [depth, List.map_eq_nil_iff.mp closed] at open_
        exact absurd rfl open_

/-- A packet that is closed, and a sequence that the program leaves open. -/
def leftSequence : List Command :=
  [.document .openPacket, .writer { root := .document } .finish, .stream .startSequence]

theorem endsInnermost_leftSequence :
    ofDocument {} {} = .ok (newDocument {}) ∧
      ((newDocument {}).run leftSequence).answers (.document .finish) = true ∧
      EndsInnermost ((newDocument {}).run leftSequence)
        (((newDocument {}).run leftSequence).step (.document .finish)).2 :=
  ⟨ofDocument_eq {}, by decide +kernel,
    endsInnermost_finish (ofDocument_eq {}) leftSequence (by decide +kernel)⟩

/-- Not every document that is finished is complete. -/
theorem open_of_startSequence :
    let s := (newDocument {}).run [.stream .startSequence]
    ofDocument {} {} = .ok (newDocument {}) ∧ s.answers (.document .finish) = true ∧
      (s.step (.document .finish)).2.stream.depth = 1 ∧
      (s.step (.document .finish)).2.stream.sink.contents = "[[]" ∧
      Json.parse? (s.step (.document .finish)).2.stream.sink.contents = none :=
  ⟨ofDocument_eq {}, by decide +kernel, by decide +kernel, by decide +kernel, by rfl⟩

end Session

end SceneStream
