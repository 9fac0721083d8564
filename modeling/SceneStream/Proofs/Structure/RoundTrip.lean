import SceneStream.Proofs.Structure.Showing

/-!
# The text gives back what was put in

For any sequence of structural calls on a new stream, permitted or not and in any layout: whenever a
whole root value has been written, reading the text gives the tree that the accepted calls describe.
Its names and strings are the very texts that were passed, and its numbers keep their spelling.
-/

namespace SceneStream

/-- The stream shows the draft that its accepted calls lead to, whatever became of the others. -/
theorem Stream.performAll_shows {s : Stream} {d : Draft} (h : s.Shows d) (calls : List Call) :
    ∃ e, (s.performAll calls).2.Shows e ∧ d.acceptAll (s.performAll calls).1 = some e := by
  induction calls generalizing s d with
  | nil => exact ⟨d, h, rfl⟩
  | cons c calls ih =>
      rw [performAll]
      cases permitted : d.accept c with
      | none =>
          obtain ⟨error, -, refused⟩ := refuses_perform h permitted
          rw [refused]
          exact ih h
      | some next =>
          obtain ⟨text, run, shows⟩ := perform_of_accept h permitted
          rw [run]
          obtain ⟨e, shown, rest⟩ := ih shows
          refine ⟨e, shown, ?_⟩
          rw [Draft.acceptAll_cons, permitted]
          exact rest

/-- A stream that shows a whole tree holds a text of that tree. -/
theorem Stream.parse?_of_shows_complete {s : Stream} {t : Tree} (h : s.Shows (.complete t)) :
    Json.parse? s.sink.contents = some t.json := by
  rw [h.contents]
  exact Json.parse?_of_reads h.reads

/-- A stream whose text is read as a whole shows a whole tree. -/
theorem Stream.complete_of_parse? {s : Stream} {d : Draft} {v : Json} (h : s.Shows d)
    (parsed : Json.parse? s.sink.contents = some v) : ∃ t, d = .complete t ∧ v = t.json := by
  rw [h.contents] at parsed
  have turn := Json.turn_of_parse? h.reads parsed
  cases d with
  | complete t =>
      obtain rfl := Json.Turn.complete.inj turn
      exact ⟨t, rfl, rfl⟩
  | blank | named => cases turn
  | array | object =>
      simp only [Draft.assembly] at turn
      split at turn <;> cases turn

/-- Whenever a root value is written and no container is open, the sink holds one JSON text, and its
tree is the one that the accepted calls describe, and no other. -/
theorem Stream.parse?_performAll (settings : Settings) (calls : List Call)
    (rootWritten : (performAll { settings } calls).2.rootWritten = true)
    (closed : (performAll { settings } calls).2.depth = 0) :
    ∃! t : Tree, t.calls = (performAll { settings } calls).1 ∧
      Json.parse? (performAll { settings } calls).2.sink.contents = some t.json := by
  obtain ⟨d, shows, accepted⟩ := performAll_shows (shows_blank settings) calls
  have started : d.started = true := shows.started.symm.trans rootWritten
  have frames : d.frames = [] := by
    rw [← shows.frames]
    exact List.eq_nil_of_length_eq_zero closed
  obtain ⟨t, rfl⟩ := Draft.eq_complete_of_frames started frames
  have described : t.calls = (performAll { settings } calls).1 := Draft.calls_acceptAll accepted
  refine ⟨t, ⟨described, parse?_of_shows_complete shows⟩, ?_⟩
  rintro u ⟨sameCalls, -⟩
  exact Tree.calls_injective (sameCalls.trans described.symm)

/-- A value without a name and a bracket too many are refused in between, and leave no trace in an
indented object. -/
theorem Stream.parse?_performAll_indented :
    let calls : List Call := [.startObject, .value (.bool true), .name "a\n", .startSequence,
      .value (.integer (-7)), .value (.text "\"\\é"), .endObject, .endSequence, .endObject]
    let run := performAll { settings := { pretty := true, indent := 4 } } calls
    run.2.rootWritten = true ∧ run.2.depth = 0 ∧
      ∃! t : Tree, t.calls = run.1 ∧ Json.parse? run.2.sink.contents = some t.json :=
  ⟨rfl, rfl, parse?_performAll { pretty := true, indent := 4 } _ rfl rfl⟩

end SceneStream
