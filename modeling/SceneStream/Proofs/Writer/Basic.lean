import SceneStream.Proofs.Outline.Part
import SceneStream.Proofs.Structure.Writes

/-!
# Operations of one writer

An operation of a writer is described by three things: when it is refused, the calls it makes
otherwise, and the state of the writer behind it. Only the stream's text and frames change with the
calls, so one stream `s` stands for all that an operation meets on its way.
-/

namespace SceneStream

namespace Stream

/-- The stream with one more writer open. -/
def opened (s : Stream) : Stream :=
  { s with nextToken := s.nextToken + 1, grant := none, writers := s.nextToken :: s.writers }

/-- The stream without its innermost writer. -/
def closed (s : Stream) : Stream := { s with writers := s.writers.tail, grant := none }

/-- The stream with a place for one child of this opening. -/
def granting (s : Stream) (t : Token) : Stream := { s with grant := some t }

/-- Whether a writer may be opened now. -/
def MayOpen (s : Stream) : Prop := s.active? = none ∨ s.grant = s.active?

variable {s : Stream} {d : Draft} {t : Token}

theorem Shows.opened (h : s.Shows d) : s.opened.Shows d := ⟨h.sink, h.frames, h.started, h.reads⟩

theorem Shows.closed (h : s.Shows d) : s.closed.Shows d := ⟨h.sink, h.frames, h.started, h.reads⟩

theorem expectActive_ok (h : s.active? = some t) : expectActive t s = .ok () s :=
  (expectActive_apply t s).trans (if_pos h)

theorem refuses_expectActive (h : s.active? ≠ some t) : Refuses (expectActive t) s :=
  ⟨_, rfl, (expectActive_apply t s).trans (if_neg h)⟩

theorem eq_of_expectActive {s' : Stream} {u : Unit} (h : expectActive t s = .ok u s') : s' = s := by
  rw [expectActive_apply] at h
  split at h
  · exact (EStateM.Result.ok.inj h).2.symm
  · cases h

theorem expectCanOpen_ok (h : s.MayOpen) : expectCanOpen s = .ok () s :=
  (expectCanOpen_apply s).trans (if_pos h)

theorem refuses_expectCanOpen (h : ¬ s.MayOpen) : Refuses expectCanOpen s :=
  ⟨_, rfl, (expectCanOpen_apply s).trans (if_neg h)⟩

theorem beginWriter_ok (h : s.MayOpen) : beginWriter s = .ok s.nextToken s.opened := by
  rw [beginWriter, bind_of_ok (expectCanOpen_ok h)]
  rfl

theorem endWriter_ok (h : s.active? = some t) : endWriter t s = .ok () s.closed := by
  rw [endWriter, bind_of_ok (expectActive_ok h)]
  rfl

theorem grantChild_ok (h : s.active? = some t) : grantChild t s = .ok () (s.granting t) := by
  rw [grantChild, bind_of_ok (expectActive_ok h)]
  rfl

end Stream

namespace Writing

variable {ω α : Type} {s : Stream} {own own' own'' : ω} {a b : List Call}

theorem ok_of_onStream {op : StreamM α} {a : α} {w w' : Writing ω}
    (h : onStream op w = .ok a w') :
    ∃ s', op w.stream = .ok a s' ∧ w' = { w with stream := s' } := by
  cases run : op w.stream with
  | ok b s' =>
      rw [onStream, run] at h
      obtain ⟨rfl, rfl⟩ := EStateM.Result.ok.inj h
      exact ⟨s', rfl, rfl⟩
  | error e s' => simp [onStream, run] at h

/-- On a stream like this one, the operation makes the calls and leaves the writer in the second
state, wherever all of the calls are permitted. -/
def Draws (s : Stream) (own : ω) (op : WriterM ω Unit) (calls : List Call) (own' : ω) : Prop :=
  ∀ ⦃text : String⦄ ⦃d e : Draft⦄, (s.drawn text d).Shows d → d.acceptAll calls = some e →
    ∃ text', op ⟨s.drawn text d, own⟩ = .ok () ⟨s.drawn text' e, own'⟩ ∧
      (s.drawn text' e).Shows e

theorem draws_onStream {op : StreamM Unit} (h : Stream.Makes op a) :
    Draws s own (onStream op) a own := by
  intro text d e shows accepted
  obtain ⟨text', run, shown⟩ := h shows accepted
  exact ⟨text', by rw [onStream, run]; rfl, shown⟩

theorem draws_setOwn : Draws s own (setOwn own') [] own' := by
  intro text d e shows accepted
  obtain rfl : d = e := Option.some.inj accepted
  exact ⟨text, rfl, shows⟩

theorem Draws.seq {op op' : WriterM ω Unit} (first : Draws s own op a own')
    (second : Draws s own' op' b own'') : Draws s own (do op; op') (a ++ b) own'' := by
  intro text d f shows accepted
  rw [Draft.acceptAll_append] at accepted
  obtain ⟨e, before, after⟩ := Option.bind_eq_some_iff.mp accepted
  obtain ⟨text', run, shown⟩ := first shows before
  obtain ⟨text'', run', shown'⟩ := second shown after
  exact ⟨text'', by rw [bind_of_ok run, run'], shown'⟩

/-- Checks that pass do not count. -/
theorem Draws.of_eq {op op' : WriterM ω Unit}
    (same : ∀ text d, op ⟨s.drawn text d, own⟩ = op' ⟨s.drawn text d, own⟩)
    (h : Draws s own op' a own') : Draws s own op a own' := by
  intro text d e shows accepted
  rw [same]
  exact h shows accepted

/-- The last step notes what was done. -/
theorem Draws.note {op : WriterM ω Unit} (h : Draws s own op a own') (f : ω → ω) :
    Draws s own (do op; setOwn (f (← getOwn))) a (f own') := by
  have noted : Draws s own' (setOwn (f own')) [] (f own') := draws_setOwn
  rw [← List.append_nil a]
  exact h.seq (noted.of_eq fun _ _ => rfl)

/-- An operation that draws is answered on the stream it is described for. -/
theorem Draws.run {op : WriterM ω Unit} {d e : Draft} (h : Draws s own op a own')
    (shows : s.Shows d) (accepted : d.acceptAll a = some e) :
    ∃ text, op ⟨s, own⟩ = .ok () ⟨s.drawn text e, own'⟩ ∧ (s.drawn text e).Shows e := by
  have here := @h s.sink.text d e
  rw [shows.drawn_self] at here
  exact here shows accepted

theorem refuses_onStream {op : StreamM α} (h : Refuses op s) :
    Refuses (onStream op : WriterM ω α) ⟨s, own⟩ := by
  obtain ⟨e, refusal, run⟩ := h
  exact ⟨e, refusal, by rw [onStream, run]⟩

end Writing

end SceneStream
