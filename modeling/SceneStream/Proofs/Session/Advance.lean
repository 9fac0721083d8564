import SceneStream.Proofs.Comparison.Alone
import SceneStream.Proofs.Session.Refinement

/-!
# Whatever is done to a document

The commands of a program reach the stream by structural calls only, and those that are not permitted
leave no trace. So whatever commands there are, its own calls of the stream among them, a stream that
shows a draft goes on to one that shows the draft behind a few more calls.
-/

namespace SceneStream

namespace Stream

variable {admits : Call → Prop} {s : Stream} {c : Call}

/-- From any draft that one stream shows, admitted calls lead to a draft that the other one shows. -/
def Advances (admits : Call → Prop) (s s' : Stream) : Prop :=
  ∀ d, s.Shows d → ∃ calls e, (∀ c ∈ calls, admits c) ∧ d.acceptAll calls = some e ∧ s'.Shows e

instance : IsPreorder Stream (Advances admits) where
  refl _ d shows := ⟨[], d, fun _ mem => absurd mem List.not_mem_nil, rfl, shows⟩
  trans _ _ _ first second d shows := by
    obtain ⟨calls, e, admitted, accepted, shown⟩ := first d shows
    obtain ⟨calls', e', admitted', accepted', shown'⟩ := second e shown
    refine ⟨calls ++ calls', e', ?_, ?_, shown'⟩
    · intro c mem
      exact (List.mem_append.mp mem).elim (admitted c) (admitted' c)
    · rw [Draft.acceptAll_append, accepted, Option.bind_some, accepted']

theorem advances_perform (admitted : admits c) : Moves (Advances admits) (perform c) := by
  intro s d shows
  cases permitted : d.accept c with
  | none =>
      obtain ⟨e, -, refused⟩ := refuses_perform shows permitted
      rw [behind_of_error refused]
      exact ⟨[], d, fun _ mem => absurd mem List.not_mem_nil, rfl, shows⟩
  | some e =>
      obtain ⟨text, run, shown⟩ := perform_of_accept shows permitted
      rw [behind_of_ok run]
      refine ⟨[c], e, List.forall_mem_singleton.mpr admitted, ?_, shown⟩
      rw [Draft.acceptAll_cons, permitted, Option.bind_some, Draft.acceptAll_nil]

theorem advances_flush : Moves (Advances admits) flush := by
  apply Moves.look
  intro s
  split
  · exact moves_throw _
  · exact moves_pure ()

theorem advances_turns (s : Stream) (writers : List Token) (grant : Option Token)
    (nextToken : Token) : Advances admits s { s with writers, grant, nextToken } := by
  intro d shows
  refine ⟨[], d, fun _ mem => absurd mem List.not_mem_nil, rfl, ?_⟩
  exact ⟨shows.sink, shows.frames, shows.started, shows.reads⟩

end Stream

namespace Session

variable {admits : Call → Prop} {settings : Settings} {s₀ : Session} {cs : List Command}

/-- Runs of any commands make calls, all of them with finite numbers but for those of the program's
own. -/
theorem advances_run (finite : ∀ c : Call, c.isFinite = true → admits c)
    (own : ∀ v, .stream (.value v) ∈ cs → admits (.value v)) (s : Session) :
    Stream.Advances admits s.stream (s.run cs).stream := by
  apply moves_run
  · exact fun c isFinite => Stream.advances_perform (finite c isFinite)
  · exact fun v mem => Stream.advances_perform (c := .value v) (own v mem)
  · exact Stream.advances_flush
  · exact Stream.advances_turns

/-- However a document is written to, its text is that of calls behind the one that began its array. -/
theorem shows_run (made : ofDocument {} settings = .ok s₀)
    (finite : ∀ c : Call, c.isFinite = true → admits c)
    (own : ∀ v, .stream (.value v) ∈ cs → admits (.value v)) :
    ∃ d calls, (s₀.run cs).stream.Shows d ∧ d.calls = .startSequence :: calls ∧
      ∀ c ∈ calls, admits c := by
  obtain ⟨-, roll, tells⟩ := stands_ofDocument made
  obtain ⟨calls, d, admitted, accepted, shows⟩ := advances_run finite own s₀ _ tells.shows
  refine ⟨d, calls, shows, ?_, admitted⟩
  have begun := Draft.calls_acceptAll (Outline.sound_empty false).acceptAll_calls
  rw [Draft.calls_acceptAll accepted, begun]
  rfl

end Session

end SceneStream
