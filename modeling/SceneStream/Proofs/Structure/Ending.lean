import SceneStream.Proofs.Comparison.Truncation
import SceneStream.Proofs.Outline.Drawing
import SceneStream.Proofs.Structure.Nesting

/-!
# Ending a container

A call that ends a container lets go of it first and writes its bracket then. So a call that fails for
want of room has ended its container all the same, and the next such call meets the container around it.
-/

namespace SceneStream

namespace Bracket

/-- The call that ends a container of this sort. -/
def ending : Bracket → Call
  | object => .endObject
  | array => .endSequence

/-- Whether a container of this sort may be ended here: it is innermost, and has no name without a
value. -/
def Ends (b : Bracket) (f : Frame) : Bool := f.bracket = b && !f.isPending

/-- The containers behind a call that ends one of this sort. -/
def leave (b : Bracket) : List Frame → List Frame
  | [] => []
  | f :: rest => if b.Ends f then rest else f :: rest

variable {b : Bracket} {f : Frame} {rest : List Frame}

@[simp] theorem leave_cons_of_ends (ends : b.Ends f = true) : b.leave (f :: rest) = rest := by
  simp [leave, ends]

/-- What is innermost stays where it may not be ended, however often it is tried. -/
theorem iterate_leave_of_stuck {frames : List Frame} (stuck : ∀ f ∈ frames.head?, b.Ends f = false)
    (n : Nat) : b.leave^[n] frames = frames := by
  apply Function.iterate_fixed
  cases frames with
  | nil => rfl
  | cons f rest => simp [leave, stuck f rfl]

end Bracket

namespace Stream

variable {s s' : Stream} {e : Error}

/-- The containers are noted as before. -/
def KeepsFrames (s s' : Stream) : Prop := s'.frames = s.frames

instance : IsPreorder Stream KeepsFrames where
  refl _ := rfl
  trans _ _ _ h h' := h'.trans h

theorem keepsFrames_emit (failure : Error) (piece : String) :
    Moves KeepsFrames (emit failure piece) := by
  intro s
  rw [behind_emit]
  rfl

theorem keepsFrames_newline : Moves KeepsFrames newline := by
  apply Moves.look
  intro s
  split
  · exact keepsFrames_emit _ _
  · exact moves_pure ()

/-- A container is let go of, whether its bracket is written or not. -/
theorem frames_endContainer (bracket : String) (rest : List Frame) (count : Nat) (s : Stream) :
    (behind (endContainer bracket rest count) s).frames = rest := by
  have writes : Moves KeepsFrames (do
      if 0 < count then newline
      punctuation bracket : StreamM Unit) := by
    refine Moves.ite ?_ (keepsFrames_emit _ _)
    exact keepsFrames_newline.bind fun _ => keepsFrames_emit _ _
  rw [endContainer, behind_bind_of_ok (setFrames_apply rest s)]
  exact writes { s with frames := rest }

/-- What a call that ends a container leaves of the containers, whatever comes of it. -/
theorem frames_ending (b : Bracket) (s : Stream) :
    (behind (perform b.ending) s).frames = b.leave s.frames := by
  obtain ⟨sink, settings, frames, started, writers, grant, nextToken⟩ := s
  cases b with
  | object =>
      rcases frames with _ | ⟨⟨members, _ | _⟩ | items, rest⟩
      · rfl
      · exact frames_endContainer ..
      · rfl
      · rfl
  | array =>
      rcases frames with _ | ⟨⟨members, _ | _⟩ | items, rest⟩
      · rfl
      · rfl
      · rfl
      · exact frames_endContainer ..

/-- A container that is ended, or fails to be for want of room, is one that may be ended. -/
theorem ends_of_ending (b : Bracket) (refusal : e.isRefusal = false)
    (run : perform b.ending s = .error e s') : ∃ f rest, s.frames = f :: rest ∧ b.Ends f = true := by
  obtain ⟨sink, settings, frames, started, writers, grant, nextToken⟩ := s
  cases b <;> rcases frames with _ | ⟨⟨members, _ | _⟩ | items, rest⟩ <;>
    first | exact ⟨_, _, rfl, rfl⟩ | (cases run; cases refusal)

/-- On a full sink, no container is ended. -/
theorem ending_of_isFull (full : s.sink.IsFull) (b : Bracket) : perform b.ending s ≠ .ok () s' := by
  intro run
  obtain ⟨sink, settings, frames, started, writers, grant, nextToken⟩ := s
  cases b <;> rcases frames with _ | ⟨⟨members, _ | _⟩ | items, rest⟩ <;>
    first | cases run | exact endContainer_of_isFull full (by decide) _ _ run

/-! ## An object with nothing in it -/

/-- The containers are of the same sorts as before, whatever was counted in them. -/
def KeepsBrackets (s s' : Stream) : Prop :=
  s'.frames.map Frame.bracket = s.frames.map Frame.bracket

instance : IsPreorder Stream KeepsBrackets where
  refl _ := rfl
  trans _ _ _ h h' := h'.trans h

theorem KeepsFrames.keepsBrackets (h : KeepsFrames s s') : KeepsBrackets s s' :=
  congrArg (List.map Frame.bracket) h

theorem keepsBrackets_beginValue : Moves KeepsBrackets beginValue := by
  intro s
  obtain ⟨sink, settings, frames, started, writers, grant, nextToken⟩ := s
  rcases frames with _ | ⟨⟨members, _ | _⟩ | items, rest⟩
  · cases started <;> rfl
  · rfl
  · rfl
  · have breaks : Moves KeepsFrames (do
        if 0 < items then punctuation ","
        newline : StreamM Unit) := by
      refine Moves.ite ?_ keepsFrames_newline
      exact (keepsFrames_emit _ _).bind fun _ => keepsFrames_newline
    exact (breaks _).keepsBrackets

/-- Beginning a container either adds it to what is open or leaves the sorts of these as they are. -/
theorem brackets_beginContainer (bracket : String) (frame : Frame) (s : Stream) :
    (∃ frames s', beginContainer bracket frame s = .ok () s' ∧ s'.frames = frame :: frames ∧
        frames.map Frame.bracket = s.frames.map Frame.bracket) ∨
      ∃ e s', beginContainer bracket frame s = .error e s' ∧ KeepsBrackets s s' := by
  have announces := keepsBrackets_beginValue s
  cases announced : beginValue s with
  | error e s₁ =>
      rw [behind_of_error announced] at announces
      exact .inr ⟨e, s₁, bind_of_error announced _, announces⟩
  | ok _ s₁ =>
      rw [behind_of_ok announced] at announces
      have writes := keepsFrames_emit (.io .sinkFull) bracket s₁
      rw [beginContainer, bind_of_ok announced]
      cases written : punctuation bracket s₁ with
      | error e s₂ =>
          rw [punctuation] at written
          rw [behind_of_error written] at writes
          exact .inr ⟨e, s₂, bind_of_error written _, trans_of _ announces writes.keepsBrackets⟩
      | ok _ s₂ =>
          rw [punctuation] at written
          rw [behind_of_ok written] at writes
          exact .inl ⟨s₂.frames, _, bind_of_ok written _, rfl, by rw [writes]; exact announces⟩

/-- An empty object that does not come about as a whole leaves no container behind. -/
theorem keepsBrackets_of_error (run : performs [.startObject, .endObject] s = .error e s') :
    KeepsBrackets s s' := by
  rw [performs_cons, performs_singleton] at run
  rcases brackets_beginContainer "\x7b" (.object 0 false) s with
    ⟨frames, s₁, begun, inside, kept⟩ | ⟨e₁, s₁, failed, kept⟩
  · have ended := frames_ending .object s₁
    rw [bind_of_ok (x := perform .startObject) begun] at run
    rw [show perform Bracket.object.ending = perform .endObject from rfl, behind_of_error run, inside,
      Bracket.leave_cons_of_ends rfl] at ended
    rwa [KeepsBrackets, ended]
  · rw [bind_of_error (x := perform .startObject) failed] at run
    obtain ⟨-, rfl⟩ := EStateM.Result.error.inj run
    exact kept

/-- On a full sink, no object is begun. -/
theorem startObject_of_isFull (full : s.sink.IsFull) : perform .startObject s ≠ .ok () s' :=
  beginContainer_of_isFull full (by decide) _

/-! ## Failing for want of room -/

/-- Where the sink is sound, the operation fails for want of room only if it fills the sink. -/
def Fills (op : StreamM Unit) : Prop :=
  ∀ s : Stream, s.sink.IsSound →
    (∃ s', op s = .ok () s' ∧ s'.sink.IsSound) ∨
      ∃ e s', op s = .error e s' ∧ (e.isRefusal = true ∨ s'.sink.IsFull)

namespace Fills

variable {op op' : StreamM Unit}

theorem seq (first : Fills op) (second : Fills op') : Fills (do op; op') := by
  intro s sound
  rcases first s sound with ⟨s', run, sound'⟩ | ⟨e, s', run, rest⟩
  · rw [bind_of_ok run]
    exact second s' sound'
  · exact .inr ⟨e, s', bind_of_error run _, rest⟩

theorem look {f : Stream → StreamM Unit} (next : ∀ s, Fills (f s)) : Fills (get >>= f) :=
  fun s => next s s

theorem modify {f : Stream → Stream} (kept : ∀ s, (f s).sink = s.sink) : Fills (modify f) := by
  intro s sound
  exact .inl ⟨f s, rfl, by rwa [kept]⟩

theorem setFrames (frames : List Frame) : Fills (setFrames frames) := modify fun _ => rfl

theorem refuse (m : Misuse) : Fills (refuse m) := fun s _ => .inr ⟨_, s, rfl, .inl rfl⟩

theorem emit (failure : Error) (piece : String) : Fills (emit failure piece) := by
  intro s sound
  cases put : s.sink.put piece with
  | mk sink taken =>
      cases taken with
      | true =>
          have grown := sound.put piece
          rw [put] at grown
          exact .inl ⟨{ s with sink }, by rw [Stream.emit, put], grown⟩
      | false =>
          have full : (s.sink.put piece).1.IsFull := sound.isFull_put (by rw [put])
          rw [put] at full
          exact .inr ⟨failure, { s with sink }, by rw [Stream.emit, put], .inr full⟩

theorem newline : Fills newline := by
  apply look
  intro s
  split
  · exact emit _ _
  · exact fun s sound => .inl ⟨s, rfl, sound⟩

theorem beginValue : Fills beginValue := by
  apply look
  intro s
  split
  next members pending rest _ =>
    cases pending with
    | true => exact modify fun _ => rfl
    | false => exact refuse _
  next items rest _ =>
    refine (setFrames _).seq ?_
    by_cases more : 0 < items
    · simp only [if_pos more]
      exact (emit _ _).seq newline
    · simp only [if_neg more]
      exact newline
  next =>
    apply look
    intro s
    split
    · exact refuse _
    · exact modify fun _ => rfl

theorem endContainer (bracket : String) (rest : List Frame) (count : Nat) :
    Fills (endContainer bracket rest count) := by
  refine (setFrames rest).seq ?_
  by_cases content : 0 < count
  · simp only [if_pos content]
    exact newline.seq (emit _ _)
  · simp only [if_neg content]
    exact emit _ _

theorem ending (b : Bracket) : Fills (perform b.ending) := by
  cases b <;> apply look <;> intro s <;> split <;>
    first | exact refuse _ | exact endContainer _ _ _

theorem beginContainer (bracket : String) (frame : Frame) :
    Fills (beginContainer bracket frame) :=
  beginValue.seq ((emit _ _).seq (modify fun _ => rfl))

theorem isFull (fills : Fills op) (sound : s.sink.IsSound) (run : op s = .error e s')
    (refusal : e.isRefusal = false) : s'.sink.IsFull := by
  rcases fills s sound with ⟨_, answered, -⟩ | ⟨_, _, failed, rest⟩
  · cases run.symm.trans answered
  · obtain ⟨rfl, rfl⟩ := EStateM.Result.error.inj (run.symm.trans failed)
    exact rest.resolve_left (Bool.eq_false_iff.mp refusal)

end Fills

end Stream

end SceneStream
