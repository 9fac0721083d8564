import SceneStream.Proofs.Comparison.Writer

/-!
# Comparing the calls of a stream

A structural call notes what becomes of the containers and sends a few pieces of text. So a
comparison that these pieces follow, and that keeps the containers, is followed by all calls. Where
streams differ in their sinks only, any piece follows as soon as the sinks take it alike.
-/

namespace SceneStream

/-- The pieces of text that structure alone calls for. -/
def Stream.marks : List String := [",", "[", "]", "\x7b", "\x7d"]

namespace Comparison

/-- What the calls of a stream need of a comparison: alike streams have the same containers and stay
alike when both note others, and the pieces that calls are made of follow the comparison. -/
structure Carries (C : Comparison Stream) : Prop where
  frames : ∀ u l, C.alike u l → l.frames = u.frames
  rootWritten : ∀ u l, C.alike u l → l.rootWritten = u.rootWritten
  moves_frames : ∀ (s : Stream) (frames : List Frame) (rootWritten : Bool),
    C.moves s { s with frames, rootWritten }
  alike_frames : ∀ u l, C.alike u l → ∀ (frames : List Frame) (rootWritten : Bool),
    C.alike { u with frames, rootWritten } { l with frames, rootWritten }
  mark : ∀ piece ∈ Stream.marks, C.Follows (Stream.punctuation piece)
  colon : C.Follows (do Stream.punctuation (if (← get).settings.pretty then ": " else ":"))
  newline : C.Follows Stream.newline
  scalarText : ∀ v : Scalar, v.isFinite = true → C.Follows (Stream.scalarText v.json)

namespace Carries

variable {C : Comparison Stream} (carries : C.Carries)
include carries

/-- What is noted of the containers may depend on them. -/
theorem note (frames : List Frame → List Frame) (rootWritten : Bool → Bool) :
    C.Follows (modify fun s => { s with
      frames := frames s.frames
      rootWritten := rootWritten s.rootWritten } : StreamM PUnit) := by
  apply follows_modify
  · exact fun s => carries.moves_frames s _ _
  · intro u l alike
    rw [carries.frames u l alike, carries.rootWritten u l alike]
    exact carries.alike_frames u l alike _ _

theorem setFrames (frames : List Frame) : C.Follows (Stream.setFrames frames) :=
  carries.note (fun _ => frames) id

theorem comma : C.Follows (Stream.punctuation ",") := carries.mark "," (by decide)

theorem beginValue : C.Follows Stream.beginValue := by
  apply Follows.look
  · intro s
    split
    next members pending rest frames =>
      exact .ite (fun _ => carries.setFrames _) fun _ => follows_refuse _
    next items rest frames =>
      apply (carries.setFrames _).bind
      intro _
      exact .ite (fun _ => carries.comma.bind fun _ => carries.newline) fun _ => carries.newline
    next frames =>
      apply Follows.look
      · intro s
        exact .ite (fun _ => follows_refuse _) fun _ => carries.note id fun _ => true
      · intro u l alike
        rw [carries.rootWritten u l alike]
  · intro u l alike
    rw [carries.frames u l alike]

theorem beginContainer {bracket : String} (isMark : bracket ∈ Stream.marks)
    (frame : Frame) : C.Follows (Stream.beginContainer bracket frame) :=
  carries.beginValue.bind fun _ => (carries.mark bracket isMark).bind fun _ =>
    carries.note (frame :: ·) id

theorem endContainer {bracket : String} (isMark : bracket ∈ Stream.marks)
    (rest : List Frame) (count : Nat) : C.Follows (Stream.endContainer bracket rest count) := by
  have closed := carries.mark bracket isMark
  apply (carries.setFrames rest).bind
  intro _
  exact .ite (fun _ => carries.newline.bind fun _ => closed) fun _ => closed

theorem endObject : C.Follows Stream.endObject := by
  apply Follows.look
  · intro s
    split
    · exact carries.endContainer (by decide) _ _
    · exact follows_refuse _
    · exact follows_refuse _
  · intro u l alike
    rw [carries.frames u l alike]

theorem endSequence : C.Follows Stream.endSequence := by
  apply Follows.look
  · intro s
    split
    · exact carries.endContainer (by decide) _ _
    · exact follows_refuse _
  · intro u l alike
    rw [carries.frames u l alike]

theorem name (key : String) : C.Follows (Stream.name key) := by
  have spelled : C.Follows (do
      Stream.newline
      Stream.scalarText (Json.quote key)
      Stream.punctuation (if (← get).settings.pretty then ": " else ":")) :=
    carries.newline.bind fun _ => (carries.scalarText (.text key) rfl).bind fun _ => carries.colon
  apply Follows.look
  · intro s
    split
    · apply (carries.setFrames _).bind
      intro _
      exact .ite (fun _ => carries.comma.bind fun _ => spelled) fun _ => spelled
    · exact follows_refuse _
    · exact follows_refuse _
  · intro u l alike
    rw [carries.frames u l alike]

theorem value {v : Scalar} (spelled : C.Follows (Stream.scalarText v.json)) :
    C.Follows (Stream.value v) :=
  carries.beginValue.bind fun _ => spelled

theorem perform (c : Call) (finite : c.isFinite = true) : C.Follows (Stream.perform c) := by
  cases c with
  | startObject => exact carries.beginContainer (by decide) _
  | endObject => exact carries.endObject
  | startSequence => exact carries.beginContainer (by decide) _
  | endSequence => exact carries.endSequence
  | name key => exact carries.name key
  | value v => exact carries.value (carries.scalarText v finite)

end Carries

/-! ## Streams with different sinks -/

/-- The comparison of streams at their sinks: all else is equal while the sinks are alike. -/
def output (C : Comparison Sink) : Comparison Stream where
  moves s s' := C.moves s.sink s'.sink
  alike u l := C.alike u.sink l.sink ∧ l = { u with sink := l.sink }
  parted u l := C.parted u.sink l.sink
  fine := C.fine
  moves_refl s := C.moves_refl s.sink
  moves_trans _ _ _ := C.moves_trans _ _ _
  parted_of_moves _ _ _ _ := C.parted_of_moves _ _ _ _
  fine_misuse := C.fine_misuse

/-- What the calls of a stream need of a comparison of sinks. -/
structure Absorbs (C : Comparison Sink) : Prop where
  punctuation : ∀ piece, C.output.Follows (Stream.punctuation piece)
  scalarText : ∀ piece, C.output.Follows (Stream.scalarText piece)
  flush : C.output.Follows Stream.flush

variable {C : Comparison Sink}

/-- A step that looks at anything but the sink. -/
theorem follows_lookAbove {f : Stream → StreamM Unit} (next : ∀ s, C.output.Follows (f s))
    (common : ∀ s sink, f { s with sink } = f s) : C.output.Follows (get >>= f) := by
  apply Follows.look next
  rintro u l ⟨-, same⟩
  rw [same]
  exact (common u l.sink).symm

namespace Absorbs

variable (absorbs : C.Absorbs)
include absorbs

theorem carries : C.output.Carries where
  frames u l alike := by rw [alike.2]
  rootWritten u l alike := by rw [alike.2]
  moves_frames s _ _ := C.moves_refl s.sink
  alike_frames u l alike frames rootWritten := by
    obtain ⟨sinks, same⟩ := alike
    refine ⟨sinks, ?_⟩
    rw [same]
  mark piece _ := absorbs.punctuation piece
  colon := follows_lookAbove (fun _ => absorbs.punctuation _) fun _ _ => rfl
  newline := follows_lookAbove
    (fun _ => .ite (fun _ => absorbs.punctuation _) fun _ => follows_pure ()) fun _ _ => rfl
  scalarText v _ := absorbs.scalarText v.json

/-- Any scalar is taken, finite or not. -/
theorem value (v : Scalar) : C.output.Follows (Stream.value v) :=
  absorbs.carries.value (absorbs.scalarText v.json)

/-- Streams that are equal but for alike sinks agree on turns and times. -/
theorem covers : C.output.Covers where
  perform := absorbs.carries.perform
  flush := absorbs.flush
  writers u l alike := by rw [alike.2]
  grant u l alike := by rw [alike.2]
  nextToken u l alike := by rw [alike.2]
  epochs u l alike := by rw [alike.2]
  moves_turns s _ _ _ := C.moves_refl s.sink
  alike_turns u l alike writers grant nextToken := by
    obtain ⟨sinks, same⟩ := alike
    refine ⟨sinks, ?_⟩
    rw [same]

end Absorbs

end Comparison

end SceneStream
