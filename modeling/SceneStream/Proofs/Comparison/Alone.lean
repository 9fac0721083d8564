import SceneStream.Proofs.Comparison.Command
import SceneStream.Proofs.Comparison.Structure

/-!
# One run by itself

A relation that every structural call keeps to is kept to by whole runs of commands. No second run is
needed to see this: a run is compared with itself.
-/

namespace SceneStream

namespace Comparison

/-- A run beside itself, with all that happens in this relation. -/
def alone {σ : Type} (T : σ → σ → Prop) [IsPreorder σ T] : Comparison σ where
  moves := T
  alike := Eq
  parted _ _ := False
  fine _ := True
  moves_refl _ := refl _
  moves_trans _ _ _ first second := trans_of T first second
  parted_of_moves _ _ _ _ apart := apart.elim
  fine_misuse _ := trivial

theorem follows_alone {σ α : Type} {T : σ → σ → Prop} [IsPreorder σ T] {op : EStateM Error σ α}
    (moves : Moves T op) : (alone T).Follows op where
  moves := moves
  runs u l alike := by
    obtain rfl : u = l := alike
    left
    cases run : op u with
    | ok a s => exact .ok a rfl
    | error e s => exact .error trivial rfl

/-- What pieces of text do, and the containers leave alone, the calls of a stream do. -/
theorem carries_alone {T : Stream → Stream → Prop} [IsPreorder Stream T]
    (frames : ∀ (s : Stream) (frames : List Frame) (rootWritten : Bool),
      T s { s with frames, rootWritten })
    (punctuation : ∀ piece ∈ Stream.marks ++ [":", ": "], Moves T (Stream.punctuation piece))
    (indented : ∀ width, Moves T (Stream.punctuation ("\n".pushn ' ' width)))
    (scalarText : ∀ v : Scalar, v.isFinite = true → Moves T (Stream.scalarText v.json)) :
    (alone T).Carries where
  frames u l alike := congrArg Stream.frames alike.symm
  rootWritten u l alike := congrArg Stream.rootWritten alike.symm
  moves_frames := frames
  alike_frames u l alike frames rootWritten := by
    obtain rfl : u = l := alike
    rfl
  mark piece isMark := follows_alone (punctuation piece (List.mem_append_left _ isMark))
  colon := by
    apply follows_alone
    apply Moves.look
    intro s
    split
    · exact punctuation ": " (by decide)
    · exact punctuation ":" (by decide)
  newline := by
    apply follows_alone
    apply Moves.look
    intro s
    split
    · exact indented _
    · exact moves_pure ()
  scalarText v finite := follows_alone (scalarText v finite)

end Comparison

open Comparison

/-- What the calls of a stream do, and turns leave alone, runs of commands do. -/
theorem Session.moves_run {T : Stream → Stream → Prop} [IsPreorder Stream T] {cs : List Command}
    (perform : ∀ c : Call, c.isFinite = true → Moves T (Stream.perform c))
    (value : ∀ v, .stream (.value v) ∈ cs → Moves T (Stream.value v))
    (flush : Moves T Stream.flush)
    (turns : ∀ (s : Stream) (writers : List Token) (grant : Option Token) (nextToken : Token),
      T s { s with writers, grant, nextToken })
    (s : Session) : T s.stream (s.run cs).stream := by
  have covers : (alone T).Covers :=
    { perform := fun c finite => follows_alone (perform c finite)
      flush := follows_alone flush
      writers := fun u l alike => congrArg Stream.writers alike.symm
      grant := fun u l alike => congrArg Stream.grant alike.symm
      nextToken := fun u l alike => congrArg Stream.nextToken alike.symm
      epochs := fun u l alike => congrArg (fun s => s.settings.sampleEpoch) alike.symm
      moves_turns := turns
      alike_turns := fun u l alike writers grant nextToken => by
        obtain rfl : u = l := alike
        rfl }
  apply covers.moves_run
  intro c mem
  refine ⟨.inr fun _ _ => trivial, ?_, fun _ u l alike => congrArg Stream.description alike.symm⟩
  rintro v rfl
  exact follows_alone (value v mem)

end SceneStream
