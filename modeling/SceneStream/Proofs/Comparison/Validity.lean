import SceneStream.Proofs.Comparison.Command
import SceneStream.Proofs.Comparison.Structure

/-!
# Valid arguments

A command with valid arguments is never refused as one with an invalid argument, whatever the session
is like. A run is compared with itself here: what matters are the failures only.
-/

namespace SceneStream

theorem Error.misuse_ne_invalidArgument (m : Misuse) (d : Defect) :
    Error.invalidOperation m ≠ .invalidArgument d := nofun

/-- A run beside itself, where no argument is invalid. -/
def selfsame : Comparison Sink where
  moves _ _ := True
  alike u l := u = l
  parted _ _ := False
  fine e := ∀ d, e ≠ .invalidArgument d
  moves_refl _ := trivial
  moves_trans _ _ _ _ _ := trivial
  parted_of_moves _ _ _ _ apart := apart.elim
  fine_misuse := Error.misuse_ne_invalidArgument

namespace Valid

open Comparison

/-- Equal streams come to the same result, whose failure is a failure of the sink. -/
theorem follows_of_fine {α : Type} {op : StreamM α}
    (fine : ∀ s e s', op s = .error e s' → ∀ d, e ≠ .invalidArgument d) :
    selfsame.output.Follows op where
  moves _ := trivial
  runs u l alike := by
    have same : u = l := alike.2.trans (by rw [← alike.1]) |>.symm
    subst same
    left
    cases run : op u with
    | ok a s => exact .ok a ⟨rfl, rfl⟩
    | error e s => exact .error (fine u e s run) ⟨rfl, rfl⟩

theorem follows_emit {failure : Error} (fine : ∀ d, failure ≠ .invalidArgument d) (piece : String) :
    selfsame.output.Follows (Stream.emit failure piece) := by
  apply follows_of_fine
  intro s e s' run
  unfold Stream.emit at run
  split at run <;> cases run
  exact fine

theorem absorbs : selfsame.Absorbs where
  punctuation := follows_emit fun _ same => by cases same
  scalarText := follows_emit fun _ same => by cases same
  flush := by
    apply follows_of_fine
    intro s e s' run
    simp only [Stream.flush, bind_apply, get_apply] at run
    split at run <;> cases run
    exact fun _ same => by cases same

end Valid

/-- A command with valid arguments is not refused for them. -/
theorem Session.refused_of_isValid {s s' : Session} {c : Command} {e : Error} (valid : c.IsValid)
    (refused : s.step c = (.refused e, s')) (d : Defect) : e ≠ .invalidArgument d := by
  have permits : selfsame.output.Permits c := by
    refine ⟨.inl valid, fun v _ => Valid.absorbs.value v, fun _ u l alike => ?_⟩
    rw [alike.2, ← alike.1]
  rcases Valid.absorbs.covers.step permits (u := s) (l := s) ⟨⟨rfl, rfl⟩, rfl⟩ with
    ⟨-, -, fine⟩ | apart
  · exact fine e (by rw [refused]) d
  · exact apart.elim

end SceneStream
