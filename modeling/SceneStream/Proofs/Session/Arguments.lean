import SceneStream.Proofs.Writer.Value
import SceneStream.Session.Command

/-!
# Arguments

An argument is valid or not whatever the session is like: a number is finite, samples have a date
each, a reference can be read. A command with a valid argument is refused for the state of the session
only.
-/

namespace SceneStream

/-- Whether a property of the right kind takes the value as one. -/
def ValueCommand.IsValid : ValueCommand → Prop
  | .write _ _ b => b.IsValid
  | .samples k dates values => ∃ series, TimeSeries.of dates values = .ok series ∧
      (Binding.samples series : Binding k).IsValid
  | .window k dates values start length => ∃ series,
      (do (← TimeSeries.of dates values).slice start length) = .ok series ∧
        (Binding.samples series : Binding k).IsValid
  | .reference source => ∃ r, source.resolve = .ok r
  | .resolved u resolver => (Binding.literal (u.resolve resolver) : Binding .uri).IsValid
  | .algorithm _ => True
  | .degree n => n ≠ 0

/-- Whether the command writes the value of a property; the others say how to read between samples. -/
def ValueCommand.isValue : ValueCommand → Bool
  | .write .. | .samples .. | .window .. | .reference _ | .resolved .. => true
  | .algorithm _ | .degree _ => false

/-- Whether the value that is written to a child is one. -/
def ParentCommand.IsValid : ParentCommand → Prop
  | .startChild _ => True
  | .writeChild _ _ _ b => b.IsValid
  | .referChild _ source => ∃ r, source.resolve = .ok r
  | .writeImage u resolver => (Binding.literal (u.resolve resolver) : Binding .uri).IsValid

def PacketCommand.IsValid : PacketCommand → Prop
  | .id text => text ≠ ""
  | .name _ | .parent _ | .version _ | .delete _ | .availability _ => True

/-- Whether the arguments of a command are valid. -/
def Command.IsValid : Command → Prop
  | .parent _ c => c.IsValid
  | .packet _ c => c.IsValid
  | .value _ c => c.IsValid
  | .document _ | .make .. | .writer .. | .property .. | .list .. | .stream _ => True

end SceneStream
