import SceneStream.Stream.Structure
import SceneStream.Stream.Turns

/-!
# A writer at its stream

An operation of a writer works on two states, its own and that of the stream it shares with all
others. Both keep what had changed when an operation fails.
-/

namespace SceneStream

/-- The stream, and the state of one kind of writer beside it. -/
structure Writing (ω : Type) where
  stream : Stream
  own : ω

/-- An operation of a writer. -/
abbrev WriterM (ω : Type) := EStateM Error (Writing ω)

namespace Writing

variable {ω α : Type}

def getOwn : WriterM ω ω := return (← get).own

def setOwn (own : ω) : WriterM ω Unit := modify fun w => { w with own }

@[simp] theorem getOwn_apply (w : Writing ω) : getOwn w = .ok w.own w := rfl

@[simp] theorem setOwn_apply (own : ω) (w : Writing ω) : setOwn own w = .ok () { w with own } :=
  rfl

/-- An operation of the stream as one of the writer. -/
def onStream (op : StreamM α) : WriterM ω α := fun w =>
  match op w.stream with
  | .ok a stream => .ok a { w with stream }
  | .error e stream => .error e { w with stream }

/-- A check that looks at nothing. -/
def check (e : Except Error α) : WriterM ω α := fun w =>
  match e with
  | .ok a => .ok a w
  | .error e => .error e w

@[simp] theorem check_ok (a : α) (w : Writing ω) : check (.ok a) w = .ok a w := rfl

@[simp] theorem check_error (e : Error) (w : Writing ω) :
    (check (.error e) : WriterM ω α) w = .error e w := rfl

end Writing

end SceneStream
