import SceneStream.Stream.Basic

/-!
# Whose turn it is to write

Only the innermost open writer may write. A writer may be opened while none is open, or if the
innermost one has granted a place for one child; the grant is used up by the next opening and lost
with the next closing.
-/

namespace SceneStream.Stream

/-- Refuses unless this opening is the innermost one. -/
def expectActive (t : Token) : StreamM Unit := do
  match (← get).active? with
  | some active => if active = t then pure () else refuse .childStillOpen
  | none => refuse .writerNotOnStream

/-- Exactly the innermost opening passes, and nothing changes either way. -/
theorem expectActive_apply (t : Token) (s : Stream) :
    expectActive t s =
      if s.active? = some t then .ok () s
      else .error (.invalidOperation
        (if s.active? = none then .writerNotOnStream else .childStillOpen)) s := by
  change (match s.active? with
    | some active => if active = t then pure () else refuse .childStillOpen
    | none => refuse .writerNotOnStream : StreamM Unit) s = _
  cases s.active? with
  | none => simp
  | some active =>
    by_cases h : active = t
    · simp only [h, if_true]
      rfl
    · simp [h]

/-- Lets one writer be opened inside the innermost one. -/
def grantChild (parent : Token) : StreamM Unit := do
  expectActive parent
  modify fun s => { s with grant := some parent }

/-- Refuses unless a writer may be opened now. -/
def expectCanOpen : StreamM Unit := do
  let s ← get
  match s.active? with
  | none => pure ()
  | some active => if s.grant = some active then pure () else refuse .writerInTheWay

/-- A writer may be opened exactly where none is open or the innermost one grants it, and nothing
changes either way. -/
theorem expectCanOpen_apply (s : Stream) :
    expectCanOpen s =
      if s.active? = none ∨ s.grant = s.active? then .ok () s
      else .error (.invalidOperation .writerInTheWay) s := by
  change (match s.active? with
    | none => pure ()
    | some active => if s.grant = some active then pure () else refuse .writerInTheWay :
      StreamM Unit) s = _
  cases s.active? with
  | none =>
    simp only [true_or, if_true]
    rfl
  | some active =>
    by_cases h : s.grant = some active
    · simp only [h, if_true, or_true]
      rfl
    · simp [h]

/-- Registers an opening. -/
def beginWriter : StreamM Token := do
  expectCanOpen
  modifyGet fun s =>
    (s.nextToken, { s with
      nextToken := s.nextToken + 1
      grant := none
      writers := s.nextToken :: s.writers })

/-- Ends the innermost opening. -/
def endWriter (t : Token) : StreamM Unit := do
  expectActive t
  modify fun s => { s with writers := s.writers.tail, grant := none }

end SceneStream.Stream
