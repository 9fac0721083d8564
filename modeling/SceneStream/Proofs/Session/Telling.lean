import SceneStream.Proofs.Outline.Drawing
import SceneStream.Proofs.Session.Roll
import SceneStream.Proofs.Writer.Basic

/-!
# A session tells an outline

The outline says what was written, the roll who may go on writing, and a session tells both: its
stream shows the draft of the outline, and each open writer shows what the outline has of its part.
The three moves of a session, a write, an opening and a closing, are moves of the outline.
-/

namespace SceneStream

/-- What holds of the writer at a place however it is used: the writer of a member has the member's
name, and lists make elements and have a latest interval only while they are open. -/
def WriterState.IsRegular : Place → WriterState → Prop
  | .property a, property p => a.path ≠ [] → p.role = .member ∧ a.path.getLast? = some p.name
  | .list _, list (some l) => l.template.role = .element ∧ (l.hasCurrent = true → l.token ≠ none)
  | _, _ => True

namespace Session

/-- The session, with these writers open, is what the outline describes. -/
structure Tells (s : Session) (o : Outline) (roll : List Opening) : Prop where
  sound : o.Sound
  shows : s.stream.Shows o.draft
  registers : s.Registers roll
  standings : roll.map Opening.standing = o.parts.map Part.standing
  regular : ∀ q, (s.stateAt q).IsRegular q

/-- The session is what the outline describes, and no writer has a place made for a child. -/
def Stands (s : Session) (o : Outline) : Prop := s.stream.grant = none ∧ ∃ roll, s.Tells o roll

variable {s s' : Session} {o : Outline} {roll rest : List Opening} {q : Place} {t : Token}
  {st : Standing} {state : WriterState} {text : String} {p : Part} {parts : List Part} {w : Write}

theorem Tells.congr (tells : s.Tells o roll) (stream : s'.stream = s.stream)
    (slots : s'.slots = s.slots)
    (same : ∀ q, (s'.stateAt q).shown? = (s.stateAt q).shown?)
    (regular : ∀ q, (s'.stateAt q).IsRegular q) : s'.Tells o roll where
  sound := tells.sound
  shows := stream ▸ tells.shows
  registers := tells.registers.congr (by rw [stream]) (by rw [stream]) slots same
  standings := tells.standings
  regular := regular

theorem Agrees.tells (agrees : s.Agrees s') (tells : s.Tells o roll) : s'.Tells o roll := by
  apply tells.congr agrees.stream agrees.slots
  · intro q
    rw [agrees.states]
  · intro q
    rw [agrees.states]
    exact tells.regular q

theorem Agrees.stands (agrees : s.Agrees s') (h : s.Stands o) : s'.Stands o := by
  obtain ⟨grant, roll, tells⟩ := h
  exact ⟨by rw [agrees.stream, grant], roll, agrees.tells tells⟩

/-- What was put at one place is regular where it is regular itself. -/
theorem Put.regular {stream : Stream} (put : s.Put q stream state s')
    (before : ∀ r, (s.stateAt r).IsRegular r) (regular : state.IsRegular q) (r : Place) :
    (s'.stateAt r).IsRegular r := by
  by_cases same : r = q
  · rw [same, put.here]
    exact regular
  · rw [put.elsewhere r same]
    exact before r

/-- The innermost writer has the innermost part. -/
theorem Tells.top {x : Opening} (tells : s.Tells o (x :: rest)) :
    ∃ p parts, o.parts = p :: parts ∧ p.standing = x.standing ∧
      rest.map Opening.standing = parts.map Part.standing := by
  have standings := tells.standings
  cases parts : o.parts with
  | nil => simp [parts] at standings
  | cons p rest =>
      rw [parts, List.map_cons, List.map_cons, List.cons.injEq] at standings
      exact ⟨p, rest, rfl, standings.1.symm, standings.2⟩

/-- Where no writer is open, there is no part. -/
theorem Tells.parts_eq_nil (tells : s.Tells o []) : o.parts = [] := by
  simpa using tells.standings.symm

/-! ## Writing -/

/-- The calls of a write lead from one draft to the next. -/
theorem Tells.accepts_write (tells : s.Tells o roll) (parts_eq : o.parts = p :: parts)
    (takes : (w.entry p.scope).fits p.scope) :
    o.draft.acceptAll ((w.entry p.scope).calls p.scope) = some (o.after (.write w)).draft :=
  tells.sound.acceptAll_draft (tells.sound.write parts_eq takes)
    (Outline.calls_write tells.sound parts_eq takes)

theorem Tells.write (tells : s.Tells o (⟨t, some q, st⟩ :: rest)) (parts_eq : o.parts = p :: parts)
    (takes : (w.entry p.scope).fits p.scope)
    (put : s.Put q (s.stream.drawn text (o.after (.write w)).draft) state s')
    (shows : (s.stream.drawn text (o.after (.write w)).draft).Shows (o.after (.write w)).draft)
    (shown : state.shown? = some (t, st.wrote (w.entry p.scope).scope))
    (regular : state.IsRegular q) :
    s'.Tells (o.after (.write w)) (⟨t, some q, st.wrote (w.entry p.scope).scope⟩ :: rest) where
  sound := tells.sound.write parts_eq takes
  shows := put.stream ▸ shows
  registers := tells.registers.restate put rfl rfl shown
  standings := by
    obtain ⟨p', parts', parts_eq', standing, behind⟩ := tells.top
    obtain ⟨rfl, rfl⟩ := List.cons.inj (parts_eq'.symm.trans parts_eq)
    simp [Outline.after, parts_eq, Part.standing_write takes, standing, behind]
  regular := put.regular tells.regular regular

/-! ## Opening -/

theorem Tells.accepts_enter (tells : s.Tells o roll) (unfinished : o.finished = false)
    (fits : p.Fits (o.around p)) (whole : p.awaitsList = false) :
    o.draft.acceptAll p.calls = some (o.after (.enter p)).draft :=
  tells.sound.acceptAll_draft (tells.sound.enter unfinished fits whole)
    (Outline.calls_enter unfinished)

/-- A writer is opened, in the innermost one or in none. -/
theorem Tells.enter (tells : s.Tells o roll) (unfinished : o.finished = false)
    (fits : p.Fits (o.around p)) (whole : p.awaitsList = false) (around : o.around p = o.parts)
    (closed : (s.stateAt q).token? = none)
    (inside : s.LiesIn q (roll.head?.bind Opening.place))
    (put : s.Put q (s.stream.drawn text (o.after (.enter p)).draft).opened state s')
    (shows : (s.stream.drawn text (o.after (.enter p)).draft).opened.Shows
      (o.after (.enter p)).draft)
    (shown : state.shown? = some (s.stream.nextToken, p.standing)) (regular : state.IsRegular q) :
    s'.Tells (o.after (.enter p)) (⟨s.stream.nextToken, some q, p.standing⟩ :: roll) where
  sound := tells.sound.enter unfinished fits whole
  shows := put.stream ▸ shows
  registers := tells.registers.push closed inside put rfl rfl shown
  standings := by simp [Outline.after, around, tells.standings]
  regular := put.regular tells.regular regular

/-! ## Closing -/

theorem Tells.accepts_leave (tells : s.Tells o roll) (parts_eq : o.parts = p :: parts) :
    o.draft.acceptAll p.closing = some (o.after .leave).draft :=
  tells.sound.acceptAll_draft (tells.sound.leave parts_eq) (Outline.calls_leave tells.sound parts_eq)

theorem Tells.leave (tells : s.Tells o (⟨t, some q, st⟩ :: rest))
    (put : s.Put q (s.stream.drawn text (o.after .leave).draft).closed state s')
    (shows : (s.stream.drawn text (o.after .leave).draft).closed.Shows (o.after .leave).draft)
    (closed : state.token? = none) (regular : state.IsRegular q) :
    s'.Tells (o.after .leave) rest := by
  obtain ⟨p, parts, parts_eq, -, behind⟩ := tells.top
  refine ⟨tells.sound.leave parts_eq, put.stream ▸ shows, tells.registers.pop rfl put rfl rfl closed,
    ?_, put.regular tells.regular regular⟩
  rw [behind]
  cases parts with
  | nil => simp [Outline.after, parts_eq]
  | cons outer parts =>
      have chain := tells.sound.chain
      rw [parts_eq] at chain
      simp [Outline.after, parts_eq, Part.standing_receive chain.1]

/-! ## Giving writers up -/

/-- The program gives up writers, each with all that lies in it. -/
theorem Tells.forget (tells : s.Tells o roll) {gone : Place → Bool} (stream : s'.stream = s.stream)
    (closed : ∀ q, gone q = true → (s'.stateAt q).token? = none)
    (same : ∀ q, gone q = false → s'.stateAt q = s.stateAt q)
    (around : ∀ q, gone q = false → s'.around? q = s.around? q)
    (whole : ∀ q outer, gone q = false → s.around? q = some outer → gone outer = false)
    (regular : ∀ q, gone q = true → (s'.stateAt q).IsRegular q) :
    s'.Tells o (roll.map (Opening.forget gone)) where
  sound := tells.sound
  shows := stream ▸ tells.shows
  registers := tells.registers.forget stream closed (fun q left => by rw [same q left]) around whole
  standings := by
    rw [List.map_map]
    exact tells.standings
  regular q := by
    cases left : gone q with
    | true => exact regular q left
    | false =>
        rw [same q left]
        exact tells.regular q

end Session

end SceneStream
