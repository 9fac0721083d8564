import SceneStream.Proofs.Session.History

/-!
# Members are open inside other writers

A program may make a writer of a member for itself, under any name. Nothing makes a place for it, so
it is never opened as a member: the writers that are open as members are those of children, whose names
and kinds are in the tables.
-/

namespace SceneStream.Session

variable {s : Session} {o : Outline} {c : Command} {cs : List Command} {a : Address} {r : Root}

/-- None of the writers that addresses start at is open as a member. -/
def EnclosesMembers (s : Session) : Prop :=
  ∀ r, (s.propertyAt { root := r }).role = .member → (s.propertyAt { root := r }).token = none

/-- What is opened as a member is a child. -/
theorem path_ne_nil (encloses : s.EnclosesMembers) (role : (s.propertyAt a).role = .member)
    (opened : (s.propertyAt a).token ≠ none) : a.path ≠ [] := by
  obtain ⟨root, path⟩ := a
  rintro rfl
  exact opened (encloses root role)

/-- Nothing that is written to a property changes its role. -/
theorem role_writtenBy (s : Session) (a : Address) (c : Command) :
    (s.writtenBy a c).role = (s.propertyAt a).role := by
  unfold writtenBy
  split
  · split <;> rfl
  all_goals rfl

/-- A property that lies in no other writer is an element. -/
theorem role_of_fits {p : Part} {q : Property} (fits : p.Fits [])
    (standing : p.standing = (WriterState.property q).standing) : q.role = .element := by
  cases p with
  | packet | list => cases standing
  | member name body =>
    obtain ⟨outer, inside, -⟩ := fits
    cases inside
  | element => exact (Standing.property.inj standing).2.1.symm

/-- The part of a writer that was opened, and is the only one that is open, lies in no other. -/
theorem Tells.fits_nil {x : Opening} {p : Part} (tells : s.Tells (o.after (.enter p)) [x]) :
    p.Fits [] := by
  have chain := tells.sound.chain
  have standings := congrArg List.length tells.standings
  simp only [Outline.after, List.map_cons, List.length_cons, List.length_map] at standings
  have none : o.around p = [] := by simpa using standings
  rw [Outline.after, none] at chain
  exact chain.1

/-- Where a writer that starts an address is opened, it is opened as an element: nothing is around it
that could hold a member. -/
theorem role_of_opening {outer : Option Place} (stands : s.Stands o)
    (effect : s.takesEffect c = true)
    (opening : s.opening? c = some (outer, .property { root := r })) :
    ((s.step c).2.propertyAt { root := r }).role = .element := by
  cases c with
  | document c => cases c <;> cases opening
  | make | packet | value | stream => cases opening
  | writer b c =>
    cases c with
    | start =>
      obtain ⟨call, reply, called, run⟩ := run_of_answers (answers_of_takesEffect effect rfl)
      obtain ⟨h, found, ⟨⟩⟩ := Option.bind_eq_some_iff.mp called
      have run := ok_of_doing run
      have place : h.place = .property { root := r } :=
        (place_of_handle? found).2.trans (Prod.mk.inj (Option.some.inj opening)).2
      rcases stands.start found with ⟨e, s', -, refused, -⟩ | ⟨s', t, opened, -, tells⟩
      · cases refused.symm.trans run
      · obtain ⟨-, rfl⟩ := EStateM.Result.ok.inj (opened.symm.trans run)
        have shown := tells.turn.2.1
        rw [place] at shown
        exact role_of_fits tells.fits_nil shown.symm
    | finish | release | state | touch | copy => cases opening
  | parent b c =>
    have child : b.child c.child = { root := r } :=
      Place.property.inj (Prod.mk.inj (Option.some.inj opening)).2
    simp [Address.child] at child
  | property b c => cases c <;> cases opening
  | list list c =>
    cases c with
    | startInterval =>
      obtain rfl : Root.interval list = r :=
        (Address.mk.inj (Place.property.inj (Prod.mk.inj (Option.some.inj opening)).2)).1
      obtain ⟨call, reply, called, run⟩ := run_of_answers (answers_of_takesEffect effect rfl)
      obtain ⟨l, kept, ⟨⟩⟩ := Option.bind_eq_some_iff.mp called
      obtain ⟨t, left⟩ := propertyAt_of_startInterval (ok_of_doing run)
      obtain ⟨-, roll, tells⟩ := stands
      rw [left]
      exact (tells.list_regular kept).1
    | start | finish | state => cases opening

theorem EnclosesMembers.step (encloses : s.EnclosesMembers) (stands : s.Stands o)
    (writing : c.isWriting = true) : (s.step c).2.EnclosesMembers := by
  intro r role
  have same (left : (s.step c).2.propertyAt { root := r } = s.propertyAt { root := r }) :
      ((s.step c).2.propertyAt { root := r }).token = none := by
    rw [left] at role ⊢
    exact encloses r role
  cases effect : s.takesEffect c with
  | false =>
    have left := stateAt_of_not_takesEffect stands writing effect (.property { root := r })
    exact same (WriterState.property.inj left)
  | true =>
    by_cases opens : ∃ outer, s.opening? c = some (outer, .property { root := r })
    · obtain ⟨outer, opening⟩ := opens
      cases (role_of_opening stands effect opening).symm.trans role
    by_cases own : s.writerOf? c = some (.property { root := r })
    · rcases propertyAt_of_own stands effect own with closed | ⟨-, left⟩
      · exact closed
      · rw [left, role_writtenBy] at role
        exact s.closed_step (q := .property { root := r }) writing (encloses r role) opens
    by_cases set : sets? c = some (.property { root := r })
    · obtain ⟨b, force, rfl, here⟩ := eq_forceObject_of_sets? set
      obtain rfl := Place.property.inj here
      rcases s.propertyAt_forceObject { root := r } force with left | left
      · exact same left
      · rw [left] at role ⊢
        exact encloses r role
    · rcases s.leavesOrCloses_step writing (.property { root := r }) (by simp [own, opens, set]) with
        left | closed
      · exact same (WriterState.property.inj left)
      · exact closed

theorem EnclosesMembers.run (encloses : s.EnclosesMembers) (stands : s.Stands o)
    (writing : ∀ c ∈ cs, c.isWriting = true) : (s.run cs).EnclosesMembers := by
  induction cs generalizing s o with
  | nil => exact encloses
  | cons c cs ih =>
    obtain ⟨first, rest⟩ := List.forall_mem_cons.mp writing
    exact ih (encloses.step stands first) (stands.step first) rest

theorem enclosesMembers_of_new {document : Bool} {settings : Settings}
    (begun : new document {} settings = .ok s) : s.EnclosesMembers := by
  intro r _
  have state := stateAt_of_new begun (.property { root := r })
  rw [WriterState.property.inj state]

end SceneStream.Session
