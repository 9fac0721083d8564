import SceneStream.Proofs.Writer.Conforming

/-!
# Outlines that conform

An outline conforms if everything conforms that was written so far, under the names of the parts it
was written to. Opening and closing keep it so, and so does a write that conforms under its key. A
write that comes to stand for a whole property has to conform under the name of the property.
-/

namespace SceneStream

variable {admits : String → Prop} {name : String} {body : Body} {p outer : Part} {w : Write}
  {o : Outline} {added : List (String × Tree)} {rest : List Part}

/-- Whether what the property of this name holds conforms. -/
def Body.Conforms (admits : String → Prop) (name : String) : Body → Prop
  | nothing | intervals none => True
  | bare t => Tree.Conforms admits name t
  | object members => ∀ m ∈ members, Tree.Conforms admits m.1 m.2
  | intervals (some t) => Tree.Composed admits t

def Part.Conforms (admits : String → Prop) : Part → Prop
  | packet members | element _ members => ∀ m ∈ members, Tree.Conforms admits m.1 m.2
  | member name body => body.Conforms admits name
  | list _ items => ∀ t ∈ items, Tree.Composed admits t

/-- Whether the items and the parts of the open writers conform. -/
structure Outline.Conforms (admits : String → Prop) (o : Outline) : Prop where
  items : ∀ t ∈ o.items, Tree.Composed admits t
  parts : ∀ p ∈ o.parts, p.Conforms admits

theorem Body.Conforms.tree (conforms : body.Conforms admits name) :
    Tree.Conforms admits name body.tree := by
  rcases body with _ | t | members | _ | t
  · exact .whole (.object (List.forall_mem_nil _))
  · exact conforms
  · exact .whole (.object conforms)
  · exact .whole (.array (List.forall_mem_nil _))
  · exact .whole conforms

/-- A property that is opened has nothing written. -/
theorem Property.conforms_part (p : Property) : p.part.Conforms admits := by
  unfold part
  cases p.role with
  | member => trivial
  | element => exact List.forall_mem_nil _

namespace Part.Conforms

/-- Only a member may be a value alone. -/
theorem composed (conforms : p.Conforms admits) (apart : ∀ name body, p ≠ .member name body) :
    Tree.Composed admits p.tree := by
  cases p with
  | packet | element => exact .object conforms
  | member name body => exact absurd rfl (apart name body)
  | list => exact .array conforms

theorem write_members (conforms : p.Conforms admits)
    (each : ∀ m ∈ added, Tree.Conforms admits m.1 m.2) :
    (p.write (.members added)).Conforms admits := by
  rcases p with done | ⟨name, _ | t | done | list⟩ | ⟨name, done⟩ | _
  · exact List.forall_mem_append.mpr ⟨conforms, each⟩
  · exact each
  · exact conforms
  · exact List.forall_mem_append.mpr ⟨conforms, each⟩
  · exact conforms
  · exact List.forall_mem_append.mpr ⟨conforms, each⟩
  · exact conforms

theorem write {k : Kind} (conforms : p.Conforms admits) (valid : w.Conforms admits k)
    (property : ∀ name, p = .member name .nothing → k.IsOf name) :
    (p.write (w.entry p.scope)).Conforms admits := by
  cases w with
  | members added => exact conforms.write_members valid.keyed
  | literal simple key t =>
    rw [Write.entry]
    split
    next first =>
      obtain ⟨simple, unopened⟩ := first
      rcases p with _ | ⟨name, _ | _ | _ | _⟩ | _ | _ <;> cases unopened
      exact valid.alone (property name rfl) simple
    next => exact conforms.write_members (List.forall_mem_singleton.mpr valid.keyed)

theorem receive (conforms : outer.Conforms admits) (inner : p.Conforms admits) :
    (outer.receive p).Conforms admits := by
  cases p with
  | member name body => exact conforms.write_members (List.forall_mem_singleton.mpr inner.tree)
  | packet | element | list =>
    have composed := inner.composed nofun
    cases outer with
    | packet | element => exact conforms
    | member => exact composed
    | list => exact List.forall_mem_append.mpr ⟨conforms, List.forall_mem_singleton.mpr composed⟩

end Part.Conforms

/-- Inside of a part, a child is opened. -/
theorem Outline.parts_openChild (parts : o.parts = p :: rest) (name : String) :
    (o.afterAll [.write (.members []), .enter (.member name .nothing)]).parts =
      .member name .nothing :: p.write (.members []) :: rest := by
  simp [after, parts, around, Write.entry]

namespace Outline.Conforms

theorem enter (conforms : o.Conforms admits) (part : p.Conforms admits) :
    (o.after (.enter p)).Conforms admits := by
  refine ⟨conforms.items, List.forall_mem_cons.mpr ⟨part, ?_⟩⟩
  have parts := conforms.parts
  unfold around
  split
  · split
    next at_list =>
      rw [at_list] at parts
      exact List.forall_mem_cons.mpr ⟨trivial, (List.forall_mem_cons.mp parts).2⟩
    next => exact parts
  · exact parts

/-- A write changes the innermost part only. -/
theorem write_of_part (conforms : o.Conforms admits)
    (part : ∀ p rest, o.parts = p :: rest → p.Conforms admits →
      (p.write (w.entry p.scope)).Conforms admits) : (o.after (.write w)).Conforms admits := by
  have parts := conforms.parts
  rw [after]
  split
  · exact conforms
  next p rest parts_eq =>
    rw [parts_eq] at parts
    obtain ⟨first, others⟩ := List.forall_mem_cons.mp parts
    exact ⟨conforms.items, List.forall_mem_cons.mpr ⟨part p rest parts_eq first, others⟩⟩

/-- A write may come to stand for a whole property where that has nothing yet, and has to be made to a
property of its kind there. -/
theorem write {k : Kind} (conforms : o.Conforms admits) (valid : w.Conforms admits k)
    (property : ∀ name rest, o.parts = .member name .nothing :: rest → k.IsOf name) :
    (o.after (.write w)).Conforms admits := by
  apply conforms.write_of_part
  intro p rest parts part
  apply part.write valid
  rintro name rfl
  exact property name rest parts

theorem write_members (conforms : o.Conforms admits)
    (each : ∀ m ∈ added, Tree.Conforms admits m.1 m.2) :
    (o.after (.write (.members added))).Conforms admits :=
  conforms.write_of_part fun _ _ _ part => part.write_members each

theorem leave (conforms : o.Conforms admits)
    (outermost : ∀ name body, o.parts ≠ [.member name body]) :
    (o.after .leave).Conforms admits := by
  have parts := conforms.parts
  rw [after]
  split
  · exact conforms
  next p parts_eq =>
    rw [parts_eq] at parts
    have composed := (List.forall_mem_singleton.mp parts).composed fun name body same =>
      outermost name body (by rw [parts_eq, same])
    exact ⟨List.forall_mem_append.mpr ⟨conforms.items, List.forall_mem_singleton.mpr composed⟩,
      List.forall_mem_nil _⟩
  next p outer rest parts_eq =>
    rw [parts_eq] at parts
    obtain ⟨inner, parts⟩ := List.forall_mem_cons.mp parts
    obtain ⟨around, others⟩ := List.forall_mem_cons.mp parts
    exact ⟨conforms.items, List.forall_mem_cons.mpr ⟨around.receive inner, others⟩⟩

theorem leave_of_sound (conforms : o.Conforms admits) (sound : o.Sound) :
    (o.after .leave).Conforms admits := by
  apply conforms.leave
  intro name body parts
  have chain := sound.chain
  rw [parts] at chain
  obtain ⟨outer, inside, -⟩ := chain.1
  cases inside

/-- A scalar under the name of a property, wherever it stands, is a value of the property's kind. -/
theorem accepts (conforms : o.Conforms admits) {t : Tree} (item : t ∈ o.items) {v : Scalar}
    (stands : Tree.StandsIn name (.scalar v) t) {k : Kind} (property : k.IsOf name) :
    ∃ e, k.Accepts admits e [v] :=
  (stands.conforms (conforms.items t item)).accepts property

theorem finish (conforms : o.Conforms admits) : (o.after .finish).Conforms admits :=
  ⟨conforms.items, conforms.parts⟩

/-! ### Children -/

theorem openChild (conforms : o.Conforms admits) (name : String) :
    (o.afterAll [.write (.members []), .enter (.member name .nothing)]).Conforms admits :=
  (conforms.write_members (List.forall_mem_nil _)).enter (p := .member name .nothing) trivial

/-- A child is written and closed. -/
theorem writeChild {k : Kind} (conforms : o.Conforms admits) (parts : o.parts = p :: rest)
    (valid : w.Conforms admits k) (property : k.IsOf name) :
    (o.afterAll [.write (.members []), .enter (.member name .nothing), .write w, .leave]).Conforms
      admits := by
  have inner := parts_openChild parts name
  apply ((conforms.openChild name).write valid ?_).leave
  · intro other body
    rw [after, inner]
    simp
  · intro other rest' same
    rw [inner] at same
    cases same
    exact property

/-- A child is closed with nothing written. -/
theorem leaveChild (conforms : o.Conforms admits) (parts : o.parts = p :: rest) (name : String) :
    (o.afterAll [.write (.members []), .enter (.member name .nothing), .leave]).Conforms admits := by
  apply (conforms.openChild name).leave
  intro other body
  rw [parts_openChild parts name]
  simp

end Outline.Conforms

end SceneStream
