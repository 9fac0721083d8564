import SceneStream.Proofs.Session.Legality
import SceneStream.Proofs.Writer.Calling

/-!
# A value for a child in one command

To write the value of a child takes three commands: the child is opened, written and closed, and it is
closed whether or not the write was answered. One command does all that, and both leave the same
session whatever fails on the way.
-/

namespace SceneStream

/-- A path with one more name leads to the member of what it led to. -/
theorem Shape.follow?_concat {shape found : Shape} {path : List String} {name : String}
    {content : Content} (followed : shape.follow? path = some found)
    (member : found.child? name = some content) :
    shape.follow? (path ++ [name]) = some (.property content) := by
  induction path generalizing shape with
  | nil =>
      obtain rfl := Option.some.inj followed
      simp [follow?, member]
  | cons first path ih =>
      obtain ⟨inner, child, rest⟩ := Option.bind_eq_some_iff.mp followed
      rw [List.cons_append, follow?, child]
      exact ih rest

/-- A write that fails leaves the property open, or closed, as it was. -/
theorem Property.token_of_write {s : Stream} {p : Property} {k : Kind} {e : k.Encoding}
    {b : Binding k} {error : Error} {w : Writing Property}
    (run : write k e b ⟨s, p⟩ = .error error w) : w.own.token = p.token := by
  by_cases legal : p.TakesValue s ∧ b.IsValid
  · have executes := executes_write (e := e) legal.1 legal.2
    cases made : Stream.performs
        (((Write.ofBinding s.settings p.forceObject k e b).entry p.scope).calls p.scope) s with
    | ok _ s' => cases (executes.answers s s' (refl s) made).symm.trans run
    | error failure s' =>
        obtain ⟨q, token, failed⟩ := executes.fails s failure s' (refl s) made
        obtain ⟨-, rfl⟩ := EStateM.Result.error.inj (failed.symm.trans run)
        exact token
  · obtain ⟨failure, -, refused⟩ := (adds_write k e b).refuses legal
    obtain ⟨-, rfl⟩ := EStateM.Result.error.inj (refused.symm.trans run)
    rfl

namespace Session

variable {s s' : Session} {a : Address} {h child : Handle} {name : String} {content : Content}
  {α : Type}

/-! ## Finding the child -/

theorem handle?_child (found : s.handle? a = some h) (member : h.shape.child? name = some content) :
    s.handle? (a.child name) = some ⟨a.child name, .property content⟩ := by
  obtain ⟨shape, shaped, rest⟩ := Option.bind_eq_some_iff.mp found
  obtain ⟨end_shape, followed, made⟩ := Option.bind_eq_some_iff.mp rest
  obtain rfl := Option.some.inj made
  have child : shape.follow? (a.child name).path = some (.property content) :=
    Shape.follow?_concat followed member
  have root : s.shapeAt? (a.child name).root = some shape := shaped
  simp [handle?, root, child]

/-- The same writers are found. -/
def FindsAlike (s s' : Session) : Prop := s'.handle? = s.handle?

instance : IsPreorder Session FindsAlike where
  refl _ := rfl
  trans _ _ _ h h' := h'.trans h

theorem findsAlike_onProperty (op : PropertyM α) : Moves FindsAlike (onProperty a op) := by
  intro s
  unfold behind onProperty
  cases op ⟨s.stream, s.propertyAt a⟩ <;> rfl

theorem findsAlike_onPacket {r : Root} (op : PacketM α) : Moves FindsAlike (onPacket r op) := by
  intro s
  unfold behind onPacket
  cases op ⟨s.stream, s.packetAt r⟩ <;> rfl

theorem findsAlike_finish : Moves FindsAlike (finish h) :=
  moves_finish (fun _ => findsAlike_onPacket) (fun _ => findsAlike_onProperty _) h

theorem findsAlike_startChild : Moves FindsAlike (startChild h child) :=
  moves_startChild (fun _ => findsAlike_onPacket) (fun _ => findsAlike_onProperty _)
    (fun _ => findsAlike_onProperty _) h child

/-! ## Three commands -/

/-- A value for a child in three commands: one opens it, one writes it, and one closes it, whatever
came of the write. The first that is not answered is what comes of all three. -/
def writeApart (s : Session) (a : Address) (name : String) (c : ValueCommand) : Outcome × Session :=
  let opened := s.step (.parent a (.startChild name))
  match opened.1 with
  | .answered _ =>
    let written := opened.2.step (.value (a.child name) c)
    let closed := written.2.step (.writer (a.child name) .finish)
    match written.1 with
    | .answered _ => closed
    | failed => (failed, closed.2)
  | failed => (failed, opened.2)

/-- A child that was opened is still open if a write to it fails. -/
theorem isOpen_of_failed {s₁ s₂ : Session} {k : Kind} {e : k.Encoding} {b : Binding k}
    {error : Error} (opened : startChild h ⟨a, .property content⟩ s = .ok () s₁)
    (failed : onProperty a (Property.write k e b) s₁ = .error error s₂) :
    s₂.isOpen ⟨a, .property content⟩ = true := by
  obtain ⟨_, s₀, -, started⟩ := ok_of_bind opened
  obtain ⟨t, left⟩ := propertyAt_of_start started rfl
  obtain ⟨w, run, rfl⟩ := error_of_onProperty failed
  have token : w.own.token = some t := by
    rw [Property.token_of_write run, left]
    rfl
  have kept : Session.propertyAt { s₁ with
      stream := w.stream, properties := s₁.properties.put a w.own } a = w.own :=
    propertyAt_of_put rfl
  simp [isOpen, kept, Property.isOpen, token]

section

variable {k : Kind} (found : s.handle? a = some h) (member : h.shape.child? name = some (.value k))
include found member

/-- The child as its parent finds it. -/
theorem member?_of_child? :
    member? h name = some (⟨a.child name, .property (.value k)⟩, .value k) := by
  obtain ⟨rfl, -⟩ := place_of_handle? found
  simp [member?, member]

theorem operation?_startChild : s.operation? (.parent a (.startChild name)) =
    some (doing (startChild h ⟨a.child name, .property (.value k)⟩)) := by
  simp [operation?, found, onParent?, member?_of_child? found member]

theorem operation?_writeOfChild (e : k.Encoding) (b : Binding k) :
    s.operation? (.value (a.child name) (.write k e b)) =
      some (doing (onProperty (a.child name) (Property.write k e b))) :=
  operation?_value (handle?_child found member) (if_pos rfl)

theorem operation?_finishOfChild : s.operation? (.writer (a.child name) .finish) =
    some (doing (finish ⟨a.child name, .property (.value k)⟩)) := by
  rw [operation?, handle?_child found member]
  rfl

/-- What a command that writes a child comes to. -/
theorem step_of_writeChild {c : ParentCommand} {e : k.Encoding} {b : Binding k}
    (called : onParent? h c = some (doing
      (writeChild h ⟨a.child name, .property (.value k)⟩ (Property.write k e b)))) :
    s.step (.parent a c) = s.writeApart a name (.write k e b) := by
  let child : Handle := ⟨a.child name, .property (.value k)⟩
  have call : s.operation? (.parent a c) =
      some (doing (writeChild h child (Property.write k e b))) := by
    simpa [operation?, found] using called
  have opening := operation?_startChild found member
  unfold writeApart
  cases opened : startChild h child s with
  | error failure s₁ =>
      rw [step_of_error opening (doing_error opened),
        step_of_error call (doing_error (bind_of_error opened _))]
  | ok _ s₁ =>
      have kept₁ : s₁.handle? = s.handle? := findsAlike_startChild.of_ok opened
      have writing := operation?_writeOfChild (kept₁ ▸ found) member e b
      have closing₂ {s₂ : Session} (kept₂ : s₂.handle? = s₁.handle?) :
          s₂.operation? (.writer (a.child name) .finish) = some (doing (finish child)) :=
        operation?_finishOfChild (kept₂ ▸ kept₁ ▸ found) member
      rw [step_of_ok opening (doing_ok opened)]
      cases written : onProperty (a.child name) (Property.write k e b) s₁ with
      | ok _ s₂ =>
          have closing := closing₂ ((findsAlike_onProperty _).of_ok written)
          have whole : writeChild h child (Property.write k e b) s = finish child s₂ := by
            rw [writeChild, bind_of_ok opened, closing_of_ok written]
          simp only [step_of_ok writing (doing_ok written)]
          cases closed : finish child s₂ with
          | ok _ s₃ =>
              rw [step_of_ok closing (doing_ok closed),
                step_of_ok call (doing_ok (whole.trans closed))]
          | error failure s₃ =>
              rw [step_of_error closing (doing_error closed),
                step_of_error call (doing_error (whole.trans closed))]
      | error failure s₂ =>
          have closing := closing₂ (behind_of_error written ▸ findsAlike_onProperty _ s₁)
          have whole : writeChild h child (Property.write k e b) s =
              .error failure (behind (finish child) s₂) := by
            rw [writeChild, bind_of_ok opened, closing_of_error written,
              behind_of_ok (release_of_isOpen (isOpen_of_failed opened written))]
          simp only [step_of_error writing (doing_error written),
            step_of_error call (doing_error whole), behind_of_operation? closing]
          cases closed : finish child s₂ with
          | ok _ s₃ => rw [behind_of_ok closed, behind_of_ok (doing_ok closed)]
          | error _ s₃ => rw [behind_of_error closed, behind_of_error (doing_error closed)]

/-- A child that is written in one command. -/
theorem step_writeChild (e : k.Encoding) (b : Binding k) :
    s.step (.parent a (.writeChild name k e b)) = s.writeApart a name (.write k e b) := by
  apply step_of_writeChild found member
  simp [onParent?, member?_of_child? found member]

/-- A child that is made a reference in one command. -/
theorem step_referChild {source : Reference.Source} {r : Reference}
    (resolved : source.resolve = .ok r) :
    s.step (.parent a (.referChild name source)) =
      s.writeApart a name (.write k k.standard (.reference r)) := by
  apply step_of_writeChild found member
  simp [onParent?, member?_of_child? found member, referChild, resolved]

end

end Session

end SceneStream
