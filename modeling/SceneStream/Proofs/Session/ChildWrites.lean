import SceneStream.Proofs.Session.Siblings

/-!
# Values for one child after the other

To write a child in one command is to open it, to write it and to close it, on any stream, with any
writers and any sink. Unless the sink fails, the parent is then as far as before it, with one more
member, even where the value was refused; and any member that is not open can be written next.
-/

namespace SceneStream

/-- Whether the sink failed, for which no call is to blame. -/
def Outcome.isFailure : Outcome → Bool
  | .refused e => !e.isRefusal
  | .answered _ | .misdirected => false

namespace Session

variable {s s' s₀ s₁ s₂ s₃ : Session} {h : Handle} {name : String} {k : Kind} {e : k.Encoding}
  {b : Binding k} {c : Command} {op : SessionM Unit} {limit : Option Nat}

/-- A command that only does something is answered or refused as that is. -/
theorem step_of_doing (called : s.operation? c = some (doing op)) :
    (∃ s', op s = .ok () s' ∧ s.step c = (.answered .done, s')) ∨
      ∃ e s', op s = .error e s' ∧ s.step c = (.refused e, s') := by
  cases run : op s with
  | ok _ s' => exact .inl ⟨s', rfl, step_of_ok called (doing_ok run)⟩
  | error e s' => exact .inr ⟨e, s', rfl, step_of_error called (doing_error run)⟩

theorem isFailure_of_wantsRoom (called : s.operation? c = some (doing op))
    (out : WantsRoom limit (op s)) : limit ≠ none ∧ (s.step c).1.isFailure = true := by
  obtain ⟨limited, e, s', run, other⟩ := out
  refine ⟨limited, ?_⟩
  rw [step_of_error called (doing_error run)]
  simp [Outcome.isFailure, other]

/-- What the second session is when a child was opened in the first one, written and closed: the same
writers are open, the parent is the innermost one, and the next member of it can be written. -/
structure Settles (s : Session) (h : Handle) (name : String) (s' : Session) : Prop where
  closed : (s'.propertyAt (h.address.child name)).isOpen = false
  writers : s'.stream.writers = s.stream.writers
  turn : s'.HasTurn h.place
  unanswered : s'.stream.isValuePending = false
  ungranted : s'.stream.grant = none
  /-- A valid value for a member that is closed is written, unless a sink with a limit fails. -/
  next : ∀ sibling k e b, h.shape.child? sibling = some (.value k) →
    (s'.propertyAt (h.address.child sibling)).isOpen = false → b.IsValid →
    (s'.step (.parent h.address (.writeChild sibling k e b))).1 = .answered .done ∨
      s.stream.sink.limit ≠ none ∧
        (s'.step (.parent h.address (.writeChild sibling k e b))).1.isFailure = true

/-- A child is written in one command as in three. -/
structure WritesApart (s : Session) (h : Handle) (name : String) (k : Kind) : Prop where
  write : ∀ e b, s.step (.parent h.address (.writeChild name k e b)) =
    s.writeApart h.address name (.write k e b)
  refer : ∀ source r, source.resolve = .ok r →
    s.step (.parent h.address (.referChild name source)) =
      s.writeApart h.address name (.write k k.standard (.reference r))
  /-- Once the child was opened, all is settled behind the three, whether the value was written or
  refused, unless a sink with a limit fails at one of the other two. -/
  settles : ∀ e b reply s₁ written s₂ closed s₃,
    s.step (.parent h.address (.startChild name)) = (.answered reply, s₁) →
    s₁.step (.value (h.address.child name) (.write k e b)) = (written, s₂) →
    s₂.step (.writer (h.address.child name) .finish) = (closed, s₃) →
    (closed = .answered .done ∧ s.Settles h name s₃) ∨
      s.stream.sink.limit ≠ none ∧ (written.isFailure = true ∨ closed.isFailure = true)

/-- The parent takes its next member. -/
theorem Awaits.answers_writeChild (awaits : s.Awaits h.place) (regular : s.IsRegular)
    (found : s.handle? h.address = some h) {sibling : String}
    (member : h.shape.child? sibling = some (.value k))
    (closed : (s.propertyAt (h.address.child sibling)).isOpen = false) (valid : b.IsValid) :
    (s.step (.parent h.address (.writeChild sibling k e b))).1 = .answered .done ∨
      s.stream.sink.limit ≠ none ∧
        (s.step (.parent h.address (.writeChild sibling k e b))).1.isFailure = true := by
  have inner := member?_of_child? found member
  have called : s.operation? (.parent h.address (.writeChild sibling k e b)) =
      some (doing (Session.writeChild h ⟨h.address.child sibling, .property (.value k)⟩
        (Property.write k e b))) := by
    simp [operation?, found, onParent?, inner]
  have role := regular.role h.address sibling
  have token : (s.propertyAt (h.address.child sibling)).token = none := by
    simpa [Property.isOpen] using closed
  rcases awaits.writeChild (e := e) (isChild_of_member? found inner).place_ne.symm token role valid
    (.value k) with ⟨s', run⟩ | out
  · exact .inl (congrArg Prod.fst (step_of_ok called (doing_ok run)))
  · exact .inr (isFailure_of_wantsRoom called out)

/-- Closing the child settles all. -/
theorem settles_of_finish {outer : Nesting} (regular : s₃.IsRegular)
    (found : s₂.handle? h.address = some h) (member : h.shape.child? name = some (.value k))
    (inside : s₂.Inside h.place (h.address.child name) s.stream.writers outer s.stream.sink.limit)
    (object : ∃ members rest, outer.frames = .object members false :: rest) {closed : Outcome}
    (closing : s₂.step (.writer (h.address.child name) .finish) = (closed, s₃)) :
    (closed = .answered .done ∧ s.Settles h name s₃) ∨
      s.stream.sink.limit ≠ none ∧ closed.isFailure = true := by
  have away := (isChild_of_member? found (member?_of_child? found member)).place_ne.symm
  have called := operation?_finishOfChild found member
  rcases inside.finish away object (.value k) with
    ⟨s', run, awaits, unopened, writers, grant, limit⟩ | out
  · left
    obtain ⟨rfl, rfl⟩ := Prod.mk.inj (closing.symm.trans (step_of_ok called (doing_ok run)))
    have kept : s₃.handle? = s₂.handle? := findsAlike_finish.of_ok run
    refine ⟨rfl, unopened, writers, awaits.heads.token, ?_, grant, ?_⟩
    · obtain ⟨members, rest, frames⟩ := awaits.member
      rw [Stream.isValuePending, frames]
    · intro sibling k e b member closed valid
      rw [← limit]
      exact awaits.answers_writeChild regular (kept ▸ found) member closed valid
  · right
    have failed := isFailure_of_wantsRoom called out
    rwa [closing] at failed

/-- Whatever was done before, on whatever sink: a value for a child in one command comes to what it
comes to in three, and afterwards the parent takes its next member. -/
theorem writesApart_run {document : Bool} {sink : Sink} {settings : Settings} {cs : List Command}
    (begun : new document sink settings = .ok s₀) {a : Address}
    (found : (s₀.run cs).handle? a = some h) (member : h.shape.child? name = some (.value k)) :
    (s₀.run cs).WritesApart h name k := by
  obtain ⟨rfl, -⟩ := place_of_handle? found
  have regular : (s₀.run cs).IsRegular := (isRegular_of_new begun).run cs
  generalize s₀.run cs = s at found regular
  refine ⟨step_writeChild found member, fun source r => step_referChild found member, ?_⟩
  intro e b reply s₁ written s₂ closed s₃ opening writing closing
  have regular₃ : s₃.IsRegular := by
    have behind := ((regular.step (.parent h.address (.startChild name))).step
      (.value (h.address.child name) (.write k e b))).step (.writer (h.address.child name) .finish)
    rwa [opening, writing, closing] at behind
  have away := (isChild_of_member? found (member?_of_child? found member)).place_ne.symm
  have role := regular.role h.address name
  rcases step_of_doing (operation?_startChild found member) with ⟨s', run, step⟩ | ⟨e, s', -, step⟩
  · obtain ⟨-, rfl⟩ := Prod.mk.inj (opening.symm.trans step)
    obtain ⟨outer, object, inside, takes⟩ := inside_of_startChild away role run
    have found₁ : s₁.handle? h.address = some h := by
      rw [findsAlike_startChild.of_ok run]
      exact found
    have called := operation?_writeOfChild found₁ member e b
    -- The child can be closed whether the value was written or refused.
    have settled (inside : s₂.Inside h.place (h.address.child name) s.stream.writers outer
        s.stream.sink.limit) (kept : s₁.FindsAlike s₂) :
        (closed = .answered .done ∧ s.Settles h name s₃) ∨
          s.stream.sink.limit ≠ none ∧ (written.isFailure = true ∨ closed.isFailure = true) :=
      (settles_of_finish regular₃ (kept ▸ found₁) member inside object closing).imp_right
        (And.imp_right .inr)
    have alike := findsAlike_onProperty (a := h.address.child name) (Property.write k e b) s₁
    rcases inside.write (e := e) (b := b) away takes with
      ⟨s', run, inside⟩ | ⟨-, error, s', run, -, inside⟩ | out
    · obtain ⟨-, rfl⟩ := Prod.mk.inj (writing.symm.trans (step_of_ok called (doing_ok run)))
      exact settled inside (behind_of_ok run ▸ alike)
    · obtain ⟨-, rfl⟩ := Prod.mk.inj (writing.symm.trans (step_of_error called (doing_error run)))
      exact settled inside (behind_of_error run ▸ alike)
    · have failed := isFailure_of_wantsRoom called out
      rw [writing] at failed
      exact .inr ⟨failed.1, .inl failed.2⟩
  · cases opening.symm.trans step

/-- A rectangle that was opened in its own height, which is a child of a box. -/
def insideOut : List Command :=
  let packet : Address := { root := .document }
  let box : Address := packet.child "box"
  let rectangle : Address := { root := .slot "rectangle" }
  [.document .openPacket, .parent packet (.startChild "box"), .property box .prepareChild,
    .make "rectangle" (.property (.composite .rectangle)) "rectangle",
    .writer (rectangle.child "height") .start, .property (rectangle.child "height") .prepareChild,
    .writer rectangle .start]

theorem writesApart_run_insideOut :
    new true {} {} = .ok (newDocument {}) ∧
      ((newDocument {}).run insideOut).handle? { root := .slot "rectangle" } =
        some ⟨{ root := .slot "rectangle" }, .property (.composite .rectangle)⟩ ∧
      (Shape.property (.composite .rectangle)).child? "show" = some (.value .boolean) ∧
      ((newDocument {}).run insideOut).WritesApart
        ⟨{ root := .slot "rectangle" }, .property (.composite .rectangle)⟩ "show" .boolean := by
  have begun : new true {} {} = .ok (newDocument {}) := rfl
  have found : ((newDocument {}).run insideOut).handle? { root := .slot "rectangle" } =
      some ⟨{ root := .slot "rectangle" }, .property (.composite .rectangle)⟩ := by decide +kernel
  have member : (Shape.property (.composite .rectangle)).child? "show" =
      some (.value .boolean) := by
    decide +kernel
  exact ⟨begun, found, member, writesApart_run begun found member⟩

/-- Behind a child that was written and closed, a member is not written if it is open itself. -/
theorem refuses_height_of_insideOut :
    let rectangle : Address := { root := .slot "rectangle" }
    let s := (newDocument {}).run insideOut
    let shown : Command := .parent rectangle (.writeChild "show" .boolean () (.literal true))
    let lifted : Command :=
      .parent rectangle (.writeChild "height" .number () (.literal (.zero false)))
    s.answers (.parent rectangle (.startChild "show")) = true ∧ s.answers shown = true ∧
      (Binding.literal (.zero false) : Binding .number).IsValid ∧
      ((s.step shown).2.propertyAt (rectangle.child "height")).isOpen = true ∧
      (s.step shown).2.answers lifted = false :=
  ⟨by decide +kernel, by decide +kernel, rfl, by decide +kernel, by decide +kernel⟩

end Session

end SceneStream
