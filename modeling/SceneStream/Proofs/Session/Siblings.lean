import SceneStream.Proofs.Session.Belonging
import SceneStream.Proofs.Session.OneCall
import SceneStream.Proofs.Writer.Within

/-!
# From one child to the next

A child is opened inside its parent, written, and closed again. Unless the sink fails, its parent is
then the innermost writer as before, with one more member in its object, and takes the next child;
this holds as well where the value was refused.
-/

namespace SceneStream

open Session

theorem WantsRoom.onProperty {α : Type} {limit : Option Nat} {s : Session} {a : Address}
    {op : PropertyM α} (h : WantsRoom limit (op ⟨s.stream, s.propertyAt a⟩)) :
    WantsRoom limit (onProperty a op s) := by
  obtain ⟨limited, e, w, run, other⟩ := h
  exact ⟨limited, e, _, onProperty_error run, other⟩

namespace Session

variable {s s' s₀ s₁ : Session} {a : Address} {h : Handle} {q : Place} {content : Content}
  {writers : List Token} {outer : Nesting} {limit : Option Nat} {k : Kind} {e : k.Encoding}
  {b : Binding k}

/-- The first of these openings is that of the writer at a place, which is a packet or an object. -/
structure Heads (s : Session) (q : Place) (writers : List Token) : Prop where
  token : ∃ t, (s.stateAt q).token? = some t ∧ writers.head? = some t
  object : ∀ p, s.stateAt q = .property p → p.scope = .object

theorem Heads.congr (heads : s.Heads q writers) (same : s'.stateAt q = s.stateAt q) :
    s'.Heads q writers := by
  refine ⟨?_, ?_⟩
  · rw [same]
    exact heads.token
  · rw [same]
    exact heads.object

/-- The writer at a place is the innermost one, and its object takes one more member. -/
structure Awaits (s : Session) (q : Place) : Prop where
  heads : s.Heads q s.stream.writers
  member : ∃ members rest, s.stream.frames = .object members false :: rest

/-- The property is the innermost writer, directly inside the writer at a place, and leaves `outer`
behind when it is closed. -/
structure Inside (s : Session) (q : Place) (a : Address) (writers : List Token) (outer : Nesting)
    (limit : Option Nat) : Prop where
  parent : s.Heads q writers
  token : ∃ t, (s.propertyAt a).token = some t ∧ s.stream.writers = t :: writers
  within : (s.propertyAt a).scope.Within outer s.stream.nesting
  ungranted : s.stream.grant = none
  limit : s.stream.sink.limit = limit

/-- The writer at a place is the innermost one, and has granted a place for one child in its
object. -/
structure Grants (s : Session) (q : Place) (writers : List Token) (limit : Option Nat) : Prop where
  heads : s.Heads q writers
  writers : s.stream.writers = writers
  grant : s.stream.grant = s.stream.active?
  limit : s.stream.sink.limit = limit

/-! ## Opening -/

theorem grants_of_prepareChild (run : prepareChild h s = .ok () s₀) :
    s₀.Grants h.place s.stream.writers s.stream.sink.limit := by
  obtain ⟨address, shape⟩ := h
  cases shape with
  | packet =>
      obtain ⟨w, made, rfl⟩ := ok_of_onPacket run
      have turn : (s.packetAt address.root).HasTurn s.stream := by
        by_contra away
        obtain ⟨e, -, refused⟩ := Packet.refuses_prepareChild away
        cases refused.symm.trans made
      obtain ⟨t, token, active⟩ := turn
      rw [Packet.prepareChild_ok token active] at made
      obtain rfl := (EStateM.Result.ok.inj made).2
      have here := (put_packet s address.root (s.stream.granting t) (s.packetAt address.root)).here
      refine ⟨⟨⟨t, (congrArg WriterState.token? here).trans token, active⟩, ?_⟩, rfl, active.symm,
        rfl⟩
      intro p same
      cases here.symm.trans same
  | property content =>
      obtain ⟨w, made, rfl⟩ := ok_of_onProperty run
      obtain ⟨t, stream, token, active, like, rfl⟩ := Property.eq_of_prepareChild made
      have here := (put_property s address (stream.granting t)
        { s.propertyAt address with scope := .object }).here
      refine ⟨⟨⟨t, (congrArg WriterState.token? here).trans token, ?_⟩, ?_⟩, like.writers,
        active.symm, like.limit⟩
      · rw [← like.writers]
        exact active
      · intro p same
        obtain rfl := WriterState.property.inj (here.symm.trans same)
        rfl

/-- Where a member is awaited, a place is granted without a trace in the text. -/
theorem Awaits.prepareChild (awaits : s.Awaits h.place) :
    ∃ s₀, Session.prepareChild h s = .ok () s₀ ∧ s₀.stream.frames = s.stream.frames ∧
      ∀ r, r ≠ h.place → s₀.stateAt r = s.stateAt r := by
  obtain ⟨t, token, active⟩ := awaits.heads.token
  obtain ⟨address, shape⟩ := h
  cases shape with
  | packet =>
      exact ⟨_, onPacket_eq (Packet.prepareChild_ok token active), rfl,
        (put_packet s address.root (s.stream.granting t) _).elsewhere⟩
  | property content =>
      have object := awaits.heads.object (s.propertyAt address) rfl
      exact ⟨_, onProperty_eq (Property.prepareChild_of_object token active object), rfl,
        (put_property s address (s.stream.granting t) _).elsewhere⟩

/-- A member that is closed is opened in the place that was granted, unless the sink has no room for
its name. -/
theorem Grants.start (grants : s.Grants q writers limit) (away : q ≠ .property a)
    (closed : (s.propertyAt a).token = none) (role : (s.propertyAt a).role = .member)
    {members : Nat} {rest : List Frame} (frames : s.stream.frames = .object members false :: rest)
    (content : Content) :
    (∃ s', Session.start ⟨a, .property content⟩ s = .ok () s' ∧
        (s'.propertyAt a).TakesValue s'.stream ∧
        s'.Inside q a writers ⟨.object (members + 1) false :: rest, s.stream.rootWritten⟩ limit) ∨
      WantsRoom limit (Session.start ⟨a, .property content⟩ s) := by
  have permitted : s.stream.nesting.accept (s.propertyAt a).firstCall =
      some ⟨.object (members + 1) true :: rest, s.stream.rootWritten⟩ := by
    rw [Property.firstCall_of_member role]
    exact Nesting.accept_name.mpr ⟨members, rest, frames, rfl⟩
  rcases Property.start_of_accept closed (.inr grants.grant) permitted with
    ⟨stream, run, noted, like⟩ | out
  · left
    have put := put_property s a stream.opened ((s.propertyAt a).started stream.nextToken)
    have here := WriterState.property.inj put.here
    have scope : ((s.propertyAt a).started stream.nextToken).scope = .unopened := by
      simp [Property.started, Property.part, role, Part.scope, Body.scope]
    refine ⟨_, onProperty_eq run, ?_, grants.heads.congr (put.elsewhere q away), ?_, ?_, rfl,
      like.limit.trans grants.limit⟩
    · refine ⟨⟨⟨stream.nextToken, congrArg Property.token here, rfl⟩, .inl ?_⟩, ?_⟩
      · exact (congrArg Property.scope here).trans scope
      · exact congrArg Property.valueWritten here
    · refine ⟨stream.nextToken, congrArg Property.token here, ?_⟩
      rw [← grants.writers, ← like.writers]
      rfl
    · have opened : stream.opened.nesting = stream.nesting := rfl
      rw [congrArg Property.scope here, scope]
      exact congrArg Nesting.inside? (opened.trans noted)
  · exact .inr (grants.limit ▸ out.onProperty)

/-- Where a member was opened, it was closed before, and its name was due. -/
theorem frames_of_start (role : (s.propertyAt a).role = .member)
    (run : Session.start ⟨a, .property content⟩ s = .ok () s') :
    (s.propertyAt a).token = none ∧
      ∃ members rest, s.stream.frames = .object members false :: rest := by
  obtain ⟨w, made, -⟩ := ok_of_onProperty run
  constructor
  · by_contra opened
    obtain ⟨e, -, refused⟩ := Property.refuses_start_of (s := s.stream) (.inl opened)
    cases refused.symm.trans made
  · cases permitted : s.stream.nesting.accept (s.propertyAt a).firstCall with
    | none =>
        obtain ⟨e, -, refused⟩ := Property.refuses_start_of (.inr (.inr permitted))
        cases refused.symm.trans made
    | some n =>
        rw [Property.firstCall_of_member role] at permitted
        obtain ⟨members, rest, frames, -⟩ := Nesting.accept_name.mp permitted
        exact ⟨members, rest, frames⟩

/-! ## Writing and closing -/

/-- What is put in place of a property that is the innermost writer. -/
theorem Inside.put (inside : s.Inside q a writers outer limit) (away : q ≠ .property a)
    {stream : Stream} {p : Property} (token : p.token = (s.propertyAt a).token)
    (within : p.scope.Within outer stream.nesting) (like : s.stream.Continues stream) :
    Inside { s with stream, properties := s.properties.put a p } q a writers outer limit := by
  have put := put_property s a stream p
  have here : propertyAt { s with stream, properties := s.properties.put a p } a = p :=
    propertyAt_of_put rfl
  refine ⟨inside.parent.congr (put.elsewhere q away), ?_, ?_, like.grant.trans inside.ungranted,
    like.limit.trans inside.limit⟩
  · obtain ⟨t, opened, stacked⟩ := inside.token
    exact ⟨t, by rw [here, token, opened], like.writers.trans stacked⟩
  · rw [here]
    exact within

/-- A value is written, or refused without a trace, unless the sink has no room for it. -/
theorem Inside.write (inside : s.Inside q a writers outer limit) (away : q ≠ .property a)
    (takes : (s.propertyAt a).TakesValue s.stream) :
    (∃ s', onProperty a (Property.write k e b) s = .ok () s' ∧
        s'.Inside q a writers outer limit) ∨
      (¬ b.IsValid ∧ ∃ error s', onProperty a (Property.write k e b) s = .error error s' ∧
        error.isRefusal = true ∧ s'.Inside q a writers outer limit) ∨
      WantsRoom limit (onProperty a (Property.write k e b) s) := by
  by_cases valid : b.IsValid
  · rcases Property.write_within (e := e) takes valid inside.within with
      ⟨stream, p, run, token, within, like⟩ | out
    · exact .inl ⟨_, onProperty_eq run, inside.put away token within like⟩
    · exact .inr (.inr (inside.limit ▸ out.onProperty))
  · obtain ⟨error, refusal, refused⟩ := (Property.adds_write k e b).refuses
      (s := s.stream) (p := s.propertyAt a) fun legal => valid legal.2
    exact .inr (.inl ⟨valid, error, _, onProperty_error refused, refusal,
      inside.put away rfl inside.within (refl s.stream)⟩)

/-- The property is closed, unless the sink has no room for its end. -/
theorem Inside.finish (inside : s.Inside q a writers outer limit) (away : q ≠ .property a)
    (object : ∃ members rest, outer.frames = .object members false :: rest) (content : Content) :
    (∃ s', Session.finish ⟨a, .property content⟩ s = .ok () s' ∧ s'.Awaits q ∧
        (s'.propertyAt a).isOpen = false ∧ s'.stream.writers = writers ∧ s'.stream.grant = none ∧
        s'.stream.sink.limit = limit) ∨
      WantsRoom limit (Session.finish ⟨a, .property content⟩ s) := by
  obtain ⟨t, opened, stacked⟩ := inside.token
  have active : s.stream.active? = some t := congrArg List.head? stacked
  rcases Property.finish_within opened active inside.within with ⟨stream, run, noted, like⟩ | out
  · left
    have put := put_property s a stream.closed
      { s.propertyAt a with token := none, scope := .unopened }
    have left : stream.closed.writers = writers := by
      rw [Stream.closed, like.writers, stacked]
      rfl
    refine ⟨_, onProperty_eq run, ⟨?_, ?_⟩, ?_, left, rfl, like.limit.trans inside.limit⟩
    · rw [left]
      exact inside.parent.congr (put.elsewhere q away)
    · obtain ⟨members, rest, frames⟩ := object
      exact ⟨members, rest, (congrArg Nesting.frames noted).trans frames⟩
    · exact (congrArg Property.isOpen (WriterState.property.inj put.here)).trans rfl
  · exact .inr (inside.limit ▸ out.onProperty)

/-! ## One child -/

/-- Where a child was opened, it lies in an object that is left behind with one more member. -/
theorem inside_of_startChild (away : h.place ≠ .property a)
    (role : (s.propertyAt a).role = .member)
    (run : startChild h ⟨a, .property content⟩ s = .ok () s') :
    ∃ outer : Nesting, (∃ members rest, outer.frames = .object members false :: rest) ∧
      s'.Inside h.place a s.stream.writers outer s.stream.sink.limit ∧
      (s'.propertyAt a).TakesValue s'.stream := by
  obtain ⟨_, s₀, prepared, started⟩ := ok_of_bind run
  have touches : Touches (fun q => q = h.place) (fun _ => False) s s₀ :=
    (touches_prepareChild (by exact rfl)).of_ok prepared
  have same : s₀.propertyAt a = s.propertyAt a :=
    WriterState.property.inj (touches.elsewhere _ away.symm)
  rw [← same] at role
  obtain ⟨closed, members, rest, frames⟩ := frames_of_start role started
  rcases (grants_of_prepareChild prepared).start away closed role frames content with
    ⟨s₁, run', takes, inside⟩ | ⟨-, e, s₁, run', -⟩
  · obtain rfl := (EStateM.Result.ok.inj (run'.symm.trans started)).2
    exact ⟨_, ⟨_, _, rfl⟩, inside, takes⟩
  · cases run'.symm.trans started

/-- Where a member is awaited, one that is closed is opened, written and closed, unless the sink has no
room for it. -/
theorem Awaits.writeChild (awaits : s.Awaits h.place) (away : h.place ≠ .property a)
    (closed : (s.propertyAt a).token = none) (role : (s.propertyAt a).role = .member)
    (valid : b.IsValid) (content : Content) :
    (∃ s', Session.writeChild h ⟨a, .property content⟩ (Property.write k e b) s = .ok () s') ∨
      WantsRoom s.stream.sink.limit
        (Session.writeChild h ⟨a, .property content⟩ (Property.write k e b) s) := by
  obtain ⟨s₀, prepared, frames, others⟩ := awaits.prepareChild
  obtain ⟨members, rest, noted⟩ := awaits.member
  have same : s₀.propertyAt a = s.propertyAt a :=
    WriterState.property.inj (others _ away.symm)
  rw [← same] at closed role
  rcases (grants_of_prepareChild prepared).start away closed role (frames.trans noted) content with
    ⟨s₁, started, takes, inside⟩ | out
  · have opened : startChild h ⟨a, .property content⟩ s = .ok () s₁ :=
      (bind_of_ok prepared _).trans started
    rw [Session.writeChild, bind_of_ok opened]
    rcases inside.write (e := e) (b := b) away takes with
      ⟨s₂, written, inside⟩ | ⟨invalid, -⟩ | ⟨limited, failure, s₂, written, other⟩
    · rw [closing_of_ok written]
      rcases inside.finish away ⟨_, _, rfl⟩ content with ⟨s₃, finished, -⟩ | out
      · exact .inl ⟨s₃, finished⟩
      · exact .inr out
    · exact absurd valid invalid
    · exact .inr ⟨limited, failure, _, closing_of_error written, other⟩
  · exact .inr (WantsRoom.bind (.after prepared out) _)

end Session

end SceneStream
