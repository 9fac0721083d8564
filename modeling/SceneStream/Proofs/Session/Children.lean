import SceneStream.Proofs.Session.Single
import SceneStream.Proofs.Writer.Value

/-!
# Children

A child is opened in two steps: its parent makes a place, which may begin the parent's object, and
then the child takes it. Once the place is made, nothing can keep the child from being opened: it is
closed, since it would lie directly in the innermost writer, and its name may stand in the object.
So a value that is refused comes too late to leave nothing behind.
-/

namespace SceneStream

/-- The operation writes to any property, as a function of the settings and of whether the property
is set to be an object. -/
def Property.Writes (op : PropertyM Unit) (w : Settings → Bool → Write) : Prop :=
  ∀ (s : Stream) (p : Property), ∃ legal p', Adds s p op legal (w s.settings p.forceObject) p'

theorem Property.writes_write (k : Kind) (e : k.Encoding) (b : Binding k) :
    Writes (write k e b) fun settings force => .ofBinding settings force k e b :=
  fun _ _ => ⟨_, _, adds_write k e b⟩

theorem Property.writes_resolved (u : Uri) (resolver : String → String) :
    Writes (writeResolved u resolver) fun _ force => .ofLiteral force .uri () (u.resolve resolver) :=
  fun _ _ => ⟨_, _, adds_writeLiteral .uri () (u.resolve resolver)⟩

/-- Writing no members to an object changes nothing. -/
theorem Part.write_nothing {p : Part} (object : p.scope = .object) :
    p.write ((Write.members []).entry p.scope) = p := by
  rcases p with _ | ⟨_, _ | _ | _ | _⟩ | _ | _ <;>
    simp_all [write, Write.entry, Body.write, scope, Body.scope]

namespace Session

variable {s s' : Session} {o : Outline} {roll : List Opening} {t : Token} {h c : Handle}
  {name : String} {content : Content}

theorem Tells.granting (tells : s.Tells o roll) (t : Token) :
    Tells { s with stream := s.stream.granting t } o roll where
  sound := tells.sound
  shows := ⟨tells.shows.sink, tells.shows.frames, tells.shows.started, tells.shows.reads⟩
  registers := tells.registers.congr rfl rfl rfl fun _ => rfl
  standings := tells.standings
  regular := tells.regular

/-- A place for a child: the parent is the innermost writer and an object, and the one place is
granted to it. -/
structure Prepared (s : Session) (h : Handle) (s' : Session) (o : Outline) (roll : List Opening) :
    Prop where
  tells : s'.Tells o roll
  parent : roll.head?.bind Opening.place = some h.place
  object : ∃ p parts, o.parts = p :: parts ∧ p.scope = .object
  grant : s'.stream.grant = s'.stream.active?
  settings : s'.stream.settings = s.stream.settings
  slots : s'.slots = s.slots
  others : ∀ q, q ≠ h.place → s'.stateAt q = s.stateAt q

/-- A packet is an object from the start, so it makes a place for a child without a call. -/
private theorem Tells.prepareChild_packet (tells : s.Tells o roll) (a : Address) :
    s.Rejects (prepareChild ⟨a, .packet⟩) ∨ ∃ s' roll', prepareChild ⟨a, .packet⟩ s = .ok () s' ∧
      s.Prepared ⟨a, .packet⟩ s' (o.after (.write (.members []))) roll' := by
  by_cases turn : (s.packetAt a.root).HasTurn s.stream
  · obtain ⟨t, token, active⟩ := turn
    obtain ⟨rest, rfl⟩ := tells.registers.head_of_active (q := .packet a.root) token active
    obtain ⟨p, parts, parts_eq, standing, -⟩ := tells.top
    have object : p.scope = .object := by
      cases p <;> first | rfl | cases standing
    have same : o.after (.write (.members [])) = o := by
      simp only [Outline.after, parts_eq, Part.write_nothing object]
      rw [← parts_eq]
    obtain ⟨s', answered, put⟩ := onPacket_ok (Packet.prepareChild_ok token active)
    have told : s'.Tells o _ := Agrees.tells (Put.agrees put) (tells.granting t)
    rw [same]
    refine .inr ⟨s', _, answered, told, rfl, ⟨p, parts, parts_eq, object⟩, ?_, ?_, put.slots,
      put.elsewhere⟩
    · rw [put.stream]
      exact active.symm
    · rw [put.stream]
      rfl
  · exact .inl (rejects_onPacket (Packet.refuses_prepareChild turn))

/-- A property begins its object for a child, unless that is begun already. -/
theorem Tells.prepareChild_of_takes (tells : s.Tells o roll) {a : Address}
    (takes : (s.propertyAt a).TakesEntries s.stream) (content : Content) :
    ∃ s' roll', prepareChild ⟨a, .property content⟩ s = .ok () s' ∧
      s.Prepared ⟨a, .property content⟩ s' (o.after (.write (.members []))) roll' := by
  obtain ⟨turn, scope⟩ := takes
  obtain ⟨t, rest, p, parts, token, active, rfl, parts_eq, standing⟩ := tells.head_of_turn turn
  have same : p.scope = (s.propertyAt a).scope := Part.scope_of_standing standing
  have fits : ((Write.members []).entry p.scope).fits p.scope := Write.fits_entry (same ▸ scope) _
  have accepted : o.draft.acceptAll (s.propertyAt a).scope.opening =
      some (o.after (.write (.members []))).draft := by
    have accepted := tells.accepts_write parts_eq fits
    rwa [Write.entry, Entry.calls, Tree.memberCalls, List.append_nil, same] at accepted
  obtain ⟨text, run, shows⟩ := Property.prepareChild_ok token active scope tells.shows accepted
  have shown : (WriterState.property { s.propertyAt a with scope := .object }).shown? =
      some (t, (s.stateAt (.property a)).standing.wrote .object) := by
    rw [WriterState.shown?, WriterState.token?, token]
    rfl
  have put := put_property s a
  have told := tells.write parts_eq fits (put _ _) shows shown (tells.regular (.property a))
  exact ⟨_, _, onProperty_eq run, told.granting t, rfl,
    ⟨_, parts, by simp only [Outline.after, parts_eq], Part.scope_write fits⟩, active.symm,
    rfl, rfl, (put _ _).elsewhere⟩

theorem Tells.prepareChild (tells : s.Tells o roll) (h : Handle) :
    s.Rejects (prepareChild h) ∨ ∃ s' roll', prepareChild h s = .ok () s' ∧
      s.Prepared h s' (o.after (.write (.members []))) roll' := by
  obtain ⟨address, shape⟩ := h
  cases shape with
  | packet => exact tells.prepareChild_packet address
  | property content =>
      by_cases takes : (s.propertyAt address).TakesEntries s.stream
      · exact .inr (tells.prepareChild_of_takes takes content)
      · exact .inl (rejects_onProperty (Property.refuses_prepareChild takes))

/-! ## Opening a child -/

/-- The child of a writer that was found. -/
structure IsChild (s : Session) (h : Handle) (name : String) (c : Handle) : Prop where
  address : c.address = h.address.child name
  property : ∃ content, c.shape = .property content
  parent : h.place = s.placeAt h.address

theorem isChild_of_member? {a : Address} (found : s.handle? a = some h)
    (member : member? h name = some (c, content)) : s.IsChild h name c := by
  obtain ⟨content', -, made⟩ := Option.bind_eq_some_iff.mp member
  obtain ⟨rfl, rfl⟩ := Prod.mk.inj (Option.some.inj made)
  obtain ⟨rfl, place⟩ := place_of_handle? found
  exact ⟨rfl, ⟨content', rfl⟩, place⟩

namespace IsChild

variable (child : s.IsChild h name c)
include child

theorem place : c.place = .property (h.address.child name) := by
  obtain ⟨content, shape⟩ := child.property
  rw [Handle.place, shape, ← child.address]

/-- A child lies in its parent. -/
theorem around? : s.around? c.place = some h.place := by
  rw [child.place, child.parent]
  exact s.around?_child h.address name

theorem place_ne : c.place ≠ h.place := by
  intro same
  have inside := child.around?
  rw [child.place] at same
  obtain ⟨⟨root, path⟩, shape⟩ := h
  cases shape with
  | packet => cases same
  | property content =>
      have paths := congrArg Address.path (Place.property.inj same)
      simp [Address.child] at paths

/-- The writer of a member has the member's name. -/
theorem partOf (tells : s.Tells o roll) : s.partOf c = .member name .nothing := by
  obtain ⟨content, shape⟩ := child.property
  obtain ⟨role, last⟩ := tells.regular (.property (h.address.child name)) (by simp [Address.child])
  have last : some name = some (s.propertyAt (h.address.child name)).name := by
    simpa [Address.child] using last
  simp only [Session.partOf, shape, child.address, Property.part, role, ← Option.some.inj last]

end IsChild

/-- The session after a child was opened in its parent. -/
structure Opened (s : Session) (c : Handle) (name : String) (s' : Session) (o : Outline) : Prop where
  tells : ∃ t rest, s'.Tells o (⟨t, some c.place, .property name .member .unopened⟩ :: rest)
  ungranted : s'.stream.grant = none
  settings : s'.stream.settings = s.stream.settings
  force : (s'.propertyAt c.address).forceObject = (s.propertyAt c.address).forceObject

/-- Once the parent has made a place, the child is opened. -/
theorem Prepared.start (child : s.IsChild h name c) (prepared : s.Prepared h s' o roll) :
    ∃ s'', Session.start c s' = .ok () s'' ∧
      s.Opened c name s'' (o.after (.enter (.member name .nothing))) := by
  have tells := prepared.tells
  have child' : s'.IsChild h name c := by
    refine ⟨child.address, child.property, ?_⟩
    have bears : s'.bearsPackets = s.bearsPackets := by
      funext r
      cases r <;> simp [bearsPackets, prepared.slots]
    rw [child.parent, placeAt, placeAt, bears]
  obtain ⟨p, parts, parts_eq, object⟩ := prepared.object
  have part := child'.partOf tells
  have fits : (s'.partOf c).Fits o.parts := by
    rw [part, parts_eq]
    exact ⟨p, rfl, object⟩
  have closed : (s'.stateAt c.place).token? = none := by
    cases roll with
    | nil => cases prepared.parent
    | cons x rest => exact tells.registers.closed_inside prepared.parent child'.around?
  have inside : s'.LiesIn c.place (roll.head?.bind Opening.place) :=
    .inl (prepared.parent.trans child'.around?.symm)
  obtain ⟨s'', answered, told, ungranted, settings, put⟩ := tells.start closed
    (.inr prepared.grant) (tells.sound.unfinished parts_eq) fits inside
  rw [part] at told
  refine ⟨s'', answered, ⟨_, _, told⟩, ungranted, settings.trans prepared.settings, ?_⟩
  obtain ⟨content, shape⟩ := child.property
  have place : c.place = .property c.address := child.place.trans (by rw [child.address])
  have before := prepared.others c.place child.place_ne
  have here := put.here
  rw [place] at before here
  rw [startedAt, shape] at here
  rw [WriterState.property.inj here, Property.started, WriterState.property.inj before]

theorem Tells.startChild (tells : s.Tells o roll) (child : s.IsChild h name c) :
    s.Rejects (startChild h c) ∨ ∃ s', startChild h c s = .ok () s' ∧
      s.Opened c name s'
        (o.afterAll [.write (.members []), .enter (.member name .nothing)]) := by
  rcases tells.prepareChild h with rejects | ⟨s', roll', ready, prepared⟩
  · exact .inl (rejects.bind _)
  · obtain ⟨s'', answered, opened⟩ := prepared.start child
    exact .inr ⟨s'', (bind_of_ok ready _).trans answered, opened⟩

/-! ## Writing a child -/

/-- What closing a writer does depends on nothing but what can be seen of a session. -/
theorem Agrees.finish {s₁ : Session} (agrees : s.Agrees s') (h : Handle)
    (run : Session.finish h s = .ok () s₁) :
    ∃ s₁', Session.finish h s' = .ok () s₁' ∧ s₁.Agrees s₁' := by
  obtain ⟨address, shape⟩ := h
  cases shape with
  | packet => exact agrees.onPacket run
  | property content => exact agrees.onProperty run

/-- What is refused on an open writer leaves nothing behind but that the writer is closed. -/
theorem closing_of_rejects {op : SessionM Unit} (rejects : s.Rejects op) (isOpen : s.isOpen c = true)
    (closed : finish c s = .ok () s') :
    ∃ e s'', closing c op s = .error e s'' ∧ e.isRefusal = true ∧ s'.Agrees s'' := by
  obtain ⟨e, s₁, refusal, refused, agrees⟩ := rejects
  obtain ⟨s'', closed', agrees'⟩ := agrees.finish c closed
  have isOpen' : s₁.isOpen c = true := by
    rw [← isOpen]
    unfold Session.isOpen
    split
    · rw [agrees.packetAt]
    · rw [agrees.propertyAt]
  refine ⟨e, s'', ?_, refusal, agrees'⟩
  rw [closing_of_error refused, behind_of_ok (release_of_isOpen isOpen'), behind_of_ok closed']

/-- The second session is the first after a child was opened and closed with nothing written. -/
def LeavesEmpty (s : Session) (h c : Handle) (s' : Session) : Prop :=
  ∃ s₁ s₂, startChild h c s = .ok () s₁ ∧ finish c s₁ = .ok () s₂ ∧ s₂.Agrees s'

/-- A value is written to an open child, or refused; the child is closed in either case. -/
theorem Tells.closing_onProperty {a : Address}
    (tells : s.Tells o roll) (head : roll.head?.bind Opening.place = some (.property a))
    (content : Content) {op : PropertyM Unit} {legal : Prop} {w : Write} {p' : Property}
    (adds : Property.Adds s.stream (s.propertyAt a) op legal w p') :
    (∃ s', closing ⟨a, .property content⟩ (Session.onProperty a op) s = .ok () s' ∧
        s'.Stands (o.afterAll [.write w, .leave])) ∨
      ∃ e s' s'', closing ⟨a, .property content⟩ (Session.onProperty a op) s = .error e s'' ∧
        e.isRefusal = true ∧ Session.finish ⟨a, .property content⟩ s = .ok () s' ∧
        s'.Agrees s'' ∧ s''.Stands (o.after .leave) := by
  obtain ⟨⟨t, _, st⟩, rest, rfl, rfl⟩ : ∃ x rest, x.place = some (.property a) ∧ roll = x :: rest := by
    cases roll with
    | nil => cases head
    | cons x rest => exact ⟨x, rest, head, rfl⟩
  by_cases ok : legal
  · left
    obtain ⟨s₁, t', st', rest', written, told, -⟩ := tells.onProperty adds ok
    obtain ⟨s₂, closed, told', ungranted, -⟩ := told.finish (h := ⟨a, .property content⟩)
    refine ⟨s₂, ?_, ungranted, _, told'⟩
    rw [closing_of_ok written, closed]
  · right
    have rejects := rejects_onProperty (adds.refuses ok)
    obtain ⟨s', closed, told, ungranted, -⟩ := tells.finish (h := ⟨a, .property content⟩)
    have isOpen : s.isOpen ⟨a, .property content⟩ = true :=
      Option.isSome_iff_exists.mpr ⟨t, tells.turn.1⟩
    obtain ⟨e, s'', failed, refusal, agrees⟩ := closing_of_rejects rejects isOpen closed
    exact ⟨e, s', s'', failed, refusal, closed, agrees, agrees.stands ⟨ungranted, _, told⟩⟩

/-- A child is written as a whole, or not at all; but if its value is refused when it is open
already, it stays behind as an empty object. -/
theorem Tells.writeChild (tells : s.Tells o roll) (child : s.IsChild h name c)
    {op : PropertyM Unit} {w : Settings → Bool → Write} (writes : Property.Writes op w) :
    s.Rejects (writeChild h c op) ∧ (∃ e s', Session.startChild h c s = .error e s') ∨
      (∃ s', Session.writeChild h c op s = .ok () s' ∧
        s'.Stands (o.afterAll [.write (.members []), .enter (.member name .nothing),
          .write (w s.stream.settings (s.propertyAt c.address).forceObject), .leave])) ∨
      ∃ e s', Session.writeChild h c op s = .error e s' ∧ e.isRefusal = true ∧ s.LeavesEmpty h c s' ∧
        s'.Stands (o.afterAll
          [.write (.members []), .enter (.member name .nothing), .leave]) := by
  rcases tells.startChild child with rejects | ⟨s₁, opened, ready⟩
  · obtain ⟨e, s', refusal, run, agrees⟩ := id rejects
    exact .inl ⟨rejects.bind _, e, s', run⟩
  · right
    obtain ⟨t, rest, told⟩ := ready.tells
    obtain ⟨legal, p', adds⟩ := writes s₁.stream (s₁.propertyAt c.address)
    rw [ready.settings, ready.force] at adds
    obtain ⟨content, shape⟩ := child.property
    obtain ⟨address, _⟩ := c
    obtain rfl : _ = Shape.property content := shape
    have run : Session.writeChild h ⟨address, .property content⟩ op s =
        closing ⟨address, .property content⟩ (Session.onProperty address op) s₁ :=
      bind_of_ok opened _
    rw [run]
    rcases told.closing_onProperty rfl content adds with
      written | ⟨e, s₂, s₃, failed, refusal, closed, agrees, stands⟩
    · exact .inl written
    · exact .inr ⟨e, s₃, failed, refusal, ⟨s₁, s₂, opened, closed, agrees⟩, stands⟩

end Session

end SceneStream
