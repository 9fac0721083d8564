import SceneStream.Proofs.Session.Telling
import SceneStream.Proofs.Writer.Lifecycle
import SceneStream.Session.Command

/-!
# Operations of a single writer

Writing, opening and closing in a session: each operation of one writer is refused without a trace,
or moves the outline by one deed. The tables of a session take part only by keeping what the writer
becomes.
-/

namespace SceneStream

/-- What is found at the end of a path is a property, unless the path is empty. -/
theorem Shape.eq_property_of_follow? {shape found : Shape} {path : List String}
    (h : shape.follow? path = some found) (member : path ≠ []) :
    ∃ content, found = .property content := by
  induction path generalizing shape with
  | nil => exact absurd rfl member
  | cons name path ih =>
      obtain ⟨content, -, rest⟩ := Option.bind_eq_some_iff.mp h
      cases path with
      | nil => exact ⟨content, (Option.some.inj rest).symm⟩
      | cons => exact ih rest (List.cons_ne_nil _ _)

namespace Session

variable {s s' : Session} {o : Outline} {roll rest : List Opening} {q : Place} {t : Token}
  {st : Standing} {h : Handle} {a : Address} {r : Root} {w : Write}

/-! ## Finding writers -/

/-- A writer that is found is kept where its address says. -/
theorem place_of_handle? (found : s.handle? a = some h) :
    h.address = a ∧ h.place = s.placeAt a := by
  obtain ⟨shape, shaped, rest⟩ := Option.bind_eq_some_iff.mp found
  obtain ⟨end_shape, followed, made⟩ := Option.bind_eq_some_iff.mp rest
  obtain rfl : _ = h := Option.some.inj made
  refine ⟨rfl, ?_⟩
  by_cases member : a.path = []
  · rw [member] at followed
    obtain rfl : shape = end_shape := Option.some.inj followed
    have bears : s.bearsPackets a.root = true ↔ shape = .packet := by
      cases root : a.root with
      | document =>
          rw [root] at shaped
          obtain ⟨-, -, rfl⟩ := Option.map_eq_some_iff.mp shaped
          simp [bearsPackets]
      | slot name =>
          rw [root, shapeAt?] at shaped
          simp [bearsPackets, shaped]
      | interval list =>
          rw [root, shapeAt?] at shaped
          obtain ⟨l, -, current⟩ := Option.bind_eq_some_iff.mp shaped
          split at current
          · obtain rfl := Option.some.inj current
            simp [bearsPackets]
          · cases current
    cases shape with
    | packet => simp [Handle.place, placeAt, member, bears]
    | property content => simp [Handle.place, placeAt, member, bears]
  · obtain ⟨content, rfl⟩ := Shape.eq_property_of_follow? followed member
    simp [Handle.place, placeAt, member]

/-- An interval is found as long as its list has a latest one. -/
theorem hasCurrent_of_handle? (found : s.handle? a = some h) {list : String}
    (root : a.root = .interval list) :
    ∃ l, s.lists.get? list = some l ∧ l.hasCurrent = true := by
  obtain ⟨shape, shaped, -⟩ := Option.bind_eq_some_iff.mp found
  rw [root] at shaped
  obtain ⟨l, kept, current⟩ := Option.bind_eq_some_iff.mp shaped
  refine ⟨l, kept, ?_⟩
  by_contra none
  simp [none] at current

/-- What a writer has written when it is opened. -/
def partOf (s : Session) (h : Handle) : Part :=
  match h.shape with
  | .packet => .packet []
  | .property _ => (s.propertyAt h.address).part

/-! ## Writing -/

/-- A property that may write is the first on the roll, and the part of the outline is in its
scope. -/
theorem Tells.head_of_turn (tells : s.Tells o roll) (turn : (s.propertyAt a).HasTurn s.stream) :
    ∃ t rest p parts, (s.propertyAt a).token = some t ∧ s.stream.active? = some t ∧
      roll = ⟨t, some (.property a), (s.stateAt (.property a)).standing⟩ :: rest ∧
      o.parts = p :: parts ∧ p.standing = (s.stateAt (.property a)).standing := by
  obtain ⟨t, token, active⟩ := turn
  obtain ⟨rest, rfl⟩ := tells.registers.head_of_active (q := .property a) token active
  obtain ⟨p, parts, parts_eq, standing, -⟩ := tells.top
  exact ⟨t, rest, p, parts, token, active, rfl, parts_eq, standing⟩

/-- A legal write to a property is one deed, and the property stays the innermost writer. -/
theorem Tells.onProperty (tells : s.Tells o roll) {op : PropertyM Unit} {legal : Prop}
    {p' : Property} (adds : Property.Adds s.stream (s.propertyAt a) op legal w p') (ok : legal) :
    ∃ s' t st rest, onProperty a op s = .ok () s' ∧
      s'.Tells (o.after (.write w)) (⟨t, some (.property a), st⟩ :: rest) ∧
      s'.stream.grant = s.stream.grant ∧ s'.propertyAt a = p' := by
  have takes := adds.takes ok
  obtain ⟨t, rest, p, parts, token, active, rfl, parts_eq, standing⟩ := tells.head_of_turn takes.1
  have scope : p.scope = (s.propertyAt a).scope := Part.scope_of_standing standing
  have fits : (w.entry p.scope).fits p.scope := by
    rw [scope]
    exact w.fits_entry takes.2
  have draws := adds.draws ok
  rw [← scope] at draws
  obtain ⟨text, run, shows⟩ := draws.run tells.shows (tells.accepts_write parts_eq fits)
  obtain ⟨s', answered, put⟩ := onProperty_ok run
  have kept := adds.kept
  have role : p'.role = (s.propertyAt a).role := by rw [kept]
  have name : p'.name = (s.propertyAt a).name := by rw [kept]
  have regular : (WriterState.property p').IsRegular (.property a) := by
    intro member
    rw [role, name]
    exact tells.regular (.property a) member
  have shown : (WriterState.property p').shown? = some (t, ((s.stateAt (.property a)).standing).wrote
      (w.entry p.scope).scope) := by
    rw [WriterState.shown?, WriterState.token?, WriterState.standing, kept, token, scope]
    rfl
  refine ⟨s', t, _, rest, answered, tells.write parts_eq fits put shows shown regular, ?_,
    WriterState.property.inj put.here⟩
  rw [put.stream]
  rfl

/-- The first writer on the roll is open, and has the turn. -/
theorem Tells.turn (tells : s.Tells o (⟨t, some q, st⟩ :: rest)) :
    (s.stateAt q).token? = some t ∧ (s.stateAt q).standing = st ∧ s.stream.active? = some t := by
  obtain ⟨token, standing⟩ := tells.registers.token?_of_mem List.mem_cons_self rfl
  exact ⟨token, standing, tells.registers.active?⟩

/-- A packet that is innermost takes members of its own. -/
theorem Tells.onPacket (tells : s.Tells o (⟨t, some (.packet r), st⟩ :: rest)) {op : PacketM Unit}
    {ms : List (String × Tree)}
    (draws : Writing.Draws s.stream (s.packetAt r) op (Tree.memberCalls ms) (s.packetAt r)) :
    ∃ s', Session.onPacket r op s = .ok () s' ∧
      s'.Tells (o.after (.write (.members ms))) (⟨t, some (.packet r), st⟩ :: rest) ∧
      s'.stream.grant = s.stream.grant := by
  obtain ⟨token, rfl, -⟩ := tells.turn
  obtain ⟨p, parts, parts_eq, standing, -⟩ := tells.top
  have scope : p.scope = .object := by
    cases p <;> first | rfl | cases standing
  have fits : ((Write.members ms).entry p.scope).fits p.scope :=
    Write.fits_entry (.inr scope) _
  have accepted := tells.accepts_write parts_eq fits
  rw [scope] at accepted
  obtain ⟨text, run, shows⟩ := draws.run tells.shows accepted
  obtain ⟨s', answered, put⟩ := onPacket_ok run
  have shown : (WriterState.packet (s.packetAt r)).shown? = some (t, .packet) := by
    rw [WriterState.shown?, show (WriterState.packet (s.packetAt r)).token? = some t from token]
    rfl
  refine ⟨s', answered, tells.write parts_eq fits put shows shown trivial, ?_⟩
  rw [put.stream]
  rfl

/-! ## Opening -/

/-- The state of a writer that was just opened. -/
def startedAt (s : Session) (h : Handle) : WriterState :=
  match h.shape with
  | .packet => .packet { token := some s.stream.nextToken }
  | .property _ => .property ((s.propertyAt h.address).started s.stream.nextToken)

theorem Tells.start (tells : s.Tells o roll) (closed : (s.stateAt h.place).token? = none)
    (free : s.stream.MayOpen) (unfinished : o.finished = false)
    (fits : (s.partOf h).Fits o.parts)
    (inside : s.LiesIn h.place (roll.head?.bind Opening.place)) :
    ∃ s', start h s = .ok () s' ∧
      s'.Tells (o.after (.enter (s.partOf h)))
        (⟨s.stream.nextToken, some h.place, (s.partOf h).standing⟩ :: roll) ∧
      s'.stream.grant = none ∧ s'.stream.settings = s.stream.settings ∧
      s.Put h.place s'.stream (s.startedAt h) s' := by
  obtain ⟨address, shape⟩ := h
  cases shape with
  | packet =>
      obtain ⟨text, run, shows⟩ := Packet.start_ok closed free tells.shows
        (tells.accepts_enter unfinished fits rfl)
      obtain ⟨s', answered, put⟩ := onPacket_ok run
      have told := tells.enter unfinished fits rfl rfl closed inside put shows rfl trivial
      exact ⟨s', answered, told, by rw [put.stream]; rfl, by rw [put.stream]; rfl,
        put.stream ▸ put⟩
  | property content =>
      let p := s.propertyAt address
      have whole := p.awaitsList_part
      have around : o.around p.part = o.parts := by
        unfold Property.part
        cases p.role <;> rfl
      have fits : p.part.Fits (o.around p.part) := by
        rw [around]
        exact fits
      obtain ⟨text, run, shows⟩ := Property.start_ok closed free tells.shows
        (tells.accepts_enter unfinished fits whole)
      obtain ⟨s', answered, put⟩ := onProperty_ok run
      have shown : (WriterState.property (p.started s.stream.nextToken)).shown? =
          some (s.stream.nextToken, p.part.standing) := by
        rw [p.standing_part]
        rfl
      have regular : (WriterState.property (p.started s.stream.nextToken)).IsRegular
          (.property address) := tells.regular (.property address)
      have told := tells.enter unfinished fits whole around closed inside put shows shown regular
      exact ⟨s', answered, told, by rw [put.stream]; rfl, by rw [put.stream]; rfl,
        put.stream ▸ put⟩

theorem rejects_start {d : Draft} (shows : s.stream.Shows d)
    (illegal : (s.stateAt h.place).token? ≠ none ∨ ¬ s.stream.MayOpen ∨
      d.acceptAll (s.partOf h).calls = none) : s.Rejects (start h) := by
  obtain ⟨address, shape⟩ := h
  cases shape with
  | packet => exact rejects_onPacket (Packet.refuses_start shows illegal)
  | property content => exact rejects_onProperty (Property.refuses_start shows illegal)

/-- Where no place is made for a child, a writer may be opened exactly while none is open. -/
theorem Tells.mayOpen_iff (tells : s.Tells o roll) (grant : s.stream.grant = none) :
    s.stream.MayOpen ↔ roll = [] := by
  rw [Stream.MayOpen, grant, tells.registers.active?]
  cases roll <;> simp

/-- A part that fits outside of all others is permitted there as long as something can follow. -/
theorem Tells.forbids_item {p : Part} (tells : s.Tells o []) {c : Call} (calls : p.calls = [c])
    (illegal : ¬ (o.finished = false ∧ p.Fits o.parts)) : o.draft.acceptAll p.calls = none := by
  rw [calls, Draft.acceptAll_cons]
  cases finished : o.finished with
  | true =>
      obtain ⟨t, whole, -⟩ := tells.sound.draft_finished finished
      rw [whole]
      cases c <;> rfl
  | false =>
      have here := tells.sound.isIn_draft finished
      rw [tells.parts_eq_nil] at here illegal
      cases p with
      | member name body =>
          obtain rfl : .name name = c := (List.cons.inj calls).1
          cases draft : o.draft with
          | object => simp [Draft.IsIn, draft, Draft.site?, Part.siteIn] at here
          | blank | complete | array | named => rfl
      | packet | element => exact absurd ⟨finished, by simp [Part.Fits]⟩ illegal
      | list name items =>
          have empty : items = [] := by
            rcases items with _ | ⟨t, items⟩
            · rfl
            · cases t <;> simp [Part.calls, Tree.itemCalls, Tree.calls] at calls
          exact absurd ⟨finished, by simp [Part.Fits, empty]⟩ illegal

/-- A writer in the document's array lies in no other. -/
theorem Tells.around?_item (tells : s.Tells o []) (found : s.handle? a = some h)
    (fits : (s.partOf h).Fits []) : s.around? h.place = none := by
  obtain ⟨rfl, -⟩ := place_of_handle? found
  obtain ⟨⟨root, path⟩, shape⟩ := h
  cases shape with
  | packet => rfl
  | property content =>
      cases path with
      | cons name path =>
          have member := (tells.regular (.property ⟨root, name :: path⟩) (List.cons_ne_nil _ _)).1
          rw [partOf, Property.part, member] at fits
          simp [Part.Fits] at fits
      | nil =>
          cases root with
          | document | slot => rfl
          | interval list =>
              obtain ⟨l, kept, current⟩ := hasCurrent_of_handle? found rfl
              have regular := tells.regular (.list list)
              rw [stateAt, kept] at regular
              obtain ⟨t, token⟩ := Option.ne_none_iff_exists'.mp (regular.2 current)
              have shown : (s.stateAt (.list list)).shown? = some (t, .list l.template.name) := by
                rw [stateAt, kept, WriterState.shown?, WriterState.token?, Option.bind_some, token]
                rfl
              exact absurd ((tells.registers.held _ _ _).mp shown) List.not_mem_nil

theorem calls_partOf (s : Session) (h : Handle) : ∃ c, (s.partOf h).calls = [c] := by
  unfold partOf
  cases h.shape with
  | packet => exact ⟨_, rfl⟩
  | property => exact ⟨_, Property.calls_part _⟩

/-- Where no place is made for a child, a writer is opened in the document's array or not at all. -/
theorem Stands.start (stands : s.Stands o) (found : s.handle? a = some h) :
    s.Rejects (start h) ∨ ∃ s' t, start h s = .ok () s' ∧ s'.stream.grant = none ∧
      s'.Tells (o.after (.enter (s.partOf h))) [⟨t, some h.place, (s.partOf h).standing⟩] := by
  obtain ⟨grant, roll, tells⟩ := stands
  by_cases closed : (s.stateAt h.place).token? = none
  · by_cases free : s.stream.MayOpen
    · obtain rfl := (tells.mayOpen_iff grant).mp free
      by_cases legal : o.finished = false ∧ (s.partOf h).Fits o.parts
      · obtain ⟨unfinished, fits⟩ := legal
        have alone := tells.around?_item found (tells.parts_eq_nil ▸ fits)
        obtain ⟨s', answered, told, ungranted, -⟩ :=
          tells.start closed free unfinished fits (.inl alone.symm)
        exact .inr ⟨s', _, answered, ungranted, told⟩
      · obtain ⟨c, calls⟩ := s.calls_partOf h
        exact .inl (rejects_start tells.shows (.inr (.inr (tells.forbids_item calls legal))))
    · exact .inl (rejects_start tells.shows (.inr (.inl free)))
  · exact .inl (rejects_start tells.shows (.inl closed))

/-! ## Closing -/

/-- The first writer on the roll can be closed. -/
theorem Tells.finish (tells : s.Tells o (⟨t, some h.place, st⟩ :: rest)) :
    ∃ s', finish h s = .ok () s' ∧ s'.Tells (o.after .leave) rest ∧ s'.stream.grant = none ∧
      ∃ w, w.token? = none ∧ s.Put h.place s'.stream w s' := by
  obtain ⟨token, rfl, active⟩ := tells.turn
  obtain ⟨p, parts, parts_eq, standing, -⟩ := tells.top
  have accepted := tells.accepts_leave parts_eq
  obtain ⟨address, shape⟩ := h
  cases shape with
  | packet =>
      have closing : p.closing = [.endObject] := by
        cases p <;> first | rfl | cases standing
      rw [closing] at accepted
      obtain ⟨text, run, shows⟩ := Packet.finish_ok token active tells.shows accepted
      obtain ⟨s', answered, put⟩ := onPacket_ok run
      refine ⟨s', answered, tells.leave put shows rfl trivial, ?_, .packet {}, rfl,
        put.stream ▸ put⟩
      rw [put.stream]
      rfl
  | property content =>
      have closing := Part.closing_of_standing standing
      rw [closing] at accepted
      obtain ⟨text, run, shows⟩ := Property.finish_ok token active tells.shows accepted
      obtain ⟨s', answered, put⟩ := onProperty_ok run
      refine ⟨s', answered, tells.leave put shows rfl ?_, ?_,
        .property { s.propertyAt address with token := none, scope := .unopened }, rfl,
        put.stream ▸ put⟩
      · exact tells.regular (.property address)
      · rw [put.stream]
        rfl

/-- A writer that is innermost is the first on the roll; any other is not closed. -/
theorem rejects_finish (away : ∀ t, (s.stateAt h.place).token? = some t → s.stream.active? ≠ some t) :
    s.Rejects (finish h) := by
  obtain ⟨address, shape⟩ := h
  cases shape with
  | packet =>
      apply rejects_onPacket
      apply Packet.refuses_finish
      rintro ⟨t, token, active⟩
      exact away t token active
  | property content =>
      apply rejects_onProperty
      apply Property.refuses_finish
      rintro ⟨t, token, active⟩
      exact away t token active

theorem Stands.finish (stands : s.Stands o) (h : Handle) :
    s.Rejects (finish h) ∨ ∃ s', finish h s = .ok () s' ∧ s'.Stands (o.after .leave) := by
  obtain ⟨grant, roll, tells⟩ := stands
  by_cases turn : ∃ t, (s.stateAt h.place).token? = some t ∧ s.stream.active? = some t
  · obtain ⟨t, token, active⟩ := turn
    obtain ⟨rest, rfl⟩ := tells.registers.head_of_active token active
    obtain ⟨s', answered, told, ungranted, -⟩ := tells.finish
    exact .inr ⟨s', answered, ungranted, rest, told⟩
  · left
    apply rejects_finish
    intro t token active
    exact turn ⟨t, token, active⟩

end Session

end SceneStream
