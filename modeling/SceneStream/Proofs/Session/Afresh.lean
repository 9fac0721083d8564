import SceneStream.Proofs.Session.Belonging
import SceneStream.Proofs.Session.Intervals
import SceneStream.Proofs.Session.Memory
import SceneStream.Proofs.Session.Refusal

/-!
# Writers start afresh

A writer that was closed, with all writers below it, is as good as one that was just made for the same
member and set in the same way: whatever is done from then on, both come to the same. And the next
interval of a list is opened with a fresh writer, whatever was done with the intervals before it.
-/

namespace SceneStream

open Writing

/-- What the outcome tells as text. -/
def Outcome.text? : Outcome → Option String
  | .answered (.text text) => some text
  | .answered _ | .refused _ | .misdirected => none

/-- The writer at the address is the one at the other address, or one below it. -/
def Address.Within (b a : Address) : Prop := b.root = a.root ∧ a.path <+: b.path

instance (a b : Address) : Decidable (b.Within a) :=
  inferInstanceAs (Decidable (b.root = a.root ∧ a.path <+: b.path))

theorem Table.get?_map {κ α β : Type} [DecidableEq κ] (t : Table κ α) (f : κ → α → β) (k : κ) :
    Table.get? (t.map fun entry => (entry.1, f entry.1 entry.2)) k = (t.get? k).map (f k) := by
  induction t with
  | nil => rfl
  | cons entry t ih =>
      obtain ⟨j, a⟩ := entry
      by_cases same : j = k
      · subst same
        simp [Table.get?]
      · simpa [Table.get?, same] using ih

namespace Session

variable {s s' s₀ : Session} {a b : Address} {h : Handle} {c : Command} {cs : List Command}
  {content : Content} {list : String}

/-! ## Behaviour -/

/-- After any commands the streams of both sessions are the same and their writers stand alike, and the
next command has the same outcome, but for the wording of a refusal and the notes of a property. -/
structure BehavesAs (s s' : Session) : Prop where
  stream : ∀ cs, (s'.run cs).stream = (s.run cs).stream
  isOpen : ∀ cs h, (s'.run cs).isOpen h = (s.run cs).isOpen h
  scope : ∀ cs a, ((s'.run cs).propertyAt a).scope = ((s.run cs).propertyAt a).scope
  forceObject : ∀ cs a, ((s'.run cs).propertyAt a).forceObject = ((s.run cs).propertyAt a).forceObject
  outcome : ∀ cs c, ¬ (s.run cs).TellsNotes c →
    Outcome.Resembles ((s.run cs).step c).1 ((s'.run cs).step c).1

theorem Resembles.run (resembles : s.Resembles s') (cs : List Command) :
    (s.run cs).Resembles (s'.run cs) := by
  induction cs generalizing s s' with
  | nil => exact resembles
  | cons c cs ih => exact ih (resembles.step c).2

theorem Resembles.behavesAs (resembles : s.Resembles s') : s.BehavesAs s' where
  stream cs := (resembles.run cs).stream
  isOpen cs := (resembles.run cs).isOpen
  scope cs a := ((resembles.run cs).properties a).scope
  forceObject cs a := ((resembles.run cs).properties a).forceObject
  outcome cs c silent := ((resembles.run cs).step c).1 silent

/-- Closed properties hold nothing, however a session was used. -/
theorem isSettled_run {document : Bool} {sink : Sink} {settings : Settings}
    (begun : new document sink settings = .ok s₀) (cs : List Command) (a : Address) :
    ((s₀.run cs).propertyAt a).IsSettled := by
  have unused : s₀.Resembles s₀ := by
    refine ⟨rfl, fun b => ?_⟩
    rw [propertyAt, properties_of_new begun]
    exact Property.IsSettled.resembles fun _ => rfl
  exact ((unused.run cs).properties a).settled

/-! ## Fresh writers -/

/-- Whether a property stands at the address. -/
def bearsProperty (s : Session) (b : Address) : Bool :=
  match s.handle? b with
  | some ⟨_, .property _⟩ => true
  | some ⟨_, .packet⟩ | none => false

/-- The session with fresh writers at the address and below it, which are set as the old ones are. -/
def refreshed (s : Session) (a : Address) : Session :=
  { s with
    properties := s.properties.map fun entry =>
      (entry.1, if entry.1.Within a ∧ s.bearsProperty entry.1 then entry.2.renewed else entry.2) }

/-- The writer at the address is closed, and so are all below it. -/
def IsClosedBelow (s : Session) (a : Address) : Prop :=
  ∀ b h, s.handle? b = some h → b.Within a → s.isOpen h = false

/-- A writer is opened inside of an open one, so all writers below a closed one are closed. -/
theorem Registers.isClosedBelow {roll : List Opening} (registers : s.Registers roll)
    (closed : (s.stateAt (s.placeAt a)).token? = none) : s.IsClosedBelow a := by
  have below (names : List String) :
      (s.stateAt (s.placeAt { root := a.root, path := a.path ++ names })).token? = none := by
    induction names using List.reverseRecOn with
    | nil => rwa [List.append_nil]
    | append_singleton names name ih =>
        have member : s.placeAt { root := a.root, path := a.path ++ (names ++ [name]) } =
            .property (Address.child { root := a.root, path := a.path ++ names } name) := by
          simp [placeAt, Address.child]
        rw [member]
        exact registers.closed_inside_closed (s.around?_child _ name) ih
  rintro b h found ⟨root, names, path⟩
  obtain ⟨rfl, place⟩ := place_of_handle? found
  have token := below names
  rw [path, ← root, ← place] at token
  rw [isOpen_eq, token]
  rfl

theorem propertyAt_refreshed (s : Session) (a b : Address) :
    (s.refreshed a).propertyAt b =
      if b.Within a ∧ s.bearsProperty b then (s.propertyAt b).renewed else s.propertyAt b := by
  have found := Table.get?_map s.properties
    (fun b p => if b.Within a ∧ s.bearsProperty b then p.renewed else p) b
  rw [propertyAt, refreshed, found, propertyAt]
  cases s.properties.get? b with
  | some p => rfl
  | none =>
      split
      · rfl
      · rfl

theorem token_of_isClosedBelow (closed : s.IsClosedBelow a) (within : b.Within a)
    (bears : s.bearsProperty b = true) : (s.propertyAt b).token = none := by
  unfold bearsProperty at bears
  split at bears
  next address content found =>
    obtain rfl : address = b := (place_of_handle? found).1
    simpa [isOpen, Property.isOpen] using closed address _ found within
  all_goals cases bears

theorem resembles_refreshed (settled : ∀ b, (s.propertyAt b).IsSettled) (closed : s.IsClosedBelow a) :
    s.Resembles (s.refreshed a) where
  rest := rfl
  properties b := by
    rw [propertyAt_refreshed]
    split
    next below => exact (settled b).resembles_renewed (token_of_isClosedBelow closed below.1 below.2)
    next => exact (settled b).resembles

/-- In place of the writer at the address, and of those below it, stand fresh ones that behave as they
do. -/
structure StartsAfresh (s : Session) (a : Address) : Prop where
  packet : s.handle? a = some ⟨a, .packet⟩ → (s.refreshed a).packetAt a.root = {}
  property : ∀ content, s.handle? a = some ⟨a, .property content⟩ →
    (s.refreshed a).propertyAt a = {
      name := (s.propertyAt a).name
      role := (s.propertyAt a).role
      forceObject := (s.propertyAt a).forceObject }
  below : ∀ b content, s.handle? b = some ⟨b, .property content⟩ → b.Within a → b ≠ a →
    (s.refreshed a).propertyAt b = {
      name := b.path.getLast?.getD ""
      forceObject := (s.propertyAt b).forceObject }
  behaves : s.BehavesAs (s.refreshed a)

theorem bearsProperty_of_handle? (found : s.handle? b = some ⟨b, .property content⟩) :
    s.bearsProperty b = true := by
  rw [bearsProperty, found]

theorem startsAfresh (settled : ∀ b, (s.propertyAt b).IsSettled) (regular : s.IsRegular)
    (closed : s.IsClosedBelow a) : s.StartsAfresh a where
  packet found := by
    have token : (s.packetAt a.root).token = none := by
      simpa [isOpen, Packet.isOpen] using closed a _ found ⟨rfl, List.prefix_rfl⟩
    change s.packetAt a.root = {}
    rw [← token]
  property content found := by
    rw [propertyAt_refreshed, if_pos ⟨⟨rfl, List.prefix_rfl⟩, bearsProperty_of_handle? found⟩]
    rfl
  below b content found within apart := by
    have member : b.path ≠ [] := by
      intro root
      have same : a.path = b.path := by
        rw [root]
        exact List.prefix_nil.mp (root ▸ within.2)
      exact apart (by cases a; cases b; simp_all [Address.Within])
    obtain ⟨role, name⟩ := regular b member
    rw [propertyAt_refreshed, if_pos ⟨within, bearsProperty_of_handle? found⟩, Property.renewed, role,
      name]
    rfl
  behaves := (resembles_refreshed settled closed).behavesAs

/-! ## Fresh intervals -/

/-- The next interval of a list is a fresh element that was just opened, with nothing below it, and the
session is as if there had been no interval before it. -/
structure OpensFresh (s : Session) (list : String) (s' : Session) : Prop where
  element : ∃ l t, s.lists.get? list = some l ∧ l.token = some t ∧
    Property.start ⟨s.stream.granting t, l.template.renewed⟩ =
      .ok () ⟨s'.stream, s'.propertyAt { root := .interval list }⟩
  below : ∀ path, path ≠ [] →
    s'.propertyAt { root := .interval list, path } = { name := path.getLast?.getD "" }
  forgets : (s.forget (.interval list)).step (.list list .startInterval) =
    s.step (.list list .startInterval)

theorem forget_forget (s : Session) (r : Root) : (s.forget r).forget r = s.forget r := by
  simp [forget, Table.without, List.filter_filter]

/-- An interval is opened where a fresh element is. -/
theorem start_of_startInterval {l : IntervalList} {t : Token}
    (latest : s.intervalIsOpen list l = false) (token : l.token = some t)
    (active : s.stream.active? = some t) (began : startInterval list l s = .ok () s') :
    ∃ w : Writing Property,
      Property.start ⟨s.stream.granting t, l.template.renewed⟩ = .ok () w := by
  let s₁ : Session := { s with stream := s.stream.granting t, lists := s.lists.put list l }
  have ready : onList list l (IntervalList.prepareInterval false) s = .ok () s₁ := by
    rw [onList, IntervalList.prepareInterval_ok token active]
  cases run : Property.start ⟨s.stream.granting t, l.template.renewed⟩ with
  | ok _ w => exact ⟨w, rfl⟩
  | error e w =>
      have failed : beside l.template.renewed Property.start s₁ =
          .error e { s₁ with stream := w.stream } := by
        rw [beside, run]
      change (onList list l (IntervalList.prepareInterval (s.intervalIsOpen list l)) >>= _) s = _
        at began
      rw [latest, bind_of_ok ready, bind_of_error failed] at began
      cases began

theorem opensFresh_of_answered {reply : Reply}
    (answered : s.step (.list list .startInterval) = (.answered reply, s')) :
    s.OpensFresh list s' := by
  obtain ⟨call, reply', called, run⟩ :=
    run_of_answers (c := .list list .startInterval) (by rw [answers, answered])
  obtain ⟨l, kept, ⟨⟩⟩ := Option.bind_eq_some_iff.mp called
  rw [answered] at run
  have began : startInterval list l s = .ok () s' := ok_of_doing run
  have legal : ¬ (s.intervalIsOpen list l = true ∨ ¬ l.HasTurn s.stream) := by
    intro illegal
    have rejects := rejects_onList kept (IntervalList.refuses_prepareInterval illegal)
    obtain ⟨e, s₁, -, refused, -⟩ : s.Rejects (startInterval list l) := rejects.bind _
    cases refused.symm.trans began
  obtain ⟨latest, t, token, active⟩ : s.intervalIsOpen list l = false ∧ l.HasTurn s.stream := by
    simpa using legal
  obtain ⟨⟨stream, p⟩, opened⟩ : ∃ w : Writing Property,
      Property.start ⟨s.stream.granting t, l.template.renewed⟩ = .ok () w :=
    start_of_startInterval latest token active began
  have whole := startInterval_ok latest token active opened
  obtain rfl := (EStateM.Result.ok.inj (whole.symm.trans began)).2
  refine ⟨⟨l, t, kept, token, ?_⟩, fun path member => ?_, ?_⟩
  · rw [opened, propertyAt, Table.get?_put_self]
    rfl
  · have apart : ({ root := .interval list } : Address) ≠ { root := .interval list, path } :=
      fun same => member (congrArg Address.path same).symm
    rw [propertyAt, Table.get?_put_of_ne _ _ apart]
    simp [awaitsInterval, forget, Table.get?_without]
  · have none : (s.forget (.interval list)).intervalIsOpen list l = false := by
      simp [Session.intervalIsOpen, propertyAt, forget, Table.get?_without, Property.isOpen]
    have again := startInterval_ok (s := s.forget (.interval list)) none token active opened
    have same : (s.forget (.interval list)).awaitsInterval list l t = s.awaitsInterval list l t := by
      rw [awaitsInterval, forget_forget]
      rfl
    rw [same] at again
    rw [step_of_ok called (doing_ok began), step_of_ok (by exact called) (doing_ok again)]

/-- However a session began and whatever was done in it: writers that are closed with all writers below
them behave as fresh ones do, and every interval is opened as a fresh one. -/
theorem startsAfresh_run {document : Bool} {sink : Sink} {settings : Settings}
    (begun : new document sink settings = .ok s₀) (cs : List Command) :
    (∀ a, (s₀.run cs).IsClosedBelow a → (s₀.run cs).StartsAfresh a) ∧
      ∀ list reply s', (s₀.run cs).step (.list list .startInterval) = (.answered reply, s') →
        (s₀.run cs).OpensFresh list s' :=
  ⟨fun _ closed => startsAfresh (isSettled_run begun cs) ((isRegular_of_new begun).run cs) closed,
    fun _ _ _ answered => opensFresh_of_answered answered⟩

/-- Where writers alone were at work, it is enough that the writer itself is closed. -/
theorem startsAfresh_of_isOpen {document : Bool} {settings : Settings}
    (begun : new document {} settings = .ok s₀) (writing : ∀ c ∈ cs, c.isWriting = true)
    (found : (s₀.run cs).handle? a = some h) (closed : (s₀.run cs).isOpen h = false) :
    (s₀.run cs).IsClosedBelow a ∧ (s₀.run cs).StartsAfresh a := by
  obtain ⟨-, roll, tells⟩ := (stands_of_new begun).run writing
  have token : ((s₀.run cs).stateAt h.place).token? = none := by
    rwa [isOpen_eq, Option.isSome_eq_false_iff, Option.isNone_iff_eq_none] at closed
  rw [(place_of_handle? found).2] at token
  have below : (s₀.run cs).IsClosedBelow a := tells.registers.isClosedBelow token
  exact ⟨below, startsAfresh (isSettled_run begun cs) ((isRegular_of_new begun).run cs) below⟩

/-- Nothing is open at all where no writer that a session keeps is. -/
theorem isClosedBelow_of_tables (packets : ∀ entry ∈ s.packets, entry.2.token = none)
    (properties : ∀ entry ∈ s.properties, entry.2.token = none) (a : Address) :
    s.IsClosedBelow a := by
  intro b h found within
  obtain ⟨address, shape⟩ := h
  cases shape with
  | packet =>
      rw [isOpen, Packet.isOpen, packetAt]
      cases kept : s.packets.get? address.root with
      | none => rfl
      | some p => simpa using packets _ (Table.mem_of_get? kept)
  | property content =>
      rw [isOpen, Property.isOpen, propertyAt]
      cases kept : s.properties.get? address with
      | none => rfl
      | some p => simpa using properties _ (Table.mem_of_get? kept)

/-- A packet with a rectangle that is shown, both of them closed. -/
def closedRectangle : List Command :=
  let packet : Address := { root := .document }
  let rectangle : Address := packet.child "rectangle"
  [.document .openPacket, .parent packet (.startChild "rectangle"),
    .parent rectangle (.writeChild "show" .boolean () (.literal true)), .writer rectangle .finish,
    .writer packet .finish]

/-- A description whose first interval was written and closed, and whose next one was not opened. -/
def closedInterval : List Command :=
  let packet : Address := { root := .document }
  let interval : Address := { root := .interval "list" }
  [.document .openPacket, .parent packet (.startChild "description"),
    .property (packet.child "description") (.startIntervals "list"), .list "list" .startInterval,
    .property interval (.delete true), .writer interval .finish]

theorem startsAfresh_run_closedRectangle :
    let s := (newDocument {}).run closedRectangle
    let packet : Address := { root := .document }
    let u := (newDocument {}).run closedInterval
    let next := u.step (.list "list" .startInterval)
    new true {} {} = .ok (newDocument {}) ∧ s.IsClosedBelow packet ∧ s.StartsAfresh packet ∧
      u.answers (.list "list" .startInterval) = true ∧ u.OpensFresh "list" next.2 := by
  intro s packet u next
  have begun : new true {} {} = .ok (newDocument {}) := rfl
  have packets : ∀ entry ∈ s.packets, entry.2.token = none := by decide +kernel
  have properties : ∀ entry ∈ s.properties, entry.2.token = none := by decide +kernel
  have closed : s.IsClosedBelow packet := isClosedBelow_of_tables packets properties packet
  have afresh : s.StartsAfresh packet := (startsAfresh_run begun closedRectangle).1 packet closed
  have answers : u.answers (.list "list" .startInterval) = true := by decide +kernel
  obtain ⟨reply, answered⟩ := answered_of_answers answers
  have fresh : u.OpensFresh "list" next.2 :=
    (startsAfresh_run begun closedInterval).2 "list" reply next.2 (Prod.ext answered rfl)
  exact ⟨begun, closed, afresh, answers, fresh⟩

/-- A closed rectangle whose height was opened apart from it closes the height where a fresh one has
none to close; and a closed property still tells that a value was written to it. -/
theorem closes_height_of_closedRectangle :
    let rectangle : Address := { root := .document, path := ["rectangle"] }
    let height := rectangle.child "height"
    let shown := rectangle.child "show"
    let s := (newDocument {}).run closedRectangle
    let apart := s.run [.stream .startObject, .writer height .start]
    apart.isOpen ⟨rectangle, .property (.composite .rectangle)⟩ = false ∧
      apart.answers (.writer height .finish) = true ∧
      (apart.refreshed rectangle).answers (.writer height .finish) = false ∧
      s.isOpen ⟨shown, .property (.value .boolean)⟩ = false ∧
      (s.step (.property shown .describe)).1.text? ≠
        ((s.refreshed shown).step (.property shown .describe)).1.text? :=
  ⟨by decide +kernel, by decide +kernel, by decide +kernel, by decide +kernel, by decide +kernel⟩

end Session

end SceneStream
