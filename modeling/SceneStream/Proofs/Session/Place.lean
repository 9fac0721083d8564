import SceneStream.Proofs.Outline.Part
import SceneStream.Proofs.Run
import SceneStream.Session.Document

/-!
# Places of writers

A session keeps its writers in three tables. A place names an entry of one of them, so that one
statement speaks of all writers at once: what an operation changes is the stream and the writer at
one place, and a refused operation changes neither.
-/

namespace SceneStream

namespace Table

variable {κ α : Type} [DecidableEq κ] {t : Table κ α} {k : κ} {a : α}

theorem put_without (t : Table κ α) (k : κ) (a : α) :
    (t.without (· = k)).put k a = t.put k a := by
  simp [put, without]

theorem get?_append (t u : Table κ α) (k : κ) :
    get? (t ++ u) k = (get? t k).or (get? u k) := by
  simp only [get?, List.find?_append, Option.map_or]

theorem mem_of_get? (h : t.get? k = some a) : (k, a) ∈ t := by
  obtain ⟨⟨j, b⟩, found, rfl⟩ := Option.map_eq_some_iff.mp h
  obtain rfl : j = k := by simpa using List.find?_some found
  exact List.mem_of_find?_eq_some found

theorem get?_eq_none (h : ∀ a, (k, a) ∉ t) : t.get? k = none := by
  cases found : t.get? k with
  | none => rfl
  | some a => exact absurd (mem_of_get? found) (h a)

end Table

/-- Where a session keeps a writer. -/
inductive Place where
  | packet (root : Root)
  | property (a : Address)
  | list (name : String)
  deriving DecidableEq, Repr

/-- The state of the writer at a place; a list that was never opened has none. -/
inductive WriterState where
  | packet (p : Packet)
  | property (p : Property)
  | list (l : Option IntervalList)
  deriving DecidableEq, Repr

namespace WriterState

def token? : WriterState → Option Token
  | packet p => p.token
  | property p => p.token
  | list l => l.bind IntervalList.token

def standing : WriterState → Standing
  | packet _ => .packet
  | property p => .property p.name p.role p.scope
  | list l => .list (l.elim "" fun l => l.template.name)

/-- The opening of the writer and what it shows, as long as it is open. -/
def shown? (w : WriterState) : Option (Token × Standing) := w.token?.map (·, w.standing)

theorem shown?_of_token? {w : WriterState} (h : w.token? = none) : w.shown? = none := by
  rw [shown?, h, Option.map_none]

theorem token?_of_shown? {w : WriterState} {t : Token} {st : Standing}
    (h : w.shown? = some (t, st)) : w.token? = some t ∧ w.standing = st := by
  obtain ⟨t', token, same⟩ := Option.map_eq_some_iff.mp h
  cases same
  exact ⟨token, rfl⟩

end WriterState

/-- The place of a writer that was found. -/
def Handle.place (h : Handle) : Place :=
  match h.shape with
  | .packet => .packet h.address.root
  | .property _ => .property h.address

namespace Session

def stateAt (s : Session) : Place → WriterState
  | .packet r => .packet (s.packetAt r)
  | .property a => .property (s.propertyAt a)
  | .list name => .list (s.lists.get? name)

theorem isOpen_eq (s : Session) (h : Handle) : s.isOpen h = (s.stateAt h.place).token?.isSome := by
  obtain ⟨address, shape⟩ := h
  cases shape <;> rfl

/-- Nothing that can be seen of the second session differs from the first. -/
structure Agrees (s s' : Session) : Prop where
  stream : s'.stream = s.stream
  document : s'.document = s.document
  slots : s'.slots = s.slots
  tokens : s'.tokens = s.tokens
  states : ∀ q, s'.stateAt q = s.stateAt q

/-- The second session is the first with this stream, and with this state at one place. -/
structure Put (s : Session) (q : Place) (stream : Stream) (state : WriterState) (s' : Session) :
    Prop where
  stream : s'.stream = stream
  document : s'.document = s.document
  slots : s'.slots = s.slots
  tokens : s'.tokens = s.tokens
  here : s'.stateAt q = state
  elsewhere : ∀ r, r ≠ q → s'.stateAt r = s.stateAt r

/-- The operation is refused and leaves no trace. -/
def Rejects {α : Type} (s : Session) (op : SessionM α) : Prop :=
  ∃ e s', e.isRefusal = true ∧ op s = .error e s' ∧ s.Agrees s'

section

variable {s s' s'' : Session} {q : Place} {stream stream' : Stream} {state state' : WriterState}

theorem Agrees.refl (s : Session) : s.Agrees s := ⟨rfl, rfl, rfl, rfl, fun _ => rfl⟩

theorem Put.trans (h : s.Put q stream state s') (h' : s'.Put q stream' state' s'') :
    s.Put q stream' state' s'' where
  stream := h'.stream
  document := h'.document.trans h.document
  slots := h'.slots.trans h.slots
  tokens := h'.tokens.trans h.tokens
  here := h'.here
  elsewhere r other := (h'.elsewhere r other).trans (h.elsewhere r other)

/-- Putting back what was there changes nothing but the stream. -/
theorem Put.agrees (h : s.Put q stream (s.stateAt q) s') : Agrees { s with stream } s' where
  stream := h.stream
  document := h.document
  slots := h.slots
  tokens := h.tokens
  states r := by
    by_cases same : r = q
    · rw [same, h.here]
      rfl
    · exact h.elsewhere r same

/-- The same put on sessions that agree. -/
theorem Put.agrees_of_agrees {s₁ s₁' : Session} (agrees : s.Agrees s')
    (h : s.Put q stream state s₁) (h' : s'.Put q stream state s₁') : s₁.Agrees s₁' where
  stream := h'.stream.trans h.stream.symm
  document := by rw [h'.document, h.document, agrees.document]
  slots := by rw [h'.slots, h.slots, agrees.slots]
  tokens := by rw [h'.tokens, h.tokens, agrees.tokens]
  states r := by
    by_cases same : r = q
    · rw [same, h'.here, h.here]
    · rw [h'.elsewhere r same, h.elsewhere r same, agrees.states]

theorem Agrees.packetAt (agrees : s.Agrees s') (r : Root) : s'.packetAt r = s.packetAt r :=
  WriterState.packet.inj (agrees.states (.packet r))

theorem Agrees.propertyAt (agrees : s.Agrees s') (a : Address) :
    s'.propertyAt a = s.propertyAt a := WriterState.property.inj (agrees.states (.property a))

theorem put_packet (s : Session) (r : Root) (stream : Stream) (p : Packet) :
    s.Put (.packet r) stream (.packet p) { s with stream, packets := s.packets.put r p } := by
  refine ⟨rfl, rfl, rfl, rfl, by simp [stateAt, packetAt], ?_⟩
  intro place other
  cases place with
  | packet r' =>
      have : r ≠ r' := fun same => other (by rw [same])
      simp [stateAt, packetAt, Table.get?_put_of_ne _ _ this]
  | property | list => rfl

theorem put_property (s : Session) (a : Address) (stream : Stream) (p : Property) :
    s.Put (.property a) stream (.property p)
      { s with stream, properties := s.properties.put a p } := by
  refine ⟨rfl, rfl, rfl, rfl, by simp [stateAt, propertyAt], ?_⟩
  intro place other
  cases place with
  | property a' =>
      have : a ≠ a' := fun same => other (by rw [same])
      simp [stateAt, propertyAt, Table.get?_put_of_ne _ _ this]
  | packet | list => rfl

theorem put_list (s : Session) (name : String) (stream : Stream) (l : IntervalList) :
    s.Put (.list name) stream (.list (some l)) { s with stream, lists := s.lists.put name l } := by
  refine ⟨rfl, rfl, rfl, rfl, by simp [stateAt], ?_⟩
  intro place other
  cases place with
  | list name' =>
      have : name ≠ name' := fun same => other (by rw [same])
      simp [stateAt, Table.get?_put_of_ne _ _ this]
  | packet | property => rfl

end

/-! ## Operations of one writer -/

section

variable {α : Type} {s : Session} {x : α}

theorem rejects_of_refuses {op : SessionM α} (h : Refuses op s) : s.Rejects op := by
  obtain ⟨e, refusal, run⟩ := h
  exact ⟨e, s, refusal, run, Agrees.refl s⟩

theorem Rejects.bind {β : Type} {op : SessionM α} (h : s.Rejects op) (f : α → SessionM β) :
    s.Rejects (op >>= f) := by
  obtain ⟨e, s', refusal, run, agrees⟩ := h
  exact ⟨e, s', refusal, bind_of_error run f, agrees⟩

theorem onPacket_eq {r : Root} {op : PacketM α} {w : Writing Packet}
    (h : op ⟨s.stream, s.packetAt r⟩ = .ok x w) :
    onPacket r op s = .ok x { s with stream := w.stream, packets := s.packets.put r w.own } := by
  rw [onPacket, h]

theorem ok_of_onPacket {s' : Session} {r : Root} {op : PacketM α} (h : onPacket r op s = .ok x s') :
    ∃ w, op ⟨s.stream, s.packetAt r⟩ = .ok x w ∧
      s' = { s with stream := w.stream, packets := s.packets.put r w.own } := by
  cases run : op ⟨s.stream, s.packetAt r⟩ with
  | ok y w =>
      rw [onPacket_eq run] at h
      obtain ⟨rfl, rfl⟩ := EStateM.Result.ok.inj h
      exact ⟨w, rfl, rfl⟩
  | error e w => simp [onPacket, run] at h

theorem onPacket_ok {r : Root} {op : PacketM α} {w : Writing Packet}
    (h : op ⟨s.stream, s.packetAt r⟩ = .ok x w) :
    ∃ s', onPacket r op s = .ok x s' ∧ s.Put (.packet r) w.stream (.packet w.own) s' :=
  ⟨_, onPacket_eq h, put_packet s r w.stream w.own⟩

theorem onPacket_error {r : Root} {op : PacketM α} {e : Error} {w : Writing Packet}
    (h : op ⟨s.stream, s.packetAt r⟩ = .error e w) :
    onPacket r op s =
      .error e { s with stream := w.stream, packets := s.packets.put r w.own } := by
  rw [onPacket, h]

theorem rejects_onPacket {r : Root} {op : PacketM α} (h : Refuses op ⟨s.stream, s.packetAt r⟩) :
    s.Rejects (onPacket r op) := by
  obtain ⟨e, refusal, run⟩ := h
  exact ⟨e, _, refusal, onPacket_error run, (put_packet s r s.stream (s.packetAt r)).agrees⟩

/-- What an operation on a packet does depends on nothing but what can be seen of a session. -/
theorem Agrees.onPacket {s' s₁ : Session} (agrees : s.Agrees s') {r : Root} {op : PacketM α}
    (run : Session.onPacket r op s = .ok x s₁) :
    ∃ s₁', Session.onPacket r op s' = .ok x s₁' ∧ s₁.Agrees s₁' := by
  obtain ⟨w, result, rfl⟩ := ok_of_onPacket run
  rw [← agrees.stream, ← agrees.packetAt] at result
  exact ⟨_, onPacket_eq result,
    (put_packet s _ _ _).agrees_of_agrees agrees (put_packet s' _ _ _)⟩

theorem onProperty_eq {a : Address} {op : PropertyM α} {w : Writing Property}
    (h : op ⟨s.stream, s.propertyAt a⟩ = .ok x w) :
    onProperty a op s =
      .ok x { s with stream := w.stream, properties := s.properties.put a w.own } := by
  rw [onProperty, h]

theorem ok_of_onProperty {s' : Session} {a : Address} {op : PropertyM α}
    (h : onProperty a op s = .ok x s') :
    ∃ w, op ⟨s.stream, s.propertyAt a⟩ = .ok x w ∧
      s' = { s with stream := w.stream, properties := s.properties.put a w.own } := by
  cases run : op ⟨s.stream, s.propertyAt a⟩ with
  | ok y w =>
      rw [onProperty_eq run] at h
      obtain ⟨rfl, rfl⟩ := EStateM.Result.ok.inj h
      exact ⟨w, rfl, rfl⟩
  | error e w => simp [onProperty, run] at h

theorem onProperty_ok {a : Address} {op : PropertyM α} {w : Writing Property}
    (h : op ⟨s.stream, s.propertyAt a⟩ = .ok x w) :
    ∃ s', onProperty a op s = .ok x s' ∧ s.Put (.property a) w.stream (.property w.own) s' :=
  ⟨_, onProperty_eq h, put_property s a w.stream w.own⟩

theorem onProperty_error {a : Address} {op : PropertyM α} {e : Error} {w : Writing Property}
    (h : op ⟨s.stream, s.propertyAt a⟩ = .error e w) :
    onProperty a op s =
      .error e { s with stream := w.stream, properties := s.properties.put a w.own } := by
  rw [onProperty, h]

theorem error_of_onProperty {s' : Session} {a : Address} {op : PropertyM α} {e : Error}
    (run : onProperty a op s = .error e s') :
    ∃ w, op ⟨s.stream, s.propertyAt a⟩ = .error e w ∧
      s' = { s with stream := w.stream, properties := s.properties.put a w.own } := by
  cases made : op ⟨s.stream, s.propertyAt a⟩ with
  | ok x w => cases (onProperty_eq made).symm.trans run
  | error e' w =>
      obtain ⟨rfl, rfl⟩ := EStateM.Result.error.inj ((onProperty_error made).symm.trans run)
      exact ⟨w, rfl, rfl⟩

theorem rejects_onProperty {a : Address} {op : PropertyM α}
    (h : Refuses op ⟨s.stream, s.propertyAt a⟩) : s.Rejects (onProperty a op) := by
  obtain ⟨e, refusal, run⟩ := h
  exact ⟨e, _, refusal, onProperty_error run, (put_property s a s.stream _).agrees⟩

/-- What an operation on a property does depends on nothing but what can be seen of a session. -/
theorem Agrees.onProperty {s' s₁ : Session} (agrees : s.Agrees s') {a : Address} {op : PropertyM α}
    (run : Session.onProperty a op s = .ok x s₁) :
    ∃ s₁', Session.onProperty a op s' = .ok x s₁' ∧ s₁.Agrees s₁' := by
  obtain ⟨w, result, rfl⟩ := ok_of_onProperty run
  rw [← agrees.stream, ← agrees.propertyAt] at result
  exact ⟨_, onProperty_eq result,
    (put_property s _ _ _).agrees_of_agrees agrees (put_property s' _ _ _)⟩

variable {name : String} {l : IntervalList} {op : IntervalListM α}

theorem ok_of_onList {s' : Session} (h : onList name l op s = .ok x s') :
    ∃ w, op ⟨s.stream, l⟩ = .ok x w ∧
      s' = { s with stream := w.stream, lists := s.lists.put name w.own } := by
  cases run : op ⟨s.stream, l⟩ with
  | ok y w =>
      rw [onList, run] at h
      obtain ⟨rfl, rfl⟩ := EStateM.Result.ok.inj h
      exact ⟨w, rfl, rfl⟩
  | error e w => simp [onList, run] at h

theorem onList_ok (name : String) {w : Writing IntervalList} (h : op ⟨s.stream, l⟩ = .ok x w) :
    ∃ s', onList name l op s = .ok x s' ∧
      s.Put (.list name) w.stream (.list (some w.own)) s' :=
  ⟨_, by rw [onList, h], put_list s name w.stream w.own⟩

theorem rejects_onList (kept : s.lists.get? name = some l) (h : Refuses op ⟨s.stream, l⟩) :
    s.Rejects (onList name l op) := by
  obtain ⟨e, refusal, run⟩ := h
  refine ⟨e, _, refusal, by rw [onList, run], Put.agrees (q := .list name) ?_⟩
  rw [stateAt, kept]
  exact put_list s name s.stream l

end

/-! ## Closing a writer -/

section

variable {h : Handle} {op : SessionM Unit} {s s' : Session}

theorem behind_quietly (op : SessionM Unit) (s : Session) : behind (quietly op) s = behind op s := by
  unfold behind quietly
  cases op s <;> rfl

/-- Letting go of an open writer closes it, whatever comes of that. -/
theorem release_of_isOpen (isOpen : s.isOpen h = true) :
    release h s = .ok () (behind (finish h) s) := by
  rw [release, bind_of_ok (get_apply s)]
  simp only [isOpen, if_true, quietly, behind]
  cases finish h s <;> rfl

theorem closing_of_ok (run : op s = .ok () s') : closing h op s = finish h s' := by
  simp only [closing, run]

theorem closing_of_error {e : Error} (run : op s = .error e s') :
    closing h op s = .error e (behind (release h) s') := by
  simp only [closing, run, behind]
  cases release h s' <;> rfl

end

end Session

end SceneStream
