import SceneStream.Proofs.Session.Turnout

/-!
# Where a command reaches

A command reaches the writer that it is addressed to, the child or the list that it is about, and
what stood under a name that it gives to another writer. However it turns out, every other writer
stays as it is, and the document stays with the program until it is finished; all that becomes of it
before is that its packets are counted.
-/

namespace SceneStream.Session

variable {s s' : Session} {P : Place → Prop} {α : Type} {a : Address} {h child : Handle}
  {list slot : String} {d : Document} {D : Option Document → Prop}

/-- Only the writers at some places differ, and the document if it is made one of some. -/
structure Touches (P : Place → Prop) (D : Option Document → Prop) (s s' : Session) : Prop where
  document : s'.document = s.document ∨ D s'.document
  elsewhere : ∀ q, ¬ P q → s'.stateAt q = s.stateAt q

instance : IsPreorder Session (Touches P D) where
  refl _ := ⟨.inl rfl, fun _ _ => rfl⟩
  trans _ _ _ h h' := ⟨h'.document.elim (fun same => by rw [same]; exact h.document) .inr,
    fun q away => (h'.elsewhere q away).trans (h.elsewhere q away)⟩

theorem Put.touches {q : Place} {stream : Stream} {state : WriterState}
    (put : s.Put q stream state s') (here : P q) : Touches P D s s' where
  document := .inl put.document
  elsewhere r away := put.elsewhere r fun same => away (same ▸ here)

/-! ## Operations -/

section

variable {T : Session → Session → Prop}

section

variable (onPackets : ∀ r (op : PacketM Unit), Moves T (onPacket r op))
include onPackets

theorem moves_start (starts : ∀ a, Moves T (onProperty a Property.start)) (h : Handle) :
    Moves T (start h) := by
  unfold start
  split
  · exact onPackets _ _
  · exact starts _

theorem moves_finish (finishes : ∀ a, Moves T (onProperty a Property.finish)) (h : Handle) :
    Moves T (finish h) := by
  unfold finish
  split
  · exact onPackets _ _
  · exact finishes _

variable [IsPreorder Session T]

theorem moves_startChild (prepares : ∀ a, Moves T (onProperty a Property.prepareChild))
    (starts : ∀ a, Moves T (onProperty a Property.start)) (h child : Handle) :
    Moves T (startChild h child) := by
  refine Moves.bind ?_ fun _ => moves_start onPackets starts child
  unfold prepareChild
  split
  · exact onPackets _ _
  · exact prepares _

end

variable [IsPreorder Session T]

/-- Letting go of a writer may close it, and nothing else. -/
theorem moves_release (finishes : Moves T (finish h)) : Moves T (release h) := by
  apply Moves.look
  intro s
  refine .ite (fun s => ?_) (moves_pure _)
  rw [behind_quietly]
  exact finishes s

theorem moves_closing (finishes : Moves T (finish h)) {op : SessionM Unit} (moves : Moves T op) :
    Moves T (closing h op) := by
  intro s
  have first := moves s
  cases run : op s with
  | ok _ s₁ =>
      rw [behind_of_ok run] at first
      rw [behind, closing_of_ok run]
      exact trans_of _ first (finishes s₁)
  | error e s₁ =>
      rw [behind_of_error run] at first
      rw [behind_of_error (closing_of_error run)]
      exact trans_of _ first (moves_release finishes s₁)

end

theorem touches_onStream (op : StreamM α) : Moves (Touches P D) (onStream op) := by
  intro s
  unfold behind onStream
  cases op s.stream <;> exact ⟨.inl rfl, fun _ _ => rfl⟩

theorem touches_onPacket {r : Root} (here : P (.packet r)) (op : PacketM α) :
    Moves (Touches P D) (onPacket r op) := by
  intro s
  unfold behind onPacket
  cases op ⟨s.stream, s.packetAt r⟩ <;> exact (put_packet s r _ _).touches here

theorem touches_onProperty (here : P (.property a)) (op : PropertyM α) :
    Moves (Touches P D) (onProperty a op) := by
  intro s
  unfold behind onProperty
  cases op ⟨s.stream, s.propertyAt a⟩ <;> exact (put_property s a _ _).touches here

theorem touches_onList (here : P (.list list)) (l : IntervalList) (op : IntervalListM α) :
    Moves (Touches P D) (onList list l op) := by
  intro s
  unfold behind onList
  cases op ⟨s.stream, l⟩ <;> exact (put_list s list _ _).touches here

theorem touches_beside {ω : Type} (own : ω) (op : WriterM ω Unit) :
    Moves (Touches P D) (beside own op) := by
  intro s
  unfold behind beside
  cases op ⟨s.stream, own⟩ <;> exact ⟨.inl rfl, fun _ _ => rfl⟩

theorem touches_start (here : P h.place) : Moves (Touches P D) (start h) := by
  obtain ⟨address, shape⟩ := h
  cases shape with
  | packet => exact touches_onPacket here _
  | property => exact touches_onProperty here _

theorem touches_finish (here : P h.place) : Moves (Touches P D) (finish h) := by
  obtain ⟨address, shape⟩ := h
  cases shape with
  | packet => exact touches_onPacket here _
  | property => exact touches_onProperty here _

theorem touches_release (here : P h.place) : Moves (Touches P D) (release h) :=
  moves_release (touches_finish here)

theorem touches_closing (here : P h.place) {op : SessionM Unit} (moves : Moves (Touches P D) op) :
    Moves (Touches P D) (closing h op) :=
  moves_closing (touches_finish here) moves

theorem touches_prepareChild (here : P h.place) : Moves (Touches P D) (prepareChild h) := by
  obtain ⟨address, shape⟩ := h
  cases shape with
  | packet => exact touches_onPacket here _
  | property => exact touches_onProperty here _

theorem touches_startChild (parent : P h.place) (inner : P child.place) :
    Moves (Touches P D) (startChild h child) :=
  (touches_prepareChild parent).bind fun _ => touches_start inner

theorem touches_writeChild (parent : P h.place) (inner : P child.place)
    (own : P (.property child.address)) (op : PropertyM Unit) :
    Moves (Touches P D) (writeChild h child op) :=
  (touches_startChild parent inner).bind fun _ =>
    touches_closing inner (touches_onProperty own op)

theorem touches_forget (r : Root) (around : ∀ q, q.isAt r = true → P q) (s : Session) :
    Touches P D s (s.forget r) where
  document := .inl rfl
  elsewhere q away := by
    rw [stateAt_forget, if_neg fun inside => away (around q inside)]

/-- The name of a list is given to another one. -/
theorem touches_setList (around : ∀ q, q.isOfList list = true → P q) (l : IntervalList)
    (s : Session) :
    Touches P D s { s.forget (.interval list) with lists := s.lists.put list l } := by
  have forgotten : Touches P D s (s.forget (.interval list)) :=
    touches_forget (.interval list) (fun q inside => around q (by simp [Place.isOfList, inside])) s
  exact trans_of _ forgotten ((put_list (s.forget (.interval list)) list s.stream l).touches
    (around _ (by simp [Place.isOfList])))

theorem touches_startIntervals (here : P (.property a)) (around : ∀ q, q.isOfList list = true → P q)
    (content : Content) : Moves (Touches P D) (startIntervals a content list) := by
  apply Moves.look
  intro s
  apply (touches_onProperty here _).bind
  intro _
  apply (touches_beside _ _).bind
  intro l
  apply (touches_onProperty here _).bind
  intro _
  exact moves_modify (touches_setList around l)

theorem touches_startInterval (around : ∀ q, q.isOfList list = true → P q) (l : IntervalList) :
    Moves (Touches P D) (startInterval list l) := by
  apply Moves.look
  intro s
  apply (touches_onList (around _ (by simp [Place.isOfList])) _ _).bind
  intro _
  apply (touches_beside _ _).bind
  intro element
  apply moves_modify
  intro s
  refine trans_of _ (touches_setList around { l with hasCurrent := true } s) ?_
  exact (put_property _ { root := .interval list } s.stream element).touches
    (around _ (by simp [Place.isOfList, Place.isAt]))

/-- Writers are put into a slot. -/
theorem touches_slot (around : ∀ q, q.isAt (.slot slot) = true → P q) (shape : Shape)
    (kept : Table Address Property) (own : ∀ a p, (a, p) ∈ kept → a.root = .slot slot)
    (s : Session) :
    Touches P D s { s.forget (.slot slot) with
      slots := s.slots.put slot shape
      properties := kept ++ (s.forget (.slot slot)).properties } where
  document := .inl rfl
  elsewhere q away := by
    have outside : ¬ q.isAt (.slot slot) = true := fun inside => away (around q inside)
    have forgotten := stateAt_forget s (.slot slot) q
    rw [if_neg outside] at forgotten
    rw [← forgotten]
    cases q with
    | packet | list => rfl
    | property a =>
        have foreign : kept.get? a = none := by
          apply Table.get?_eq_none
          intro p mem
          exact outside (by simp [Place.isAt, own a p mem])
        simp [stateAt, propertyAt, Table.get?_append, foreign]

theorem touches_make (around : ∀ q, q.isAt (.slot slot) = true → P q) (shape : Shape)
    (name : String) : Moves (Touches P D) (make slot shape name) := by
  apply moves_modify
  intro s
  cases shape with
  | packet => exact touches_slot around _ [] (by simp) s
  | property content =>
      exact trans_of _ (touches_slot around (.property content) [] (by simp) s)
        ((put_property _ { root := .slot slot } s.stream { name }).touches
          (around _ (by simp [Place.isAt])))

theorem touches_copy (around : ∀ q, q.isAt (.slot slot) = true → P q) (h : Handle) :
    Moves (Touches P D) (copy h slot) := by
  apply moves_modify
  intro s
  refine touches_slot around _ _ ?_ s
  intro a p mem
  obtain ⟨address, shape⟩ := h
  cases shape with
  | packet =>
      obtain ⟨row, -, made⟩ := List.mem_map.mp mem
      rw [← (Prod.mk.inj made).1]
  | property => rw [(Prod.mk.inj (List.mem_singleton.mp mem)).1]

theorem touches_openPacket (here : P (.packet .document))
    (counted : D (some { d with packets := d.packets + 1 })) :
    Moves (Touches P D) (openPacket d) := by
  apply (touches_start (h := documentPacket) here).bind
  intro _
  apply moves_modify
  exact fun _ => ⟨.inr counted, fun _ _ => rfl⟩

theorem touches_writeDocumentPacket (here : P (.packet .document))
    (counted : D (some { d with packets := d.packets + 1 })) (name : String) :
    Moves (Touches P D) (writeDocumentPacket d name) := by
  have whole : Moves (Touches P D) (do
      openPacket d
      closing documentPacket <| onPacket .document do
        Packet.writeId "document"
        Packet.writeName name
        Packet.writeVersion Document.version) :=
    (touches_openPacket here counted).bind fun _ =>
      touches_closing (h := documentPacket) here (touches_onPacket here _)
  unfold writeDocumentPacket
  split
  · exact (moves_refuse _).bind fun _ => whole
  · exact whole

/-! ## Commands -/

/-- Whether a command may change the writer at a place. -/
def touches (s : Session) (q : Place) : Command → Prop
  | .document .openPacket | .document (.writeDocumentPacket _) => q = .packet .document
  | .make slot .. | .writer _ (.copy slot) => q.isAt (.slot slot) = true
  | .writer a .start | .writer a .finish | .writer a .release => q = s.placeAt a
  | .parent a c => q = s.placeAt a ∨ q = .property (a.child c.child)
  | .packet a _ => q = .packet a.root
  | .property a (.startIntervals list) => q = .property a ∨ q.isOfList list = true
  | .property a _ | .value a _ => q = .property a
  | .list list .startInterval => q.isOfList list = true
  | .list list _ => q = .list list
  | .document .packetCount | .document .finish | .writer _ .state | .writer _ .touch
  | .stream _ => False

/-- What a command may put in place of the document: the document with one more packet counted, or
nothing where it ends the document. -/
def documents : Command → Option Document → Prop
  | .document .openPacket, d | .document (.writeDocumentPacket _), d => ∃ n, d = some ⟨n + 1⟩
  | .document .finish, d => d = none
  | _, _ => False

theorem behind_of_operation? {c : Command} {call : SessionM Reply}
    (called : s.operation? c = some call) : (s.step c).2 = behind call s := by
  simp only [step, called, behind]
  cases call s <;> rfl

/-- What a command leaves differs from what it meets only as its calls may. -/
def Reaches (s : Session) (c : Command) (call : SessionM Reply) : Prop :=
  Moves (Touches (fun q => s.touches q c) (documents c)) call

theorem reaches_doing {c : Command} {op : SessionM Unit}
    (moves : Moves (Touches (fun q => s.touches q c) (documents c)) op) :
    s.Reaches c (doing op) := moves.bind fun _ => moves_pure _

theorem reaches_look {c : Command} (f : Session → Reply) : s.Reaches c (look f) :=
  Moves.look fun _ => moves_pure _

theorem reaches_document {c : DocumentCommand} (s : Session) (d : Document) :
    s.Reaches (.document c) (onDocument d c) := by
  cases c with
  | openPacket => exact reaches_doing (touches_openPacket (by exact rfl) ⟨d.packets, rfl⟩)
  | writeDocumentPacket name =>
      exact reaches_doing (touches_writeDocumentPacket (by exact rfl) ⟨d.packets, rfl⟩ name)
  | packetCount => exact moves_pure _
  | finish =>
      apply reaches_doing
      unfold finishDocument
      refine Moves.bind (moves_modify fun s => ?_) fun _ => touches_onStream _
      exact ⟨.inr rfl, fun _ _ => rfl⟩

theorem reaches_writer {c : WriterCommand} (found : s.handle? a = some h) :
    s.Reaches (.writer a c) (onWriter h c) := by
  have here := (place_of_handle? found).2
  cases c with
  | start => exact reaches_doing (touches_start here)
  | finish => exact reaches_doing (touches_finish here)
  | release => exact reaches_doing (touches_release here)
  | state => exact reaches_look _
  | touch => exact moves_pure _
  | copy slot => exact reaches_doing (touches_copy (fun _ => id) h)

/-- Opening a child, or writing it, reaches the parent and the child. -/
theorem reaches_parent {c : ParentCommand} {call : SessionM Reply} (found : s.handle? a = some h)
    (called : onParent? h c = some call) : s.Reaches (.parent a c) call := by
  obtain ⟨child, content, member, made⟩ := onParent?_cases called
  have isChild := isChild_of_member? found member
  have address := (place_of_handle? found).1
  have parent : s.touches h.place (.parent a c) := .inl (place_of_handle? found).2
  have inner : s.touches child.place (.parent a c) :=
    .inr (isChild.place.trans (by rw [address]))
  have own : s.touches (.property child.address) (.parent a c) :=
    .inr (by rw [isChild.address, address])
  rcases made with rfl | ⟨k, value, op, -, rfl⟩ | ⟨e, -, rfl⟩
  · exact reaches_doing (touches_startChild parent inner)
  · exact reaches_doing (touches_writeChild parent inner own op)
  · exact reaches_doing (moves_throw e)

theorem reaches_content {c : PropertyCommand} (s : Session) (a : Address) (content : Content) :
    s.Reaches (.property a c) (onContent a content c) := by
  cases c with
  | startIntervals list =>
      exact reaches_doing (touches_startIntervals (.inl rfl) (fun _ inside => .inr inside) content)
  | describe => exact reaches_look _
  | interval | delete | forceObject | openScope | prepareChild =>
      exact reaches_doing (touches_onProperty (by exact rfl) _)

theorem reaches_intervals {c : ListCommand} (s : Session) (list : String) (l : IntervalList) :
    s.Reaches (.list list c) (onIntervals list l c) := by
  cases c with
  | start => exact reaches_doing (touches_onList (by exact rfl) _ _)
  | startInterval => exact reaches_doing (touches_startInterval (fun _ => id) l)
  | finish => exact reaches_doing (Moves.look fun _ => touches_onList (by exact rfl) _ _)
  | state => exact moves_pure _

theorem reaches_output {c : StreamCommand} {call : SessionM Reply}
    (called : s.onOutput? c = some call) : s.Reaches (.stream c) call := by
  cases c with
  | startObject | endObject | startSequence | endSequence | name | value | flush | expectCanOpen =>
      obtain rfl := Option.some.inj called
      exact reaches_doing (touches_onStream _)
  | describe | active =>
      obtain rfl := Option.some.inj called
      exact reaches_look _
  | endWriter | grantChild | expectActive =>
      obtain ⟨t, -, rfl⟩ := Option.map_eq_some_iff.mp called
      exact reaches_doing (touches_onStream _)
  | beginWriter token =>
      obtain rfl := Option.some.inj called
      apply (touches_onStream _).bind
      intro t
      refine Moves.bind (moves_modify fun s => ?_) fun _ => moves_pure _
      exact ⟨.inl rfl, fun _ _ => rfl⟩

theorem reaches_of_operation? {c : Command} {call : SessionM Reply}
    (called : s.operation? c = some call) : s.Reaches c call := by
  cases c with
  | document c =>
      obtain ⟨d, -, rfl⟩ := Option.map_eq_some_iff.mp called
      exact reaches_document s d
  | make slot shape name =>
      obtain rfl := Option.some.inj called
      exact reaches_doing (touches_make (fun _ => id) shape name)
  | writer a c =>
      obtain ⟨h, found, ⟨⟩⟩ := Option.bind_eq_some_iff.mp called
      exact reaches_writer found
  | parent a c =>
      obtain ⟨h, found, made⟩ := Option.bind_eq_some_iff.mp called
      exact reaches_parent found made
  | packet a c =>
      obtain ⟨h, -, made⟩ := Option.bind_eq_some_iff.mp called
      obtain ⟨-, ⟨⟩⟩ := Option.ite_none_right_eq_some.mp made
      exact reaches_doing (touches_onPacket (by exact rfl) _)
  | property a c =>
      obtain ⟨content, rfl⟩ := onContent_of_operation? called
      exact reaches_content s a content
  | value a c =>
      obtain ⟨k, op, -, rfl⟩ := valueOp?_of_operation? called
      exact reaches_doing (touches_onProperty (by exact rfl) op)
  | list list c =>
      obtain ⟨l, -, ⟨⟩⟩ := Option.bind_eq_some_iff.mp called
      exact reaches_intervals s list l
  | stream c => exact reaches_output called

/-- A command changes no writer but those that it may change, and the document only as it may. -/
theorem touches_step (s : Session) (c : Command) :
    Touches (fun q => s.touches q c) (documents c) s (s.step c).2 := by
  cases called : s.operation? c with
  | none =>
      rw [step_of_none called]
      exact refl s
  | some call =>
      rw [behind_of_operation? called]
      exact reaches_of_operation? called s

end SceneStream.Session
