import SceneStream.Proofs.Session.Telling

/-!
# Giving writers up

A program may put a new writer where another one stands. The former writer and all that lies in it
are given up: open or not, nobody can call them any more. Their openings stay on the stream, and
what they have written stays in the outline.
-/

namespace SceneStream

/-- Whether the place belongs to a root. -/
def Place.isAt (r : Root) : Place → Bool
  | .packet r' => r' = r
  | .property a => a.root = r
  | .list _ => false

/-- Whether the place belongs to a list: it is the list's own, or lies in its latest interval. -/
def Place.isOfList (list : String) (q : Place) : Bool :=
  q = .list list || q.isAt (.interval list)

namespace Session

variable {s s' : Session} {o : Outline} {roll : List Opening} {q outer : Place} {r : Root}

/-- The state of a writer that was never used. -/
def fresh : Place → WriterState
  | .packet _ => .packet {}
  | .property a => .property { name := a.path.getLast?.getD "" }
  | .list _ => .list none

theorem stateAt_forget (s : Session) (r : Root) (q : Place) :
    (s.forget r).stateAt q = if q.isAt r then fresh q else s.stateAt q := by
  cases q with
  | packet r' =>
      by_cases same : r' = r <;>
        simp [stateAt, packetAt, forget, Table.get?_without, Place.isAt, same, fresh]
  | property a =>
      by_cases same : a.root = r <;>
        simp [stateAt, propertyAt, forget, Table.get?_without, Place.isAt, same, fresh]
  | list => rfl

theorem token?_fresh (q : Place) : (fresh q).token? = none := by
  cases q <;> rfl

theorem isRegular_fresh (q : Place) : (fresh q).IsRegular q := by
  cases q with
  | property a =>
      intro member
      exact ⟨rfl, by rw [List.getLast?_eq_some_getLast member]; rfl⟩
  | packet | list => trivial

/-- What lies in a writer of another root belongs to another root itself. -/
theorem isAt_of_around? (left : q.isAt r = false) (inside : s.around? q = some outer) :
    outer.isAt r = false := by
  rcases around?_cases inside with ⟨list, rfl, rfl⟩ | ⟨a, rfl, -, rfl⟩
  · rfl
  · unfold placeAt
    split <;> exact left

/-- The session without the writers of a root. -/
theorem Tells.forget_root (tells : s.Tells o roll) (r : Root) :
    (s.forget r).Tells o (roll.map (Opening.forget (Place.isAt r))) := by
  refine tells.forget rfl ?_ ?_ ?_ ?_ ?_
  · intro q gone
    rw [stateAt_forget, if_pos gone, token?_fresh]
  · intro q left
    rw [stateAt_forget, if_neg (by simp [left])]
  · intro q _
    rw [around?_congr]
    rfl
  · intro q outer left inside
    exact isAt_of_around? left inside
  · intro q gone
    rw [stateAt_forget, if_pos gone]
    exact isRegular_fresh q

/-! ## Giving up a list -/

/-- The session without a list and without its latest interval. -/
def forgetList (s : Session) (list : String) : Session :=
  { s.forget (.interval list) with lists := s.lists.without (· = list) }

theorem stateAt_forgetList (s : Session) (list : String) (q : Place) :
    (s.forgetList list).stateAt q = if q.isOfList list then fresh q else s.stateAt q := by
  cases q with
  | packet r =>
      exact (stateAt_forget s (.interval list) (.packet r)).trans (by simp [Place.isOfList])
  | property a =>
      exact (stateAt_forget s (.interval list) (.property a)).trans (by simp [Place.isOfList])
  | list name =>
      by_cases same : name = list <;>
        simp [stateAt, forgetList, Table.get?_without, Place.isOfList, Place.isAt, same, fresh]

theorem Registers.forgetList (h : s.Registers roll) (list : String) :
    (s.forgetList list).Registers (roll.map (Opening.forget (Place.isOfList list))) := by
  refine h.forget rfl ?_ ?_ ?_ ?_
  · intro q gone
    rw [stateAt_forgetList, if_pos gone, token?_fresh]
  · intro q left
    rw [stateAt_forgetList, if_neg (by simp [left])]
  · intro q _
    rw [around?_congr]
    rfl
  · intro q outer left inside
    obtain ⟨-, away⟩ : q ≠ .list list ∧ q.isAt (.interval list) = false := by
      simpa [Place.isOfList] using left
    rcases around?_cases inside with ⟨other, rfl, rfl⟩ | ⟨a, rfl, member, rfl⟩
    · have other : other ≠ list := by simpa [Place.isAt] using away
      simp [Place.isOfList, Place.isAt, other]
    · have away : a.root ≠ .interval list := by simpa [Place.isAt] using away
      unfold placeAt
      split <;> simp [Place.isOfList, Place.isAt, away]

/-! ## Putting writers into a slot -/

section

variable {slot : String} {shape : Shape} {a : Address}

/-- What lies elsewhere lies in the same writers, whatever a slot holds. -/
theorem around?_of_slot (slots : s'.slots = s.slots.put slot shape)
    (left : q.isAt (.slot slot) = false) : s'.around? q = s.around? q := by
  cases q with
  | packet | list => rfl
  | property a =>
      obtain ⟨root, path⟩ := a
      have bears : s'.bearsPackets root = s.bearsPackets root := by
        cases root with
        | document | interval => rfl
        | slot name =>
            have other : slot ≠ name := by
              rintro rfl
              simp [Place.isAt] at left
            simp [bearsPackets, slots, Table.get?_put_of_ne _ _ other]
      cases path with
      | nil => cases root <;> rfl
      | cons name path => simp [around?, placeAt, bears]

/-- The writers of a slot are given up, and closed ones stand there instead. -/
theorem Tells.replace (tells : s.Tells o roll) (stream : s'.stream = s.stream)
    (slots : s'.slots = s.slots.put slot shape) (lists : s'.lists = s.lists)
    (packets : s'.packets = s.packets.without (· = .slot slot))
    (others : ∀ a, a.root ≠ .slot slot → s'.properties.get? a = s.properties.get? a)
    (closed : ∀ a p, a.root = .slot slot → s'.properties.get? a = some p →
      p.token = none ∧ (WriterState.property p).IsRegular (.property a)) :
    s'.Tells o (roll.map (Opening.forget (Place.isAt (.slot slot)))) := by
  have there (q : Place) (gone : q.isAt (.slot slot) = true) :
      (s'.stateAt q).token? = none ∧ (s'.stateAt q).IsRegular q := by
    cases q with
    | list => cases gone
    | packet r =>
        have root : r = .slot slot := by simpa [Place.isAt] using gone
        simp [stateAt, packetAt, packets, Table.get?_without, root, WriterState.token?,
          WriterState.IsRegular]
    | property a =>
        have root : a.root = .slot slot := by simpa [Place.isAt] using gone
        rw [stateAt, propertyAt]
        cases kept : s'.properties.get? a with
        | none => exact ⟨token?_fresh (.property a), isRegular_fresh (.property a)⟩
        | some p => exact closed a p root kept
  refine tells.forget stream ?_ ?_ ?_ ?_ ?_
  · intro q gone
    exact (there q gone).1
  · intro q left
    cases q with
    | list => rw [stateAt, stateAt, lists]
    | packet r =>
        have root : r ≠ .slot slot := by simpa [Place.isAt] using left
        simp [stateAt, packetAt, packets, Table.get?_without, root]
    | property a =>
        have root : a.root ≠ .slot slot := by simpa [Place.isAt] using left
        rw [stateAt, stateAt, propertyAt, propertyAt, others a root]
  · intro q left
    exact around?_of_slot slots left
  · intro q outer left inside
    exact isAt_of_around? left inside
  · intro q gone
    exact (there q gone).2

theorem Stands.make (stands : s.Stands o) (slot : String) (shape : Shape) (name : String) :
    ∃ s', make slot shape name s = .ok () s' ∧ s'.Stands o := by
  obtain ⟨grant, roll, tells⟩ := stands
  refine ⟨_, rfl, grant, _, tells.replace rfl rfl rfl rfl ?_ ?_⟩
  · intro a other
    cases shape with
    | packet => simp [Session.forget, Table.get?_without, other]
    | property content =>
        have ne : ({ root := .slot slot } : Address) ≠ a := by
          rintro rfl
          exact other rfl
        simp [Session.forget, Table.get?_put_of_ne _ _ ne, Table.get?_without, other]
  · intro a p at_slot kept
    cases shape with
    | packet => simp [Session.forget, Table.get?_without, at_slot] at kept
    | property content =>
        by_cases same : ({ root := .slot slot } : Address) = a
        · subst same
          obtain rfl : { name } = p := by simpa [Session.forget] using kept
          exact ⟨rfl, fun member => absurd rfl member⟩
        · simp [Session.forget, Table.get?_put_of_ne _ _ same, Table.get?_without, at_slot] at kept

/-- The properties that a copy starts with. -/
def copies (s : Session) (h : Handle) (slot : String) : Table Address Property :=
  match h.shape with
  | .packet => packetRows.map fun row =>
    ({ root := .slot slot, path := [row.name] },
      (s.propertyAt (h.address.child row.name)).renewed)
  | .property _ => [({ root := .slot slot }, (s.propertyAt h.address).renewed)]

/-- A copy keeps closed writers of its own slot, named as their members are. -/
theorem isRegular_copies (regular : ∀ a, (s.stateAt (.property a)).IsRegular (.property a))
    {h : Handle} {a : Address} {p : Property} (mem : (a, p) ∈ s.copies h slot) :
    a.root = .slot slot ∧ p.token = none ∧ (WriterState.property p).IsRegular (.property a) := by
  unfold Session.copies at mem
  split at mem
  · obtain ⟨row, -, made⟩ := List.mem_map.mp mem
    obtain ⟨rfl, rfl⟩ := Prod.mk.inj made
    obtain ⟨role, last⟩ := regular (h.address.child row.name) (by simp [Address.child])
    rw [Address.child, List.getLast?_concat] at last
    exact ⟨rfl, rfl, fun _ => ⟨role, last⟩⟩
  · obtain ⟨rfl, rfl⟩ := Prod.mk.inj (List.mem_singleton.mp mem)
    exact ⟨rfl, rfl, fun member => absurd rfl member⟩

theorem Tells.copies (tells : s.Tells o roll) {h : Handle} {a : Address} {p : Property}
    (mem : (a, p) ∈ s.copies h slot) :
    a.root = .slot slot ∧ p.token = none ∧ (WriterState.property p).IsRegular (.property a) :=
  isRegular_copies (fun a => tells.regular (.property a)) mem

theorem Stands.copy (stands : s.Stands o) (h : Handle) (slot : String) :
    ∃ s', copy h slot s = .ok () s' ∧ s'.Stands o := by
  obtain ⟨grant, roll, tells⟩ := stands
  have split (a : Address) := Table.get?_append (s.copies h slot)
    (s.forget (.slot slot)).properties a
  refine ⟨_, rfl, grant, _, tells.replace rfl rfl rfl rfl ?_ ?_⟩
  · intro a other
    have foreign : (s.copies h slot).get? a = none := by
      apply Table.get?_eq_none
      intro p mem
      exact other (tells.copies mem).1
    apply (split a).trans
    rw [foreign, Option.none_or, Session.forget, Table.get?_without]
    simp [other]
  · intro a p at_slot kept
    rcases Option.or_eq_some_iff.mp ((split a).symm.trans kept) with kept | ⟨-, kept⟩
    · exact (tells.copies (Table.mem_of_get? kept)).2
    · rw [Session.forget, Table.get?_without] at kept
      simp [at_slot] at kept

end

end Session

end SceneStream
