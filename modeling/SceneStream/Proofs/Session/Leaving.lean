import SceneStream.Proofs.Session.Locality

/-!
# What operations leave of a writer

A writer of its own accord is only ever closed: an operation that is not its own leaves it as it is, or
gives it up. What an answered operation leaves of its writer is known whatever stands on the stream.
-/

namespace SceneStream.Session

variable {s s' : Session} {P : Place → Prop} {α : Type} {a : Address} {h child : Handle}
  {q : Place} {list slot : String} {l : IntervalList} {content : Content}

/-- Closing a writer fails and leaves its state, or closes it. -/
theorem finish_cases (s : Session) (h : Handle) :
    (∃ e s', finish h s = .error e s' ∧ s'.stateAt h.place = s.stateAt h.place) ∨
      ∃ s', finish h s = .ok () s' ∧ (s'.stateAt h.place).token? = none := by
  obtain ⟨address, shape⟩ := h
  cases shape with
  | packet =>
      rcases Packet.finish_cases s.stream (s.packetAt address.root) with
        ⟨e, w, run, same⟩ | ⟨w, run, closed⟩
      · exact .inl ⟨e, _, onPacket_error run, (put_packet s _ _ _).here.trans (congrArg _ same)⟩
      · obtain ⟨s', answered, put⟩ := onPacket_ok run
        exact .inr ⟨s', answered, (congrArg WriterState.token? put.here).trans closed⟩
  | property content =>
      rcases Property.finish_cases s.stream (s.propertyAt address) with
        ⟨e, w, run, same⟩ | ⟨w, run, closed⟩
      · exact .inl ⟨e, _, onProperty_error run,
          (put_property s _ _ _).here.trans (congrArg _ same)⟩
      · obtain ⟨s', answered, put⟩ := onProperty_ok run
        exact .inr ⟨s', answered, (congrArg WriterState.token? put.here).trans closed⟩

theorem closed_of_finish (run : finish h s = .ok () s') : (s'.stateAt h.place).token? = none := by
  rcases s.finish_cases h with ⟨e, s₁, failed, -⟩ | ⟨s₁, closed, unopened⟩
  · cases failed.symm.trans run
  · obtain rfl := (EStateM.Result.ok.inj (closed.symm.trans run)).2
    exact unopened

/-! ## Other writers -/

/-- Writers are left as they are or closed, except at some places. -/
def LeavesOrCloses (P : Place → Prop) (s s' : Session) : Prop :=
  ∀ q, ¬ P q → s'.stateAt q = s.stateAt q ∨ (s'.stateAt q).token? = none

instance : IsPreorder Session (LeavesOrCloses P) where
  refl _ := fun _ _ => .inl rfl
  trans s s' s'' first second := by
    intro q away
    rcases second q away with same | closed
    · rw [same]
      exact first q away
    · exact .inr closed

theorem Touches.leavesOrCloses (touches : Touches P (fun _ => False) s s') :
    LeavesOrCloses P s s' :=
  fun q away => .inl (touches.elsewhere q away)

theorem leavesOrCloses_of_touches {op : SessionM α}
    (moves : Moves (Touches P (fun _ => False)) op) : Moves (LeavesOrCloses P) op :=
  fun s => (moves s).leavesOrCloses

theorem Put.leavesOrCloses {stream : Stream} {state : WriterState} (put : s.Put q stream state s')
    (here : P q) : LeavesOrCloses P s s' :=
  (put.touches here).leavesOrCloses

theorem leavesOrCloses_finish : Moves (LeavesOrCloses P) (finish h) := by
  intro s q _
  by_cases here : q = h.place
  · subst here
    rcases s.finish_cases h with ⟨e, s', run, same⟩ | ⟨s', run, closed⟩
    · rw [behind_of_error run]
      exact .inl same
    · rw [behind_of_ok run]
      exact .inr closed
  · have touches : Touches (fun r => r = h.place) (fun _ => False) s (behind (finish h) s) :=
      touches_finish (by exact rfl) s
    exact .inl (touches.elsewhere q here)

theorem leavesOrCloses_forget (s : Session) (r : Root) : LeavesOrCloses P s (s.forget r) := by
  intro q _
  rw [stateAt_forget]
  split
  · exact .inr (token?_fresh q)
  · exact .inl rfl

theorem leavesOrCloses_setList (here : P (.list list)) (l : IntervalList) (s : Session) :
    LeavesOrCloses P s { s.forget (.interval list) with lists := s.lists.put list l } := by
  have forgotten : LeavesOrCloses P s (s.forget (.interval list)) := leavesOrCloses_forget s _
  have put := put_list (s.forget (.interval list)) list s.stream l
  exact trans_of _ forgotten (put.leavesOrCloses here)

theorem leavesOrCloses_startIntervals (around : P (.property a)) (here : P (.list list))
    (content : Content) : Moves (LeavesOrCloses P) (startIntervals a content list) := by
  apply Moves.look
  intro s
  have writes (op : PropertyM Unit) : Moves (LeavesOrCloses P) (onProperty a op) :=
    leavesOrCloses_of_touches (touches_onProperty around op)
  apply (writes _).bind
  intro _
  apply (leavesOrCloses_of_touches (touches_beside _ _)).bind
  intro l
  apply (writes _).bind
  intro _
  exact moves_modify (leavesOrCloses_setList here l)

theorem leavesOrCloses_startInterval (around : P (.list list))
    (here : P (.property { root := .interval list })) (l : IntervalList) :
    Moves (LeavesOrCloses P) (startInterval list l) := by
  apply Moves.look
  intro s
  apply (leavesOrCloses_of_touches (touches_onList around _ _)).bind
  intro _
  apply (leavesOrCloses_of_touches (touches_beside _ _)).bind
  intro element
  apply moves_modify
  intro s
  refine trans_of _ (leavesOrCloses_setList around { l with hasCurrent := true } s) ?_
  exact (put_property _ { root := .interval list } s.stream element).leavesOrCloses here

theorem leavesOrCloses_make (slot : String) (shape : Shape) (name : String) :
    Moves (LeavesOrCloses P) (make slot shape name) := by
  apply moves_modify
  intro s q away
  have forgotten := leavesOrCloses_forget s (.slot slot) q away
  cases shape with
  | packet => cases q <;> exact forgotten
  | property content =>
      have put := put_property (s.forget (.slot slot)) { root := .slot slot } s.stream { name }
      by_cases same : q = .property { root := .slot slot }
      · subst same
        exact .inr (congrArg WriterState.token? put.here)
      · have elsewhere := put.elsewhere q same
        rw [← elsewhere] at forgotten
        cases q <;> exact forgotten

theorem token_of_mem_copies {p : Property} (mem : (a, p) ∈ s.copies h slot) : p.token = none := by
  unfold Session.copies at mem
  split at mem
  · obtain ⟨row, -, made⟩ := List.mem_map.mp mem
    rw [← (Prod.mk.inj made).2, Property.renewed]
  · rw [(Prod.mk.inj (List.mem_singleton.mp mem)).2, Property.renewed]

theorem leavesOrCloses_copy (h : Handle) (slot : String) :
    Moves (LeavesOrCloses P) (copy h slot) := by
  apply moves_modify
  intro s q away
  have forgotten := leavesOrCloses_forget s (.slot slot) q away
  cases q with
  | packet | list => exact forgotten
  | property a =>
      have split := Table.get?_append (s.copies h slot) (s.forget (.slot slot)).properties a
      cases kept : (s.copies h slot).get? a with
      | none =>
          rw [kept, Option.none_or] at split
          have same : ((behind (copy h slot) s).propertyAt a) = (s.forget (.slot slot)).propertyAt a :=
            congrArg (fun found => Option.getD found _) split
          change WriterState.property ((behind (copy h slot) s).propertyAt a) = _ ∨
            ((behind (copy h slot) s).propertyAt a).token = none
          rw [same]
          exact forgotten
      | some p =>
          rw [kept, Option.some_or] at split
          have same : ((behind (copy h slot) s).propertyAt a) = p :=
            congrArg (fun found => Option.getD found _) split
          right
          change ((behind (copy h slot) s).propertyAt a).token = none
          rw [same]
          exact token_of_mem_copies (Table.mem_of_get? kept)

/-! ## The writer itself -/

theorem propertyAt_of_put {t : Table Address Property} {p : Property}
    (put : s.properties = t.put a p) : s.propertyAt a = p := by
  rw [propertyAt, put, Table.get?_put_self, Option.getD_some]

/-- An answered operation of a property leaves what it makes of it. -/
theorem propertyAt_of_onProperty {op : PropertyM α} {x : α}
    (run : onProperty a op s = .ok x s') :
    ∃ w, op ⟨s.stream, s.propertyAt a⟩ = .ok x w ∧ s'.propertyAt a = w.own := by
  obtain ⟨w, made, rfl⟩ := ok_of_onProperty run
  exact ⟨w, made, propertyAt_of_put rfl⟩

/-- An opened property has nothing written. -/
theorem propertyAt_of_start (run : start h s = .ok () s') (place : h.place = .property a) :
    ∃ t, s'.propertyAt a = (s.propertyAt a).started t := by
  obtain ⟨address, shape⟩ := h
  cases shape with
  | packet => cases place
  | property content =>
      obtain rfl := Place.property.inj place
      obtain ⟨w, started, left⟩ := propertyAt_of_onProperty run
      obtain ⟨t, own⟩ := Property.own_of_start started
      exact ⟨t, left.trans own⟩

/-- A property in which a place was made for a child took entries, and is an object. -/
theorem propertyAt_of_prepareChild (run : prepareChild h s = .ok () s')
    (place : h.place = .property a) :
    (s.propertyAt a).TakesEntries s.stream ∧
      s'.propertyAt a = { s.propertyAt a with scope := .object } := by
  obtain ⟨address, shape⟩ := h
  cases shape with
  | packet => cases place
  | property content =>
      obtain rfl := Place.property.inj place
      obtain ⟨w, prepared, left⟩ := propertyAt_of_onProperty run
      refine ⟨?_, left.trans (Property.own_of_prepareChild prepared)⟩
      by_contra illegal
      obtain ⟨e, -, refused⟩ := Property.refuses_prepareChild illegal
      cases refused.symm.trans prepared

/-- The second session is the first after a child was opened in it, and perhaps written and closed. -/
def LeavesChild (s : Session) (h child : Handle) (s' : Session) : Prop :=
  ∃ s₁, startChild h child s = .ok () s₁ ∧
    (∀ q, q ≠ child.place → s'.stateAt q = s₁.stateAt q) ∧
    (s'.stateAt child.place = s₁.stateAt child.place ∨ (s'.stateAt child.place).token? = none)

namespace LeavesChild

theorem of_startChild (run : startChild h child s = .ok () s') : s.LeavesChild h child s' :=
  ⟨s', run, fun _ _ => rfl, .inl rfl⟩

theorem of_writeChild {op : PropertyM Unit} (own : child.place = .property child.address)
    (run : writeChild h child op s = .ok () s') : s.LeavesChild h child s' := by
  obtain ⟨_, s₁, started, rest⟩ := ok_of_bind run
  have touches : Touches (fun q => q = child.place) (fun _ => False) s₁ s' :=
    (touches_closing (by exact rfl) (touches_onProperty (by exact own.symm) op)).of_ok rest
  refine ⟨s₁, started, touches.elsewhere, .inr ?_⟩
  unfold closing at rest
  split at rest
  · exact closed_of_finish rest
  · split at rest <;> cases rest

theorem of_leavesEmpty (leaves : s.LeavesEmpty h child s') : s.LeavesChild h child s' := by
  obtain ⟨s₁, s₂, started, finished, agrees⟩ := leaves
  have touches : Touches (fun q => q = child.place) (fun _ => False) s₁ s₂ :=
    (touches_finish (by exact rfl)).of_ok finished
  refine ⟨s₁, started, ?_, .inr ?_⟩
  · intro q away
    rw [agrees.states, touches.elsewhere q away]
  · rw [agrees.states]
    exact closed_of_finish finished

/-- The parent of the child took entries, and is an object. -/
theorem parent (leaves : s.LeavesChild h child s') (apart : child.place ≠ h.place)
    (place : h.place = .property a) :
    (s.propertyAt a).TakesEntries s.stream ∧
      s'.propertyAt a = { s.propertyAt a with scope := .object } := by
  obtain ⟨s₁, run, others, -⟩ := leaves
  obtain ⟨_, s₂, prepared, started⟩ := ok_of_bind run
  have away : .property a ≠ child.place := fun same => apart (same.symm.trans place.symm)
  have touches : Touches (fun q => q = child.place) (fun _ => False) s₂ s₁ :=
    (touches_start (by exact rfl)).of_ok started
  obtain ⟨takes, left⟩ := propertyAt_of_prepareChild prepared place
  have same := (others _ away).trans (touches.elsewhere _ away)
  exact ⟨takes, (WriterState.property.inj same).trans left⟩

/-- The child is closed, or has nothing written. -/
theorem inner (leaves : s.LeavesChild h child s') (place : child.place = .property a) :
    (s'.propertyAt a).token = none ∨ ∃ p t, s'.propertyAt a = Property.started p t := by
  obtain ⟨s₁, run, -, here⟩ := leaves
  obtain ⟨_, s₂, prepared, started⟩ := ok_of_bind run
  rw [place] at here
  rcases here with same | closed
  · obtain ⟨t, left⟩ := propertyAt_of_start started place
    exact .inr ⟨_, t, (WriterState.property.inj same).trans left⟩
  · exact .inl closed

end LeavesChild

/-- A property that became a list had nothing written, and has nothing else, unless the new list takes
the place of a list that the property lies in. -/
theorem propertyAt_of_startIntervals (run : startIntervals a content list s = .ok () s') :
    (s.propertyAt a).scope = .unopened ∧ ((s'.propertyAt a).token = none ∨
      s'.propertyAt a = { s.propertyAt a with scope := .intervals }) := by
  obtain ⟨_, _, looked, run⟩ := ok_of_bind run
  obtain ⟨rfl, rfl⟩ := EStateM.Result.ok.inj looked
  obtain ⟨_, s₁, prepared, run⟩ := ok_of_bind run
  obtain ⟨l, s₂, begun, run⟩ := ok_of_bind run
  obtain ⟨_, s₃, noted, ended⟩ := ok_of_bind run
  obtain ⟨w, made, first⟩ := propertyAt_of_onProperty prepared
  obtain ⟨-, unopened, own⟩ := Property.eq_of_prepareIntervals made
  refine ⟨unopened, ?_⟩
  have second : Touches (fun _ => False) (fun _ => False) s₁ s₂ := (touches_beside _ _).of_ok begun
  have same := WriterState.property.inj (second.elsewhere (.property a) id)
  obtain ⟨w', set, third⟩ := propertyAt_of_onProperty noted
  obtain rfl := (EStateM.Result.ok.inj set).2
  have listed : s₃.propertyAt a = { s.propertyAt a with scope := .intervals } := by
    rw [third, ← own, ← first, ← same]
  obtain rfl := (EStateM.Result.ok.inj ended).2
  rw [← listed]
  rcases leavesOrCloses_forget (P := fun _ => False) s₃ (.interval list) (.property a) id with
    left | closed
  · exact .inr (WriterState.property.inj left)
  · exact .inl closed

/-- A new interval is made after its list, and has nothing written. -/
theorem propertyAt_of_startInterval (run : startInterval list l s = .ok () s') :
    ∃ t, s'.propertyAt { root := .interval list } = l.template.renewed.started t := by
  obtain ⟨_, _, -, run⟩ := ok_of_bind run
  obtain ⟨_, s₁, -, run⟩ := ok_of_bind run
  obtain ⟨element, s₂, begun, ended⟩ := ok_of_bind run
  obtain rfl := (EStateM.Result.ok.inj ended).2
  unfold beside at begun
  split at begun
  next w started =>
    obtain ⟨t, own⟩ := Property.own_of_start started
    obtain ⟨rfl, -⟩ := EStateM.Result.ok.inj begun
    exact ⟨t, (propertyAt_of_put rfl).trans own⟩
  next => cases begun

end SceneStream.Session
