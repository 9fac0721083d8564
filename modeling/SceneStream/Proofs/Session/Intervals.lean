import SceneStream.Proofs.Session.Children
import SceneStream.Proofs.Session.Forgetting

/-!
# Lists of intervals in a session

A list is opened in place of a property, or again in the document's array, and each of its intervals
has a fresh writer. What stood under the list's name before is given up: the former list, and the
interval that was the latest.
-/

namespace SceneStream.Session

variable {s s' : Session} {o : Outline} {roll rest : List Opening} {q : Place} {t : Token}
  {st : Standing} {a : Address} {list : String} {l : IntervalList} {content : Content}

/-- What a list that is kept is known to be. -/
theorem Tells.list_regular (tells : s.Tells o roll) (kept : s.lists.get? list = some l) :
    l.template.role = .element ∧ (l.hasCurrent = true → l.token ≠ none) := by
  have regular := tells.regular (.list list)
  rwa [stateAt, kept] at regular

theorem token?_list (kept : s.lists.get? list = some l) :
    (s.stateAt (.list list)).token? = l.token := by
  rw [stateAt, kept]
  rfl

theorem beside_ok {ω : Type} {own : ω} {op : WriterM ω Unit} {w : Writing ω}
    (run : op ⟨s.stream, own⟩ = .ok () w) :
    beside own op s = .ok w.own { s with stream := w.stream } := by
  rw [beside, run]

/-- A list that has the turn is the first on the roll. -/
theorem Tells.head_of_list (tells : s.Tells o roll) (kept : s.lists.get? list = some l)
    (turn : l.HasTurn s.stream) :
    ∃ t rest items parts, l.token = some t ∧ s.stream.active? = some t ∧
      roll = ⟨t, some (.list list), .list l.template.name⟩ :: rest ∧
      o.parts = .list l.template.name items :: parts := by
  obtain ⟨t, token, active⟩ := turn
  obtain ⟨rest, rfl⟩ := tells.registers.head_of_active ((token?_list kept).trans token) active
  have standing : (s.stateAt (.list list)).standing = .list l.template.name := by
    rw [stateAt, kept]
    rfl
  rw [standing] at tells ⊢
  obtain ⟨p, parts, parts_eq, same, -⟩ := tells.top
  cases p with
  | list name items =>
      obtain rfl := Standing.list.inj same
      exact ⟨t, rest, items, parts, token, active, rfl, parts_eq⟩
  | packet | member | element => cases same

/-! ## Opening and closing a list -/

/-- A list that is opened on its own is one array in the document's array. -/
theorem Stands.startList (stands : s.Stands o) (kept : s.lists.get? list = some l) :
    s.Rejects (startList list l) ∨ ∃ s', startList list l s = .ok () s' ∧
      s'.Stands (o.after (.enter (.list l.template.name []))) := by
  obtain ⟨grant, roll, tells⟩ := stands
  by_cases closed : l.token = none
  · by_cases free : s.stream.MayOpen
    · obtain rfl := (tells.mayOpen_iff grant).mp free
      have parts := tells.parts_eq_nil
      by_cases legal : o.finished = false ∧ (Part.list l.template.name []).Fits o.parts
      · have around : o.around (.list l.template.name []) = o.parts := by
          simp [Outline.around, parts]
        have fits : (Part.list l.template.name []).Fits (o.around (.list l.template.name [])) := by
          rw [around]
          exact legal.2
        obtain ⟨text, run, shows⟩ := IntervalList.start_ok closed free tells.shows
          (tells.accepts_enter legal.1 fits rfl)
        obtain ⟨s', answered, put⟩ := onList_ok list run
        have regular : (WriterState.list (some { l with token := some s.stream.nextToken })).IsRegular
            (.list list) := ⟨(tells.list_regular kept).1, fun _ => Option.some_ne_none _⟩
        have told := tells.enter legal.1 fits rfl around ((token?_list kept).trans closed)
          (.inr ⟨_, rfl⟩) put shows rfl regular
        refine .inr ⟨s', answered, ?_, _, told⟩
        rw [put.stream]
        rfl
      · exact .inl (rejects_onList kept (IntervalList.refuses_start tells.shows
          (.inr (.inr (tells.forbids_item rfl legal)))))
    · exact .inl (rejects_onList kept (IntervalList.refuses_start tells.shows (.inr (.inl free))))
  · exact .inl (rejects_onList kept (IntervalList.refuses_start tells.shows (.inl closed)))

/-- A list that is the first on the roll has no interval open. -/
theorem Tells.intervalIsOpen (tells : s.Tells o (⟨t, some (.list list), st⟩ :: rest)) :
    s.intervalIsOpen list l = false := by
  have inside : s.around? (.property { root := .interval list }) = some (.list list) := rfl
  have closed : (s.propertyAt { root := .interval list }).token = none :=
    tells.registers.closed_inside rfl inside
  simp [Session.intervalIsOpen, Property.isOpen, closed]

/-- A list that is the first on the roll can be closed. -/
theorem Tells.finishList (tells : s.Tells o (⟨t, some (.list list), st⟩ :: rest))
    (kept : s.lists.get? list = some l) :
    ∃ s', finishList list l s = .ok () s' ∧ s'.Tells (o.after .leave) rest ∧
      s'.stream.grant = none ∧ ∃ w, w.token? = none ∧ s.Put (.list list) s'.stream w s' := by
  obtain ⟨token, -, active⟩ := tells.turn
  rw [token?_list kept] at token
  obtain ⟨t', rest', items, parts, -, -, -, parts_eq⟩ :=
    tells.head_of_list kept ⟨t, token, active⟩
  obtain ⟨text, run, shows⟩ :=
    IntervalList.finish_ok token active tells.shows (tells.accepts_leave parts_eq)
  obtain ⟨s', answered, put⟩ := onList_ok list run
  refine ⟨s', ?_, tells.leave put shows rfl ⟨(tells.list_regular kept).1, nofun⟩, ?_,
    .list (some { l with token := none, hasCurrent := false }), rfl, put.stream ▸ put⟩
  · change onList list l (IntervalList.finish (s.intervalIsOpen list l)) s = _
    rw [tells.intervalIsOpen, answered]
  · rw [put.stream]
    rfl

theorem Stands.finishList (stands : s.Stands o) (kept : s.lists.get? list = some l) :
    s.Rejects (finishList list l) ∨
      ∃ s', finishList list l s = .ok () s' ∧ s'.Stands (o.after .leave) := by
  obtain ⟨grant, roll, tells⟩ := stands
  by_cases turn : l.HasTurn s.stream
  · obtain ⟨t, rest, items, parts, -, -, rfl, -⟩ := tells.head_of_list kept turn
    obtain ⟨s', answered, told, ungranted, -⟩ := tells.finishList kept
    exact .inr ⟨s', answered, ungranted, rest, told⟩
  · exact .inl (rejects_onList kept (IntervalList.refuses_finish (.inr turn)))

/-! ## Opening an interval -/

/-- The session when the list has made a place for its next interval: the latest one is given up. -/
def awaitsInterval (s : Session) (list : String) (l : IntervalList) (t : Token) : Session :=
  { s.forget (.interval list) with
    stream := s.stream.granting t
    lists := (s.lists.put list l).put list { l with hasCurrent := true } }

theorem Tells.awaitsInterval (tells : s.Tells o roll) (kept : s.lists.get? list = some l)
    (token : l.token = some t) :
    (s.awaitsInterval list l t).Tells o
      (roll.map (Opening.forget (Place.isAt (.interval list)))) := by
  refine Tells.granting (s := { s.forget (.interval list) with
    lists := (s.lists.put list l).put list { l with hasCurrent := true } }) ?_ t
  have told := tells.forget_root (.interval list)
  have here : (s.forget (.interval list)).stateAt (.list list) = .list (some l) :=
    congrArg WriterState.list kept
  refine told.congr rfl rfl ?_ ?_
  · intro q
    cases q with
    | packet | property => rfl
    | list name =>
        by_cases same : list = name
        · subst same
          rw [here]
          simp [stateAt, WriterState.shown?, WriterState.token?, WriterState.standing]
        · simp [stateAt, Session.forget, Table.get?_put_of_ne _ _ same]
  · intro q
    cases q with
    | packet | property => exact told.regular _
    | list name =>
        by_cases same : list = name
        · subst same
          have regular := tells.list_regular kept
          simp [stateAt, WriterState.IsRegular, regular.1, token]
        · have regular := told.regular (.list name)
          simpa [stateAt, Session.forget, Table.get?_put_of_ne _ _ same] using regular

theorem startInterval_ok {stream : Stream} {p : Property}
    (latest : s.intervalIsOpen list l = false) (token : l.token = some t)
    (active : s.stream.active? = some t)
    (run : Property.start ⟨s.stream.granting t, l.template.renewed⟩ = .ok () ⟨stream, p⟩) :
    startInterval list l s = .ok () { s.awaitsInterval list l t with
      stream
      properties := (s.awaitsInterval list l t).properties.put { root := .interval list } p } := by
  let s₁ : Session := { s with stream := s.stream.granting t, lists := s.lists.put list l }
  have ready : onList list l (IntervalList.prepareInterval false) s = .ok () s₁ := by
    rw [onList, IntervalList.prepareInterval_ok token active]
  have made := beside_ok (s := s₁) run
  change (onList list l (IntervalList.prepareInterval (s.intervalIsOpen list l)) >>= _) s = _
  rw [latest, bind_of_ok ready, bind_of_ok made]
  rfl

/-- Each interval of a list is one object in its array. -/
theorem Stands.startInterval (stands : s.Stands o) (kept : s.lists.get? list = some l) :
    s.Rejects (startInterval list l) ∨ ∃ s', startInterval list l s = .ok () s' ∧
      s'.Stands (o.after (.enter (.element l.template.name []))) := by
  obtain ⟨grant, roll, tells⟩ := stands
  by_cases legal : s.intervalIsOpen list l = true ∨ ¬ l.HasTurn s.stream
  · have rejects := rejects_onList kept (IntervalList.refuses_prepareInterval legal)
    exact .inl (rejects.bind _)
  · obtain ⟨latest, turn⟩ : s.intervalIsOpen list l = false ∧ l.HasTurn s.stream := by
      simpa using legal
    obtain ⟨t, rest, items, parts, token, active, rfl, parts_eq⟩ := tells.head_of_list kept turn
    obtain ⟨role, -⟩ := tells.list_regular kept
    have told := tells.awaitsInterval kept token
    let s₁ := s.awaitsInterval list l t
    have part : l.template.renewed.part = .element l.template.name [] := by
      simp only [Property.part, Property.renewed, role]
    have fits : (Part.element l.template.name []).Fits o.parts := by
      simp [parts_eq, Part.Fits]
    have unfinished := told.sound.unfinished parts_eq
    obtain ⟨text, run, shows⟩ := Property.start_ok (p := l.template.renewed) rfl
      (.inr active.symm : s₁.stream.MayOpen) told.shows
      (by rw [part]; exact told.accepts_enter unfinished fits rfl)
    let a : Address := { root := .interval list }
    let element := l.template.renewed.started s.stream.nextToken
    have closed : (s₁.stateAt (.property a)).token? = none := by
      have gone := stateAt_forget s (.interval list) (.property a)
      rw [if_pos (by simp [Place.isAt, a])] at gone
      exact congrArg WriterState.token? gone
    have shown : (WriterState.property element).shown? =
        some (s.stream.nextToken, .property l.template.name .element .object) := by
      simp only [WriterState.shown?, WriterState.token?, WriterState.standing, element,
        Property.started, Property.renewed, Property.part, role]
      rfl
    have told := told.enter (q := .property a) unfinished fits rfl rfl closed (.inl rfl)
      (put_property s₁ a _ element) shows shown fun member => absurd rfl member
    exact .inr ⟨_, startInterval_ok latest token active run, rfl, _, told⟩

/-! ## A list in place of a property -/

/-- The session when a property became a list that is still to be opened. No outline has it so. -/
def yielding (s : Session) (a : Address) (list : String) (t : Token) : Session :=
  forgetList { s with
    stream := s.stream.granting t
    properties := (s.properties.put a (s.propertyAt a)).put a
      { s.propertyAt a with scope := .intervals } } list

theorem startIntervals_ok {stream : Stream} {l' : IntervalList}
    (ready : Property.prepareIntervals ⟨s.stream, s.propertyAt a⟩ =
      .ok () ⟨s.stream.granting t, s.propertyAt a⟩)
    (run : IntervalList.start ⟨s.stream.granting t, .of (s.propertyAt a) content⟩ =
      .ok () ⟨stream, l'⟩) :
    startIntervals a content list s = .ok ()
      { s.yielding a list t with stream, lists := (s.yielding a list t).lists.put list l' } := by
  let s₁ : Session := { s with
    stream := s.stream.granting t
    properties := s.properties.put a (s.propertyAt a) }
  have made := beside_ok (s := s₁) run
  have noted : onProperty a (do Writing.setOwn { ← Writing.getOwn with scope := .intervals })
      { s₁ with stream } = .ok () { s₁ with
        stream
        properties := s₁.properties.put a { s.propertyAt a with scope := .intervals } } := by
    have here : s₁.propertyAt a = s.propertyAt a := by simp [s₁, propertyAt]
    rw [onProperty_eq (w := ⟨stream, { s₁.propertyAt a with scope := .intervals }⟩) rfl, here]
  have lists : (s.yielding a list t).lists.put list l' = s.lists.put list l' :=
    Table.put_without _ _ _
  change (onProperty a Property.prepareIntervals >>= _) s = _
  rw [bind_of_ok (onProperty_eq ready), lists]
  exact (bind_of_ok made _).trans (bind_of_ok noted _)

theorem Tells.yielding (tells : s.Tells o (⟨t, some (.property a), st⟩ :: rest)) (list : String) :
    (s.yielding a list t).Registers
        ((⟨t, some (.property a), st.wrote .intervals⟩ :: rest).map
          (Opening.forget (Place.isOfList list))) ∧
      ∀ q, ((s.yielding a list t).stateAt q).IsRegular q := by
  obtain ⟨token, rfl, -⟩ := tells.turn
  have put := (put_property s a (s.stream.granting t) (s.propertyAt a)).trans
    (put_property _ a (s.stream.granting t) { s.propertyAt a with scope := .intervals })
  have shown : (WriterState.property { s.propertyAt a with scope := .intervals }).shown? =
      some (t, (s.stateAt (.property a)).standing.wrote .intervals) := by
    rw [WriterState.shown?, WriterState.token?,
      show (s.propertyAt a).token = some t from token]
    rfl
  constructor
  · exact (tells.registers.restate put rfl rfl shown).forgetList list
  · intro q
    rw [Session.yielding, stateAt_forgetList]
    split
    · exact isRegular_fresh q
    · exact put.regular tells.regular (tells.regular (.property a)) q

/-- A property in which nothing is written may become a list, whose array stands for it. -/
theorem Tells.startIntervals (tells : s.Tells o roll) (turn : (s.propertyAt a).HasTurn s.stream)
    (scope : (s.propertyAt a).scope = .unopened) (content : Content) (list : String) :
    ∃ s', startIntervals a content list s = .ok () s' ∧
      s'.Stands (o.after (.enter (.list (s.propertyAt a).name []))) := by
  let p := s.propertyAt a
  obtain ⟨t, rest, part, parts, token, active, rfl, parts_eq, standing⟩ := tells.head_of_turn turn
  have shown : (s.stateAt (.property a)).standing = .property p.name p.role .unopened := by
    rw [← scope]
    rfl
  obtain ⟨role, rfl⟩ := Part.eq_nothing_of_standing (standing.trans shown)
  have around : o.around (.list p.name []) = .member p.name (.intervals none) :: parts := by
    simp only [Outline.around, parts_eq]
  have fits : (Part.list p.name []).Fits (o.around (.list p.name [])) := by
    simp [around, Part.Fits]
  have unfinished := tells.sound.unfinished parts_eq
  have granted := tells.granting t
  obtain ⟨text, run, shows⟩ := IntervalList.start_ok (l := .of p content) rfl
    (.inr active.symm : (s.stream.granting t).MayOpen) granted.shows
    (granted.accepts_enter unfinished fits rfl)
  have closed : ((s.yielding a list t).stateAt (.list list)).token? = none := by
    rw [Session.yielding, stateAt_forgetList, if_pos (by simp [Place.isOfList])]
    rfl
  obtain ⟨registers, regular⟩ := tells.yielding list
  have put := put_list (s.yielding a list t) list
    ((s.stream.granting t).drawn text (o.after (.enter (.list p.name []))).draft).opened
    { IntervalList.of p content with token := some s.stream.nextToken }
  have standings := tells.standings
  rw [shown, role, parts_eq, List.map_cons, List.map_cons, List.cons.injEq] at standings
  refine ⟨_, startIntervals_ok (Property.prepareIntervals_ok token active scope) run, rfl, _,
    tells.sound.enter unfinished fits rfl, shows,
    registers.push closed (.inr ⟨_, rfl⟩) put rfl rfl rfl, ?_,
    put.regular regular ⟨rfl, fun current => absurd current Bool.false_ne_true⟩⟩
  rw [List.map_cons, List.map_map, shown, role, Outline.after, around]
  exact congrArg _ (congrArg _ standings.2)

theorem Stands.startIntervals (stands : s.Stands o) (a : Address) (content : Content)
    (list : String) :
    s.Rejects (startIntervals a content list) ∨ ∃ s', startIntervals a content list s = .ok () s' ∧
      s'.Stands (o.after (.enter (.list (s.propertyAt a).name []))) := by
  obtain ⟨-, roll, tells⟩ := stands
  by_cases legal : (s.propertyAt a).HasTurn s.stream ∧ (s.propertyAt a).scope = .unopened
  · exact .inr (tells.startIntervals legal.1 legal.2 content list)
  · exact .inl ((rejects_onProperty (Property.refuses_prepareIntervals legal)).bind _)

end SceneStream.Session
