import SceneStream.Proofs.Session.Barring
import SceneStream.Proofs.Session.Siblings
import SceneStream.Proofs.Session.Intervals

/-!
# Places that are made and not taken

A child, a list or an interval is opened in two steps: its parent makes a place for it, and then its
own writer takes the place. The second step fails where that writer is open already or its first call
is not answered, and then the place is still there, for any writer at all. All other failures come
before the place is made or after it was taken, and leave none.
-/

namespace SceneStream

open Writing

namespace Stream

variable {s s' : Stream} {t : Token}

theorem exists_bars (opened : s.writers ≠ []) (grant : s.grant = none) : ∃ t, s.Bars t := by
  obtain ⟨t, rest, writers⟩ := List.exists_cons_of_ne_nil opened
  exact ⟨t, congrArg List.head? writers, by rw [grant]; nofun⟩

/-- A writer was opened in the stream, inside another one. -/
structure Holds (s s' : Stream) : Prop where
  writers : ∃ t, s'.writers = t :: s.writers
  grant : s'.grant = none

/-- If what was opened inside a writer is closed at most, a writer is open and has made no place. -/
theorem EndsAtMost.exists_bars {s₁ : Stream} (left : s₁.EndsAtMost s') (holds : s.Holds s₁)
    (opened : s.writers ≠ []) : ∃ t, s'.Bars t := by
  obtain ⟨u, chain⟩ := holds.writers
  rcases left with same | ⟨ended, ungranted⟩
  · have busy : s'.writers ≠ [] := by
      rw [same.writers, chain]
      exact List.cons_ne_nil _ _
    exact Stream.exists_bars busy (same.grant.trans holds.grant)
  · refine Stream.exists_bars ?_ ungranted
    rwa [ended, chain, List.tail_cons]

/-- Where the innermost writer has made a place, exactly a first call that is answered takes it. -/
theorem begin_cases (granted : s.grant = s.active?) (c : Call) :
    (∃ s' s'' t, perform c s = .ok () s' ∧ begin c s = .ok t s'' ∧ s.Holds s'') ∨
      ((∀ s', perform c s ≠ .ok () s') ∧ ∃ e s', begin c s = .error e s' ∧ s.SameTurns s') := by
  have free : s.MayOpen := .inr granted
  have like := continues_perform c s
  cases run : perform c s with
  | ok _ s' =>
      rw [behind_of_ok run] at like
      have begun : begin c s = .ok s'.nextToken s'.opened := by
        rw [begin, bind_of_ok (expectCanOpen_ok free), bind_of_ok run]
        exact beginWriter_ok (free.continues like)
      have writers : s'.opened.writers = s'.nextToken :: s.writers :=
        congrArg (s'.nextToken :: ·) like.writers
      exact .inl ⟨s', s'.opened, s'.nextToken, rfl, begun, ⟨s'.nextToken, writers⟩, rfl⟩
  | error e s' =>
      rw [behind_of_error run] at like
      have failed : begin c s = .error e s' := by
        rw [begin, bind_of_ok (expectCanOpen_ok free), bind_of_error run]
      exact .inr ⟨by simp, e, s', failed, like.sameTurns⟩

end Stream

/-- Beginning the object of the parent may fail, but then no place is made yet. -/
theorem Property.sameTurns_of_prepareChild {s : Stream} {p : Property} {e : Error}
    {w : Writing Property} (run : prepareChild ⟨s, p⟩ = .error e w) : s.SameTurns w.stream := by
  have moves := Stream.serves_alone.openScope.moves ⟨s, p⟩
  rcases error_of_bind run with failed | ⟨⟨⟩, w₁, begun, failed⟩
  · rw [behind_of_error failed] at moves
    exact Stream.Continues.sameTurns moves
  · rw [behind_of_ok begun] at moves
    by_cases turn : w₁.own.HasTurn w₁.stream
    · obtain ⟨t, token, active⟩ := turn
      obtain ⟨s₁, p₁⟩ := w₁
      rw [bind_of_ok (opening_ok token), onStream, Stream.grantChild_ok active] at failed
      cases failed
    · obtain ⟨e', -, refused⟩ : Refuses (do onStream (Stream.grantChild (← opening))) w₁ :=
        refuses_opening_bind turn fun t active =>
          refuses_onStream ((Stream.refuses_expectActive active).bind _)
      obtain ⟨-, rfl⟩ := EStateM.Result.error.inj (refused.symm.trans failed)
      exact Stream.Continues.sameTurns moves

/-- The operation takes a place on the stream with this first call, unless the place is for a writer
that is open already or the call is not answered. -/
def TakesPlace {σ α : Type} (stream : σ → Stream) (opened : Bool) (first : Call)
    (op : EStateM Error σ α) (s : σ) : Prop :=
  ((opened = false ∧ ∃ s', Stream.perform first (stream s) = .ok () s') ∧
      ∃ a s', op s = .ok a s' ∧ (stream s).Holds (stream s')) ∨
    ((opened = true ∨ ∀ s', Stream.perform first (stream s) ≠ .ok () s') ∧
      ∃ e s', op s = .error e s' ∧ (stream s).SameTurns (stream s'))

section

variable {s : Stream} {ω : Type} {own : ω}

theorem takesPlace_begin {f : Token → ω} {first : Call} (granted : s.grant = s.active?) :
    TakesPlace Writing.stream false first
      (do setOwn (f (← onStream (Stream.begin first))) : WriterM ω Unit) ⟨s, own⟩ := by
  rcases Stream.begin_cases granted first with ⟨s', s'', t, answered, run, holds⟩ |
    ⟨unanswered, e, s', run, same⟩
  · refine .inl ⟨⟨rfl, s', answered⟩, (), ⟨s'', f t⟩, ?_, holds⟩
    rw [bind_apply, onStream, run]
    rfl
  · refine .inr ⟨.inr unanswered, e, ⟨s', own⟩, ?_, same⟩
    rw [bind_apply, onStream, run]

theorem Property.takesPlace_start (granted : s.grant = s.active?) (p : Property) :
    TakesPlace Writing.stream p.isOpen p.firstCall start ⟨s, p⟩ := by
  cases token : p.token with
  | some t =>
      obtain ⟨e, -, refused⟩ : Refuses start ⟨s, p⟩ :=
        refuses_start_of_begin (.inl (by rw [token]; nofun))
      exact .inr ⟨.inl (by rw [isOpen, token]; rfl), e, _, refused, .refl s⟩
  | none =>
      rw [TakesPlace, start_apply token, isOpen, token]
      exact takesPlace_begin granted

theorem IntervalList.takesPlace_start (granted : s.grant = s.active?) {l : IntervalList}
    (closed : l.token = none) : TakesPlace Writing.stream false .startSequence start ⟨s, l⟩ := by
  rw [TakesPlace, start_apply closed]
  exact takesPlace_begin (f := fun t => { l with token := some t }) granted

end

/-- A reference is read before anything else happens. -/
def ParentCommand.isReadable : ParentCommand → Bool
  | .referChild _ source => source.resolve.isOk
  | .startChild _ | .writeChild .. | .writeImage .. => true

namespace Session

variable {s s' : Session} {c : Command} {cs : List Command} {q outer : Place} {a : Address}
  {h : Handle} {t : Token} {call : SessionM Reply}

theorem takesPlace_onProperty {op : PropertyM Unit} {opened : Bool} {first : Call}
    (takes : TakesPlace Writing.stream opened first op ⟨s.stream, s.propertyAt a⟩) :
    TakesPlace Session.stream opened first (onProperty a op) s := by
  rcases takes with ⟨ready, x, w, run, holds⟩ | ⟨unready, e, w, run, same⟩
  · exact .inl ⟨ready, x, _, by rw [onProperty, run], holds⟩
  · exact .inr ⟨unready, e, _, by rw [onProperty, run], same⟩

theorem takesPlace_beside {ω : Type} {own : ω} {op : WriterM ω Unit} {opened : Bool} {first : Call}
    (takes : TakesPlace Writing.stream opened first op ⟨s.stream, own⟩) :
    TakesPlace Session.stream opened first (beside own op) s := by
  rcases takes with ⟨ready, x, w, run, holds⟩ | ⟨unready, e, w, run, same⟩
  · exact .inl ⟨ready, w.own, _, by rw [beside, run], holds⟩
  · exact .inr ⟨unready, e, _, by rw [beside, run], same⟩

/-! ## Opening a writer inside another one -/

/-- How a command opens a writer inside another one: what makes the place, whether the writer for it
is open already, and the call with which that writer begins. -/
structure Admission where
  make : SessionM Unit
  opened : Bool
  first : Call

def admission? (s : Session) : Command → Option Admission
  | .parent a c => do
    let h ← s.handle? a
    let child := s.propertyAt (a.child c.child)
    if c.isReadable then
      return { make := prepareChild h, opened := child.isOpen, first := child.firstCall }
    else none
  | .property a (.startIntervals _) =>
    some {
      make := onProperty a Property.prepareIntervals, opened := false, first := .startSequence }
  | .list list .startInterval => do
    let l ← s.lists.get? list
    return {
      make := onList list l (IntervalList.prepareInterval (s.intervalIsOpen list l))
      opened := false
      first := l.template.firstCall }
  | _ => none

/-- The place was made and not taken: the writer is open already, or its first call fails. -/
def Forsakes (s : Session) (c : Command) : Prop :=
  ∃ p ∈ s.admission? c, ∃ s₁, p.make s = .ok () s₁ ∧
    (p.opened = true ∨ ∀ stream, Stream.perform p.first s₁.stream ≠ .ok () stream)

/-- What is left of a command that opens a writer inside this one and fails: the place that was made
and not taken, or no place but one that was there before. -/
def LeavesTurns (s : Session) (c : Command) (outer : Place) (s' : Session) : Prop :=
  s.Forsakes c ∧ s.HasTurn outer ∧ s'.stream.writers = s.stream.writers ∧
      s'.stream.grant = s.stream.active? ∨
    ¬ s.Forsakes c ∧ (s.stream.SameTurns s'.stream ∨ ∃ t, s'.stream.Bars t)

/-- The operation makes a place in this writer, or leaves the turns as they are. -/
structure MakesPlace (s : Session) (outer : Place) (op : SessionM Unit) : Prop where
  unmade : ∀ e s₁, op s = .error e s₁ → s.stream.SameTurns s₁.stream
  turn : ∀ s₁, op s = .ok () s₁ → s.HasTurn outer
  writers : ∀ s₁, op s = .ok () s₁ → s₁.stream.writers = s.stream.writers
  grant : ∀ s₁, op s = .ok () s₁ → s₁.stream.grant = s.stream.active?

theorem makesPlace_of_rejects {op : SessionM Unit} (rejects : s.Rejects op) :
    s.MakesPlace outer op := by
  obtain ⟨e, s₁, -, run, agrees⟩ := rejects
  have never (s₂ : Session) (other : op s = .ok () s₂) : False := by cases run.symm.trans other
  refine ⟨fun e' s₂ other => ?_, fun s₂ other => (never s₂ other).elim,
    fun s₂ other => (never s₂ other).elim, fun s₂ other => (never s₂ other).elim⟩
  obtain ⟨-, rfl⟩ := EStateM.Result.error.inj (run.symm.trans other)
  rw [agrees.stream]
  exact .refl _

theorem makesPlace_of_granting {op : SessionM Unit} {s₁ : Session} (turn : s.HasTurn outer)
    (active : s.stream.active? = some t) (run : op s = .ok () s₁)
    (granted : s₁.stream = s.stream.granting t) : s.MakesPlace outer op where
  unmade e s₂ failed := by cases run.symm.trans failed
  turn _ _ := turn
  writers s₂ made := by
    obtain rfl := (EStateM.Result.ok.inj (run.symm.trans made)).2
    rw [granted]
    rfl
  grant s₂ made := by
    obtain rfl := (EStateM.Result.ok.inj (run.symm.trans made)).2
    rw [granted, active]
    rfl

theorem sameTurns_of_prepareChild {e : Error} (run : prepareChild h s = .error e s') :
    s.stream.SameTurns s'.stream := by
  obtain ⟨address, shape⟩ := h
  cases shape with
  | packet =>
      by_cases turn : (s.packetAt address.root).HasTurn s.stream
      · obtain ⟨t, token, active⟩ := turn
        cases (onPacket_eq (Packet.prepareChild_ok token active)).symm.trans run
      · obtain ⟨e', s₁, -, refused, agrees⟩ : s.Rejects (prepareChild ⟨address, .packet⟩) :=
          rejects_onPacket (Packet.refuses_prepareChild turn)
        obtain ⟨-, rfl⟩ := EStateM.Result.error.inj (refused.symm.trans run)
        rw [agrees.stream]
        exact .refl _
  | property content =>
      change onProperty address Property.prepareChild s = .error e s' at run
      have left := stream_behind_onProperty (a := address) Property.prepareChild s
      rw [behind_of_error run] at left
      cases failed : Property.prepareChild ⟨s.stream, s.propertyAt address⟩ with
      | ok _ w =>
          rw [onProperty, failed] at run
          cases run
      | error e' w =>
          rw [left, behind_of_error failed]
          exact Property.sameTurns_of_prepareChild failed

theorem makesPlace_prepareChild : s.MakesPlace h.place (prepareChild h) where
  unmade e s₁ run := sameTurns_of_prepareChild run
  turn s₁ run := by
    by_contra away
    obtain ⟨e, s₂, -, refused, -⟩ := rejects_prepareChild away
    cases refused.symm.trans run
  writers s₁ run := (grants_of_prepareChild run).writers
  grant s₁ run := by
    have made := grants_of_prepareChild run
    rw [made.grant, Stream.active?, made.writers]
    rfl

theorem makesPlace_prepareIntervals :
    s.MakesPlace (.property a) (onProperty a Property.prepareIntervals) := by
  by_cases legal : (s.propertyAt a).HasTurn s.stream ∧ (s.propertyAt a).scope = .unopened
  · obtain ⟨⟨t, token, active⟩, scope⟩ := legal
    have run := onProperty_eq (Property.prepareIntervals_ok token active scope)
    exact makesPlace_of_granting ⟨t, token, active⟩ active run rfl
  · exact makesPlace_of_rejects (rejects_onProperty (Property.refuses_prepareIntervals legal))

theorem makesPlace_prepareInterval {list : String} {l : IntervalList} (current : Bool)
    (kept : s.lists.get? list = some l) :
    s.MakesPlace (.list list) (onList list l (IntervalList.prepareInterval current)) := by
  by_cases illegal : current = true ∨ ¬ l.HasTurn s.stream
  · exact makesPlace_of_rejects (rejects_onList kept (IntervalList.refuses_prepareInterval illegal))
  · obtain ⟨rfl, t, token, active⟩ : current = false ∧ l.HasTurn s.stream := by simpa using illegal
    obtain ⟨s₁, run, put⟩ := onList_ok list (IntervalList.prepareInterval_ok token active)
    exact makesPlace_of_granting ⟨t, (token?_list kept).trans token, active⟩ active run put.stream

theorem forsakes_iff {p : Admission} {s₁ : Session} (admitted : s.admission? c = some p)
    (made : p.make s = .ok () s₁) : s.Forsakes c ↔
      (p.opened = true ∨ ∀ stream, Stream.perform p.first s₁.stream ≠ .ok () stream) := by
  constructor
  · rintro ⟨p', admitted', s₂, made', forsaken⟩
    obtain rfl := Option.some.inj (admitted.symm.trans admitted')
    obtain rfl := (EStateM.Result.ok.inj (made.symm.trans made')).2
    exact forsaken
  · exact fun forsaken => ⟨p, admitted, s₁, made, forsaken⟩

theorem not_forsakes_of_error {p : Admission} {e : Error} (admitted : s.admission? c = some p)
    (unmade : p.make s = .error e s') : ¬ s.Forsakes c := by
  rintro ⟨p', admitted', s₂, made, -⟩
  obtain rfl := Option.some.inj (admitted.symm.trans admitted')
  cases unmade.symm.trans made

/-- Opening a writer inside another one comes to what can come of its two steps, and then of what is
done with the writer that was opened. -/
theorem leavesTurns_of_takesPlace {α β : Type} {p : Admission} {op : SessionM α}
    {f : α → SessionM β} {e : Error} (admitted : s.admission? c = some p)
    (makes : s.MakesPlace outer p.make)
    (takes : ∀ s₁, p.make s = .ok () s₁ → s₁.stream.grant = s₁.stream.active? →
      TakesPlace Session.stream p.opened p.first op s₁)
    (ends : ∀ x (s₂ : Session), s₂.stream.EndsAtMost (behind (f x) s₂).stream)
    (failed : (do p.make; f (← op)) s = .error e s') : s.LeavesTurns c outer s' := by
  rcases error_of_bind failed with unmade | ⟨⟨⟩, s₁, made, failed⟩
  · exact .inr ⟨not_forsakes_of_error admitted unmade, .inl (makes.unmade e s' unmade)⟩
  have writers := makes.writers s₁ made
  have grant := makes.grant s₁ made
  have turn := makes.turn s₁ made
  have active : s₁.stream.active? = s.stream.active? := congrArg List.head? writers
  rcases takes s₁ made (grant.trans active.symm) with
    ⟨⟨closed, stream, answered⟩, x, s₂, taken, holds⟩ | ⟨forsaken, e', s₂, untaken, same⟩
  · rw [bind_of_ok taken] at failed
    have left := ends x s₂
    rw [behind_of_error failed] at left
    refine .inr ⟨?_, .inr (left.exists_bars holds ?_)⟩
    · rw [forsakes_iff admitted made, closed]
      rintro (⟨⟨⟩⟩ | unanswered)
      exact unanswered stream answered
    · obtain ⟨t, -, innermost⟩ := turn
      rw [writers]
      exact List.ne_nil_of_mem (List.mem_of_mem_head? innermost)
  · rw [bind_of_error untaken] at failed
    obtain ⟨rfl, rfl⟩ := EStateM.Result.error.inj failed
    exact .inl ⟨(forsakes_iff admitted made).mpr forsaken, turn, same.writers.trans writers,
      same.grant.trans grant⟩

/-- A command that makes no place and fails leaves the turns as they are. -/
theorem leavesTurns_of_none {e : Error} (unadmitted : s.admission? c = none)
    (called : s.operation? c = some call) (rejects : s.Rejects call)
    (failed : s.step c = (.refused e, s')) : s.LeavesTurns c outer s' := by
  refine .inr ⟨?_, .inl ?_⟩
  · rintro ⟨p, admitted, -⟩
    cases unadmitted.symm.trans admitted
  · have same := rejects.sameTurns
    rwa [← behind_of_operation? called, failed] at same

/-- A child that is opened in its parent, and then perhaps written and closed. -/
theorem leavesTurns_of_startChild {child : Handle} {content : Content} {c : ParentCommand}
    {f : Unit → SessionM Unit} {e : Error} (found : s.handle? a = some h)
    (member : member? h c.child = some (child, content)) (readable : c.isReadable = true)
    (ends : ∀ x (s₂ : Session), s₂.stream.EndsAtMost (behind (f x) s₂).stream)
    (failed : (do prepareChild h; f (← start child)) s = .error e s') :
    s.LeavesTurns (.parent a c) h.place s' := by
  have isChild := isChild_of_member? found member
  have address : child.address = a.child c.child := by
    rw [isChild.address, (place_of_handle? found).1]
  have admitted : s.admission? (.parent a c) = some {
      make := prepareChild h
      opened := (s.propertyAt child.address).isOpen
      first := (s.propertyAt child.address).firstCall } := by
    simp only [admission?, found, Option.bind_eq_bind, Option.bind_some, readable, if_true, address]
    rfl
  refine leavesTurns_of_takesPlace admitted makesPlace_prepareChild ?_ ends failed
  intro s₁ made granted
  have same : s₁.propertyAt child.address = s.propertyAt child.address := by
    have touched := (touches_prepareChild (P := (· = h.place)) (D := fun _ => False) rfl).of_ok made
    have place : child.place = .property child.address := by rw [isChild.place, isChild.address]
    have kept := touched.elsewhere child.place isChild.place_ne
    rw [place] at kept
    exact WriterState.property.inj kept
  obtain ⟨content', shape⟩ := isChild.property
  obtain ⟨address, shape⟩ := child
  subst shape
  rw [← same]
  exact takesPlace_onProperty (Property.takesPlace_start granted _)

theorem leavesTurns_parent {c : ParentCommand} {e : Error}
    (failed : s.step (.parent a c) = (.refused e, s')) :
    s.LeavesTurns (.parent a c) (s.placeAt a) s' := by
  obtain ⟨call, called, run⟩ := run_of_refused failed
  obtain ⟨h, found, made⟩ := Option.bind_eq_some_iff.mp called
  rw [← (place_of_handle? found).2]
  have written {child : Handle} {content : Content} {op : PropertyM Unit}
      (member : member? h c.child = some (child, content)) (readable : c.isReadable = true)
      (follows : ((Comparison.alone Stream.Continues).writing Property).Follows op)
      (run : writeChild h child op s = .error e s') : s.LeavesTurns (.parent a c) h.place s' := by
    refine leavesTurns_of_startChild (e := e)
      (f := fun _ => closing child (onProperty child.address op)) found member readable
      (fun _ => endsAtMost_closing follows child) ?_
    rwa [writeChild, startChild, bind_assoc] at run
  cases c with
  | startChild name =>
      obtain ⟨⟨child, content⟩, member, ⟨⟩⟩ := Option.bind_eq_some_iff.mp made
      refine leavesTurns_of_startChild (e := e) (f := pure) found member rfl
        (fun _ s₂ => .inl (.refl _)) ?_
      simpa only [startChild, bind_pure] using error_of_doing run
  | writeChild name k e b =>
      obtain ⟨⟨child, content⟩, member, made⟩ := Option.bind_eq_some_iff.mp made
      obtain ⟨-, ⟨⟩⟩ := Option.ite_none_right_eq_some.mp made
      exact written member rfl (Stream.serves_alone.write (.inr fun _ _ => trivial))
        (error_of_doing run)
  | referChild name source =>
      obtain ⟨⟨child, content⟩, member, made⟩ := Option.bind_eq_some_iff.mp made
      cases content with
      | composite => cases made
      | value k =>
          obtain rfl := Option.some.inj made
          cases resolved : source.resolve with
          | ok r =>
              have run := error_of_doing run
              rw [referChild, resolved] at run
              exact written member (by rw [ParentCommand.isReadable, resolved]; rfl)
                (Stream.serves_alone.write (.inr fun _ _ => trivial)) run
          | error e' =>
              have unadmitted : s.admission? (.parent a (.referChild name source)) = none := by
                simp [admission?, found, ParentCommand.isReadable, resolved, Except.isOk,
                  Except.toBool]
              refine leavesTurns_of_none unadmitted called (Rejects.bind ?_ _) failed
              rw [referChild, resolved]
              exact ⟨e', s, Reference.isRefusal_resolve resolved, rfl, .refl s⟩
  | writeImage u resolver =>
      obtain ⟨-, made⟩ := Option.ite_none_right_eq_some.mp made
      obtain ⟨⟨child, content⟩, member, ⟨⟩⟩ := Option.bind_eq_some_iff.mp made
      exact written member rfl (Stream.serves_alone.writeLiteral fun _ _ => trivial)
        (error_of_doing run)

theorem leavesTurns_startIntervals {list : String} {e : Error}
    (failed : s.step (.property a (.startIntervals list)) = (.refused e, s')) :
    s.LeavesTurns (.property a (.startIntervals list)) (.property a) s' := by
  obtain ⟨call, called, run⟩ := run_of_refused failed
  obtain ⟨content, rfl⟩ := onContent_of_operation? called
  refine leavesTurns_of_takesPlace rfl makesPlace_prepareIntervals ?_ ?_ (error_of_doing run)
  · intro s₁ made granted
    exact takesPlace_beside (IntervalList.takesPlace_start granted rfl)
  · intro l s₂
    exact .inl (.refl _)

theorem leavesTurns_startInterval {list : String} {e : Error}
    (failed : s.step (.list list .startInterval) = (.refused e, s')) :
    s.LeavesTurns (.list list .startInterval) (.list list) s' := by
  obtain ⟨call, called, run⟩ := run_of_refused failed
  obtain ⟨l, kept, ⟨⟩⟩ := Option.bind_eq_some_iff.mp called
  have admitted : s.admission? (.list list .startInterval) = some {
      make := onList list l (IntervalList.prepareInterval (s.intervalIsOpen list l))
      opened := l.template.renewed.isOpen
      first := l.template.renewed.firstCall } := by
    simp only [admission?, kept]
    rfl
  refine leavesTurns_of_takesPlace admitted (makesPlace_prepareInterval _ kept) ?_ ?_
    (error_of_doing run)
  · intro s₁ made granted
    exact takesPlace_beside (Property.takesPlace_start granted l.template.renewed)
  · intro element s₂
    exact .inl (.refl _)

/-- Whatever fails of opening a writer inside another one leaves the turns so. -/
theorem leavesTurns_of_refused {e : Error} (opening : s.opening? c = some (some outer, q))
    (failed : s.step c = (.refused e, s')) : s.LeavesTurns c outer s' := by
  cases c with
  | document c => cases c <;> cases opening
  | writer a c => cases c <;> cases opening
  | parent a c =>
      cases opening
      exact leavesTurns_parent failed
  | property a c =>
      cases c <;> cases opening
      exact leavesTurns_startIntervals failed
  | list list c =>
      cases c <;> cases opening
      exact leavesTurns_startInterval failed
  | make | packet | value | stream => cases opening

/-! ## Runs -/

/-- What holds of places in a session. -/
structure GuardsPlaces (s : Session) : Prop where
  /-- Of what fails, nothing leaves a place but what made one that was not taken. -/
  leaves : ∀ c outer q e s', s.opening? c = some (some outer, q) → s.step c = (.refused e, s') →
    s.LeavesTurns c outer s'
  /-- Where no place was made and not taken, a failure lets nobody in who was kept out before. -/
  keepsOut : ∀ c outer q e s' t, s.opening? c = some (some outer, q) →
    s.step c = (.refused e, s') → ¬ s.Forsakes c → s.stream.Bars t → ∃ u, s'.stream.Bars u
  /-- Without a place, nothing is opened but through the innermost writer, whatever is done, until
  that one makes a place or is closed. -/
  bars : ∀ t cs, s.stream.Bars t → LeavesUngranted t s cs →
    (∀ c, (s.run cs).StraysIn c → (s.run cs).Declines c) ∨
      ∃ done rest, cs = done ++ rest ∧ (s.run done).stream.writers = s.stream.writers.tail

theorem guardsPlaces (s : Session) : s.GuardsPlaces where
  leaves c outer q e s' opening failed := leavesTurns_of_refused opening failed
  keepsOut c outer q e s' t opening failed taken bars := by
    rcases leavesTurns_of_refused opening failed with ⟨forsaken, -⟩ | ⟨-, same | left⟩
    · exact absurd forsaken taken
    · exact ⟨t, bars.congr same⟩
    · exact left
  bars t cs bars ungranted := by
    rcases bars_run bars ungranted with kept | ended
    · exact .inl fun c strays => declines_of_bars kept strays
    · exact .inr ended

/-- However a session began and whatever was done in it, a place is left behind only where it was made
and not taken; and if writers alone did it all and no sink failed, none is left behind. -/
theorem guardsPlaces_run {document : Bool} {sink : Sink} {settings : Settings} {s₀ : Session}
    (begun : new document sink settings = .ok s₀) (cs : List Command) :
    (s₀.run cs).GuardsPlaces ∧
      (sink = {} → (∀ c ∈ cs, c.isWriting = true) → (s₀.run cs).stream.grant = none) := by
  refine ⟨guardsPlaces _, ?_⟩
  rintro rfl writing
  obtain ⟨ungranted, -⟩ := (stands_of_new begun).run writing
  exact ungranted

/-- A child that is refused, since a name in its packet waits for a value; and a packet of its own. -/
def refusedChild : List Command :=
  [.document .openPacket, .stream (.name "x"),
    .parent { root := .document } (.startChild "rectangle"), .make "p" .packet ""]

theorem guardsPlaces_run_refusedChild :
    let child : Command := .parent { root := .document } (.startChild "rectangle")
    let s := (newDocument {}).run (refusedChild.take 2)
    let failed := s.step child
    new true {} {} = .ok (newDocument {}) ∧ s.GuardsPlaces ∧
      failed.1.error? = some (.invalidOperation (.unansweredName "rectangle")) ∧
      s.LeavesTurns child (.packet .document) failed.2 ∧
      (∀ c ∈ refusedChild.take 1, c.isWriting = true) ∧
      ((newDocument {}).run (refusedChild.take 1)).stream.grant = none := by
  intro child s failed
  have begun : new true {} {} = .ok (newDocument {}) := rfl
  have guards : s.GuardsPlaces := (guardsPlaces_run begun (refusedChild.take 2)).1
  have refused : failed.1.error? = some (.invalidOperation (.unansweredName "rectangle")) := by
    decide +kernel
  have left := guards.leaves child (.packet .document) _ _ failed.2 rfl (step_of_error? refused)
  have writing : ∀ c ∈ refusedChild.take 1, c.isWriting = true := by decide
  exact ⟨begun, guards, refused, left, writing,
    (guardsPlaces_run begun (refusedChild.take 1)).2 rfl writing⟩

/-- A packet is not opened beside another one that is open, but it is behind a child that was refused
there. -/
theorem answers_start_of_refusedChild :
    let child : Command := .parent { root := .document } (.startChild "rectangle")
    let stray : Command := .writer { root := .slot "p" } .start
    let before := (newDocument {}).run (refusedChild.take 2)
    (before.step (.make "p" .packet "")).2.answers stray = false ∧ before.answers child = false ∧
      ((newDocument {}).run refusedChild).answers stray = true :=
  ⟨by decide +kernel, by decide +kernel, by decide +kernel⟩

end Session

end SceneStream
