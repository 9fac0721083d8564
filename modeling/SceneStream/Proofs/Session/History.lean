import SceneStream.Proofs.Session.Openings
import SceneStream.Proofs.Session.Refusal

/-!
# What was written since a property was opened

A property keeps no account of what was written to it, only what decides on what may follow. The
account is drawn up here, from the commands of a run and from whether each took effect: a command that
opens the property begins it anew, and one that writes through the property adds a note. It does not
look at what the property keeps, which is then read off the notes.
-/

namespace SceneStream

/-- What was written to a property. -/
inductive Note where
  /-- A value, in place of an object or inside it. -/
  | value (alone : Bool)
  | interval
  /-- An array of intervals in place of the property. -/
  | list
  /-- Anything else inside the object, be it only the bracket it begins with. -/
  | entry
  deriving DecidableEq, Repr

namespace Note

def isValue : Note → Bool
  | value _ => true
  | interval | list | entry => false

/-- What a property holds once this is written. -/
def scope : Note → Property.Scope
  | value alone => if alone then .bare else .object
  | list => .intervals
  | interval | entry => .object

/-- Whether what was written is neither a bare value nor an array of intervals. -/
def TakesMore (notes : List Note) : Prop := .value true ∉ notes ∧ .list ∉ notes

end Note

/-- What a property in this role holds once these are written to it. -/
def Property.Role.scopeAfter (role : Property.Role) (notes : List Note) : Property.Scope :=
  if .list ∈ notes then .intervals
  else if .value true ∈ notes then .bare
  else if notes = [] ∧ role = .member then .unopened
  else .object

/-- Whether a value may stand for the whole property: a literal of a simple kind in its usual
encoding. -/
def ValueCommand.isPlain : ValueCommand → Bool
  | .write k e (.literal _) => k.isBare && e = k.standard
  | .resolved .. => true
  | .write .. | .samples .. | .window .. | .reference _ | .algorithm _ | .degree _ => false

namespace Session

/-- Whether a command was answered, or was refused when a child was open already. -/
def takesEffect (s : Session) (c : Command) : Bool :=
  match (s.step c).1 with
  | .answered _ => true
  | .refused _ => s.opensChild c
  | .misdirected => false

/-- Whether a value stands alone in a property to which these were written: nothing came before it,
and the property is the member itself and is not set to be an object. -/
def standsAlone (s : Session) (a : Address) (notes : List Note) (c : ValueCommand) : Bool :=
  c.isPlain && !(s.propertyAt a).forceObject && notes = [] && (s.propertyAt a).role = .member

/-- What a command writes through its property. -/
def note? (s : Session) (a : Address) (notes : List Note) : Command → Option Note
  | .value _ c => some (if c.isValue then .value (s.standsAlone a notes c) else .entry)
  | .property _ (.interval _) => some .interval
  | .property _ (.startIntervals _) => some .list
  | .property _ (.delete _) | .property _ .openScope | .parent .. => some .entry
  | _ => none

/-- The notes of a property after one more command, the latest first. -/
def noted (s : Session) (a : Address) (notes : List Note) (c : Command) : List Note :=
  if s.takesEffect c = false then notes
  else if (s.opening? c).map Prod.snd = some (.property a) then []
  else if s.writerOf? c = some (.property a) then (s.note? a notes c).toList ++ notes
  else notes

/-- What was written to the property at an address since it was last opened. -/
def history (s : Session) (a : Address) (notes : List Note) : List Command → List Note
  | [] => notes
  | c :: cs => (s.step c).2.history a (s.noted a notes c) cs

end Session

/-! ## What a property keeps of it -/

/-- What a property keeps agrees with what was written to it. -/
structure Property.Recalls (p : Property) (notes : List Note) : Prop where
  value : p.valueWritten = true ↔ ∃ alone, .value alone ∈ notes
  interval : p.intervalWritten = true ↔ .interval ∈ notes
  scope : p.scope = p.role.scopeAfter notes

namespace Property

variable {p p' : Property} {notes : List Note}

theorem recalls_started (p : Property) (t : Token) : (p.started t).Recalls [] where
  value := by simp [started]
  interval := by simp [started]
  scope := by
    have role : (p.started t).role = p.role := rfl
    rw [role, started, part]
    cases p.role <;> rfl

namespace Recalls

theorem takesMore_iff (recalls : p.Recalls notes) :
    p.scope = .unopened ∨ p.scope = .object ↔ Note.TakesMore notes := by
  rw [recalls.scope, Role.scopeAfter, Note.TakesMore]
  split_ifs <;> simp_all

theorem unopened_iff (recalls : p.Recalls notes) :
    p.scope = .unopened ↔ notes = [] ∧ p.role = .member := by
  rw [recalls.scope, Role.scopeAfter]
  split_ifs with list bare first
  · simp only [false_iff]
    rintro ⟨rfl, -⟩
    cases list
  · simp only [false_iff]
    rintro ⟨rfl, -⟩
    cases bare
  · simpa using first
  · simpa using first

/-- One more note. -/
theorem add (recalls : p.Recalls notes) (takes : p.scope = .unopened ∨ p.scope = .object) (n : Note)
    (role : p'.role = p.role) (value : p'.valueWritten = (p.valueWritten || n.isValue))
    (interval : p'.intervalWritten = (p.intervalWritten || n = .interval))
    (scope : p'.scope = n.scope) : p'.Recalls (n :: notes) where
  value := by
    rw [value, Bool.or_eq_true, recalls.value]
    cases n <;> simp [Note.isValue]
  interval := by
    rw [interval, Bool.or_eq_true, recalls.interval]
    cases n <;> simp
  scope := by
    obtain ⟨bare, list⟩ := recalls.takesMore_iff.mp takes
    rw [scope, role, Role.scopeAfter]
    rcases n with (_ | _) | _ | _ | _ <;> simp [Note.scope, bare, list]

theorem addEntry (recalls : p.Recalls notes) (takes : p.scope = .unopened ∨ p.scope = .object) :
    Recalls { p with scope := .object } (.entry :: notes) :=
  recalls.add takes .entry rfl (Bool.or_false _).symm (by simp) rfl

theorem set (recalls : p.Recalls notes) (force : Bool) :
    Recalls { p with forceObject := force } notes :=
  ⟨recalls.value, recalls.interval, recalls.scope⟩

end Recalls

end Property

/-- A value becomes bare in a property that has nothing yet and is not set to be an object, if it may
stand alone at all. -/
theorem ValueCommand.scope_toWrite (c : ValueCommand) (settings : Settings) (force : Bool)
    (scope : Property.Scope) :
    ((c.toWrite settings force).entry scope).scope =
      if c.isPlain && !force && scope = .unopened then .bare else .object := by
  have literal (k : Kind) (e : k.Encoding) (v : k.Value) :
      ((Write.ofLiteral force k e v).entry scope).scope =
        if (k.isBare && e = k.standard) && !force && scope = .unopened then .bare else .object := by
    simp only [Write.ofLiteral, Write.entry]
    split_ifs <;> simp_all [Entry.scope]
  cases c with
  | write k e b =>
      cases b with
      | literal v => exact literal k e v
      | samples | reference => rfl
  | samples k dates values =>
      cases built : TimeSeries.of dates values <;> simp only [toWrite, built] <;> rfl
  | window k dates values start length =>
      cases built : (do (← TimeSeries.of dates values).slice start length) <;>
        simp only [toWrite, built] <;> rfl
  | reference source =>
      cases resolved : source.resolve <;> simp only [toWrite, resolved] <;> rfl
  | resolved u resolver => exact literal .uri () (u.resolve resolver)
  | algorithm | degree => rfl

/-- A value command is noted as what it makes of the property. -/
theorem Property.Recalls.addValue {p : Property} {notes : List Note} (recalls : p.Recalls notes)
    (takes : p.scope = .unopened ∨ p.scope = .object) (c : ValueCommand) (settings : Settings) :
    (if c.isValue then p.valued (c.toWrite settings p.forceObject)
      else { p with scope := .object }).Recalls
      ((if c.isValue then .value (c.isPlain && !p.forceObject && notes = [] && p.role = .member)
        else .entry) :: notes) := by
  cases isValue : c.isValue with
  | false => exact recalls.addEntry takes
  | true =>
      refine recalls.add takes _ rfl (Bool.or_true _).symm (by simp [valued]) ?_
      have unopened := recalls.unopened_iff
      simp only [if_true, valued, c.scope_toWrite, Note.scope]
      congr 1
      simp only [Bool.and_eq_true, decide_eq_true_eq, unopened, and_assoc]

namespace Session

variable {s : Session} {o : Outline} {c : Command} {cs : List Command} {a b : Address}
  {notes : List Note} {op : PropertyM Unit} {legal : Prop} {w : Write} {p' : Property}

/-! ## One command -/

theorem answers_of_adds (stands : s.Stands o)
    (adds : Property.Adds s.stream (s.propertyAt a) op legal w p')
    (called : s.operation? c = some (doing (onProperty a op))) : s.answers c = true ↔ legal := by
  rw [answers_of_doing called]
  by_cases ok : legal
  · obtain ⟨-, roll, tells⟩ := stands
    obtain ⟨s', t, st, rest, run, -⟩ := tells.onProperty adds ok
    simp [succeeds_of_ok run, ok]
  · obtain ⟨e, s', -, run, -⟩ := rejects_onProperty (adds.refuses ok)
    simp [succeeds_of_error run, ok]

/-- An answered write was made to a property that takes entries, and leaves what it makes of it. -/
theorem propertyAt_of_adds (stands : s.Stands o)
    (adds : Property.Adds s.stream (s.propertyAt a) op legal w p')
    (called : s.operation? c = some (doing (onProperty a op))) (answered : s.answers c = true) :
    (s.propertyAt a).TakesEntries s.stream ∧ (s.step c).2.propertyAt a = p' := by
  have ok := (answers_of_adds stands adds called).mp answered
  obtain ⟨-, roll, tells⟩ := stands
  obtain ⟨s', t, st, rest, run, -, -, left⟩ := tells.onProperty adds ok
  refine ⟨adds.takes ok, ?_⟩
  rw [step_of_ok called (doing_ok run), left]

/-- What takes no effect leaves every writer as it was. -/
theorem stateAt_of_not_takesEffect (stands : s.Stands o) (writing : c.isWriting = true)
    (nothing : s.takesEffect c = false) (q : Place) : (s.step c).2.stateAt q = s.stateAt q := by
  cases stands.turnout writing with
  | misdirected step => rw [step]
  | answered reply s' step =>
      rw [takesEffect, step] at nothing
      cases nothing
  | rejected e s' step refusal whole agrees =>
      rw [step, agrees.states]
      unfold surrender
      split <;> rfl
  | emptied b p h child content e s' command found member step refusal opens =>
      rw [takesEffect, step, opens] at nothing
      cases nothing

/-- What takes effect and opens no child on the way is answered. -/
theorem answers_of_takesEffect (effect : s.takesEffect c = true) (whole : s.opensChild c = false) :
    s.answers c = true := by
  cases outcome : (s.step c).1 with
  | answered reply => simp [answers, outcome]
  | refused e => simp [takesEffect, outcome, whole] at effect
  | misdirected => simp [takesEffect, outcome] at effect

/-- A command about a child that takes effect has the child opened. -/
theorem leavesChild_of_takesEffect (stands : s.Stands o) {c : ParentCommand}
    (effect : s.takesEffect (.parent b c) = true) :
    ∃ h child content, s.handle? b = some h ∧ member? h c.child = some (child, content) ∧
      s.LeavesChild h child (s.step (.parent b c)).2 := by
  cases stands.turnout (c := .parent b c) rfl with
  | misdirected step =>
      rw [takesEffect, step] at effect
      cases effect
  | rejected e s' step refusal whole agrees =>
      rw [takesEffect, step, whole] at effect
      cases effect
  | emptied b p h child content e s' command found member step refusal opens leaves =>
      cases command
      rw [step]
      exact ⟨h, child, content, found, member, .of_leavesEmpty leaves⟩
  | answered reply s' step =>
      obtain ⟨call, reply, called, run⟩ := run_of_answers (c := .parent b c) (by rw [answers, step])
      obtain ⟨h, found, made⟩ := Option.bind_eq_some_iff.mp called
      obtain ⟨child, content, member, made⟩ := onParent?_cases made
      have isChild := isChild_of_member? found member
      have own : child.place = .property child.address := by rw [isChild.place, isChild.address]
      refine ⟨h, child, content, found, member, ?_⟩
      rcases made with rfl | ⟨k, value, op, -, rfl⟩ | ⟨e, refusal, rfl⟩
      · exact .of_startChild (ok_of_doing run)
      · exact .of_writeChild own (ok_of_doing run)
      · cases run

/-- A property that a command opened is closed again, or has nothing written. -/
theorem propertyAt_of_opening {outer : Option Place} (stands : s.Stands o)
    (effect : s.takesEffect c = true) (opening : s.opening? c = some (outer, .property a)) :
    ((s.step c).2.propertyAt a).token = none ∨
      ∃ p t, (s.step c).2.propertyAt a = Property.started p t := by
  cases c with
  | document c => cases c <;> cases opening
  | make | packet | value | stream => cases opening
  | writer b c =>
      cases c with
      | start =>
          obtain ⟨call, reply, called, run⟩ := run_of_answers (answers_of_takesEffect effect rfl)
          obtain ⟨h, found, ⟨⟩⟩ := Option.bind_eq_some_iff.mp called
          have place : h.place = .property a :=
            (place_of_handle? found).2.trans (Prod.mk.inj (Option.some.inj opening)).2
          obtain ⟨t, left⟩ := propertyAt_of_start (ok_of_doing run) place
          exact .inr ⟨_, t, left⟩
      | finish | release | state | touch | copy => cases opening
  | parent b c =>
      obtain ⟨h, child, content, found, member, leaves⟩ := leavesChild_of_takesEffect stands effect
      have isChild := isChild_of_member? found member
      have place : child.place = .property a := by
        rw [isChild.place, (place_of_handle? found).1]
        exact (Prod.mk.inj (Option.some.inj opening)).2
      exact leaves.inner place
  | property b c => cases c <;> cases opening
  | list list c =>
      cases c with
      | startInterval =>
          obtain rfl : { root := .interval list } = a :=
            Place.property.inj (Prod.mk.inj (Option.some.inj opening)).2
          obtain ⟨call, reply, called, run⟩ := run_of_answers (answers_of_takesEffect effect rfl)
          obtain ⟨l, kept, ⟨⟩⟩ := Option.bind_eq_some_iff.mp called
          exact .inr ⟨_, propertyAt_of_startInterval (ok_of_doing run)⟩
      | start | finish | state => cases opening

/-- What a command of a property makes of it. -/
def writtenBy (s : Session) (a : Address) : Command → Property
  | .value _ c =>
    if c.isValue then
      (s.propertyAt a).valued (c.toWrite s.stream.settings (s.propertyAt a).forceObject)
    else { s.propertyAt a with scope := .object }
  | .property _ (.interval _) => { s.propertyAt a with scope := .object, intervalWritten := true }
  | .property _ (.startIntervals _) => { s.propertyAt a with scope := .intervals }
  | .writer _ .finish => { s.propertyAt a with token := none }
  | _ => { s.propertyAt a with scope := .object }

/-- A command that a property takes is written to it, or closes it. -/
theorem propertyAt_of_own (stands : s.Stands o) (effect : s.takesEffect c = true)
    (own : s.writerOf? c = some (.property a)) :
    ((s.step c).2.propertyAt a).token = none ∨
      ((s.propertyAt a).scope = .unopened ∨ (s.propertyAt a).scope = .object) ∧
        (s.step c).2.propertyAt a = s.writtenBy a c := by
  have written {op : PropertyM Unit} {legal : Prop} {w : Write} {p' : Property}
      (adds : Property.Adds s.stream (s.propertyAt a) op legal w p')
      (called : s.operation? c = some (doing (onProperty a op))) (answered : s.answers c = true) :
      ((s.propertyAt a).scope = .unopened ∨ (s.propertyAt a).scope = .object) ∧
        (s.step c).2.propertyAt a = p' :=
    (propertyAt_of_adds stands adds called answered).imp_left And.right
  cases c with
  | document | make | packet | stream => cases own
  | writer b c =>
      cases c with
      | finish =>
          obtain ⟨call, reply, called, run⟩ := run_of_answers (answers_of_takesEffect effect rfl)
          obtain ⟨h, found, ⟨⟩⟩ := Option.bind_eq_some_iff.mp called
          have closed := closed_of_finish (ok_of_doing run)
          rw [(place_of_handle? found).2, Option.some.inj own] at closed
          exact .inl closed
      | start | release | state | touch | copy => cases own
  | parent b c =>
      obtain ⟨h, child, content, found, member, leaves⟩ := leavesChild_of_takesEffect stands effect
      have isChild := isChild_of_member? found member
      obtain ⟨takes, left⟩ := leaves.parent isChild.place_ne
        ((place_of_handle? found).2.trans (Option.some.inj own))
      exact .inr ⟨takes.2, left⟩
  | property b c =>
      have answered := answers_of_takesEffect effect rfl
      obtain ⟨call, reply, called, run⟩ := run_of_answers answered
      obtain ⟨content, rfl⟩ := onContent_of_operation? called
      cases c with
      | interval i =>
          obtain rfl := Place.property.inj (Option.some.inj own)
          exact .inr (written (Property.adds_writeInterval i) called answered)
      | delete delete =>
          obtain rfl := Place.property.inj (Option.some.inj own)
          exact .inr (written (Property.adds_writeDelete delete) called answered)
      | openScope =>
          obtain rfl := Place.property.inj (Option.some.inj own)
          exact .inr (written Property.adds_openScope called answered)
      | startIntervals list =>
          obtain rfl := Place.property.inj (Option.some.inj own)
          obtain ⟨unopened, closed | left⟩ := propertyAt_of_startIntervals (ok_of_doing run)
          · exact .inl closed
          · exact .inr ⟨.inl unopened, left⟩
      | forceObject | prepareChild | describe => cases own
  | value b c =>
      obtain rfl := Place.property.inj (Option.some.inj own)
      have answered := answers_of_takesEffect effect rfl
      obtain ⟨call, reply, called, run⟩ := run_of_answers answered
      obtain ⟨k, op, found, rfl⟩ := valueOp?_of_operation? called
      exact .inr (written (Property.adds_valueOp found _ _) called answered)
  | list list c => cases c <;> cases own

/-- What a command writes through its property is noted as what it was. -/
theorem recalls_of_own (stands : s.Stands o) (effect : s.takesEffect c = true)
    (own : s.writerOf? c = some (.property a)) (recalls : (s.propertyAt a).Recalls notes)
    (stays : ((s.step c).2.propertyAt a).token ≠ none) :
    ((s.step c).2.propertyAt a).Recalls ((s.note? a notes c).toList ++ notes) := by
  rcases propertyAt_of_own stands effect own with closed | ⟨takes, left⟩
  · exact absurd closed stays
  rw [left] at stays ⊢
  cases c with
  | document | make | packet | stream => cases own
  | writer b c =>
      cases c with
      | finish => exact absurd rfl stays
      | start | release | state | touch | copy => cases own
  | parent b c => exact recalls.addEntry takes
  | property b c =>
      cases c with
      | interval i =>
          exact recalls.add takes .interval rfl (Bool.or_false _).symm (by simp [writtenBy]) rfl
      | delete | openScope => exact recalls.addEntry takes
      | startIntervals list =>
          exact recalls.add takes .list rfl (Bool.or_false _).symm (by simp [writtenBy]) rfl
      | forceObject | prepareChild | describe => cases own
  | value b c => exact recalls.addValue takes c _
  | list list c => cases c <;> cases own

/-- What a property keeps stays what was written to it, whatever command comes next. -/
theorem recalls_step (stands : s.Stands o) (writing : c.isWriting = true)
    (recalls : (s.propertyAt a).token ≠ none → (s.propertyAt a).Recalls notes)
    (stays : ((s.step c).2.propertyAt a).token ≠ none) :
    ((s.step c).2.propertyAt a).Recalls (s.noted a notes c) := by
  unfold noted
  have unopened (other : ¬ (s.opening? c).map Prod.snd = some (.property a)) :
      ¬ ∃ outer, s.opening? c = some (outer, .property a) := by
    rintro ⟨outer, opens⟩
    exact other (by rw [opens]; rfl)
  split_ifs with nothing opening own
  · have same := WriterState.property.inj
      (stateAt_of_not_takesEffect stands writing nothing (.property a))
    rw [same] at stays ⊢
    exact recalls stays
  · obtain ⟨⟨outer, q⟩, opens, rfl⟩ := Option.map_eq_some_iff.mp opening
    rcases propertyAt_of_opening stands (by simpa using nothing) opens with closed | ⟨p, t, left⟩
    · exact absurd closed stays
    · rw [left]
      exact p.recalls_started t
  · refine recalls_of_own stands (by simpa using nothing) own (recalls ?_) stays
    intro closed
    exact stays (s.closed_step (q := .property a) writing closed (unopened opening))
  · by_cases set : sets? c = some (.property a)
    · obtain ⟨b, force, rfl, same⟩ := eq_forceObject_of_sets? set
      obtain rfl := Place.property.inj same
      rcases s.propertyAt_forceObject a force with left | left <;> rw [left] at stays ⊢
      · exact recalls stays
      · exact (recalls stays).set force
    · have foreign : ¬ (s.writerOf? c = some (.property a) ∨
          (∃ outer, s.opening? c = some (outer, .property a)) ∨ sets? c = some (.property a)) := by
        simp [own, unopened opening, set]
      rcases s.leavesOrCloses_step writing (.property a) foreign with left | closed
      · rw [WriterState.property.inj left] at stays ⊢
        exact recalls stays
      · exact absurd closed stays

/-- What a property keeps is what was written to it since it was opened. -/
theorem recalls_run (stands : s.Stands o) (writing : ∀ c ∈ cs, c.isWriting = true)
    (recalls : (s.propertyAt a).token ≠ none → (s.propertyAt a).Recalls notes)
    (stays : ((s.run cs).propertyAt a).token ≠ none) :
    ((s.run cs).propertyAt a).Recalls (s.history a notes cs) := by
  induction cs generalizing s o notes with
  | nil => exact recalls stays
  | cons c cs ih =>
      obtain ⟨first, rest⟩ := List.forall_mem_cons.mp writing
      exact ih (stands.step first) rest (recalls_step stands first recalls) stays

end Session

end SceneStream
