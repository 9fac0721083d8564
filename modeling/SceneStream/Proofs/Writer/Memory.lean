import SceneStream.Proofs.Comparison.Basic
import SceneStream.Proofs.Writer.Lasting
import SceneStream.Proofs.Writer.Lifecycle

/-!
# What a closed property remembers

A property that was closed still has notes of what was written to it. While it is closed nothing asks
for them, since it refuses whatever is for open properties; and when it is opened again they are gone.
So two closed properties that differ in their notes alone are as good as one.
-/

namespace SceneStream

open Writing

namespace Property

variable {α β : Type} {p p' : Property} {k : Kind} {e : k.Encoding}

/-- A closed property holds nothing. -/
def IsSettled (p : Property) : Prop := p.token = none → p.scope = .unopened

/-- The properties are the same, but for the notes of closed ones. -/
structure Resembles (p p' : Property) : Prop where
  settled : p.IsSettled
  settled' : p'.IsSettled
  same : p' = p ∨ p.token = none ∧ p'.token = none ∧ p'.renewed = p.renewed

theorem IsSettled.resembles (settled : p.IsSettled) : p.Resembles p := ⟨settled, settled, .inl rfl⟩

theorem isSettled_of_open (opened : p.token ≠ none) : p.IsSettled :=
  fun closed => absurd closed opened

theorem isSettled_renewed (p : Property) : p.renewed.IsSettled := fun _ => rfl

/-- A closed property is as good as a fresh one for the same member. -/
theorem IsSettled.resembles_renewed (settled : p.IsSettled) (closed : p.token = none) :
    p.Resembles p.renewed :=
  ⟨settled, p.isSettled_renewed, .inr ⟨closed, rfl, rfl⟩⟩

namespace Resembles

variable (h : p.Resembles p')
include h

theorem token : p'.token = p.token := by
  rcases h.same with rfl | ⟨closed, closed', -⟩
  · rfl
  · rw [closed, closed']

theorem renewed : p'.renewed = p.renewed := by
  rcases h.same with rfl | ⟨-, -, renewed⟩
  · rfl
  · exact renewed

theorem name : p'.name = p.name := (congrArg Property.name h.renewed :)

theorem role : p'.role = p.role := (congrArg Property.role h.renewed :)

theorem forceObject : p'.forceObject = p.forceObject := (congrArg Property.forceObject h.renewed :)

theorem isOpen : p'.isOpen = p.isOpen := congrArg Option.isSome h.token

theorem scope : p'.scope = p.scope := by
  rcases h.same with rfl | ⟨closed, closed', -⟩
  · rfl
  · rw [h.settled closed, h.settled' closed']

theorem eq_of_open (opened : p.token ≠ none) : p' = p :=
  h.same.resolve_right fun ⟨closed, _⟩ => opened closed

/-- Opened again, they are the same. -/
theorem started : p'.started = p.started := by
  funext t
  have renewed : p'.renewed.started t = p.renewed.started t := by rw [h.renewed]
  exact renewed

end Resembles

/-! ## Operations for open properties -/

/-- The operation asks for the opening of the property before anything else. -/
def AsksOpening (op : PropertyM α) : Prop :=
  ∀ (s : Stream) (p : Property), p.token = none →
    op ⟨s, p⟩ = .error (.invalidOperation (.propertyNotOpen p.name)) ⟨s, p⟩

theorem AsksOpening.bind {op : PropertyM α} (asks : AsksOpening op) (f : α → PropertyM β) :
    AsksOpening (op >>= f) := fun s p closed => bind_of_error (asks s p closed) f

theorem asks_getOwn {f : Property → PropertyM α} (next : ∀ p, AsksOpening (f p)) :
    AsksOpening (getOwn >>= f) := fun s p closed => next p s p closed

theorem asks_opening : AsksOpening opening := by
  intro s p closed
  rw [opening, bind_of_ok (getOwn_apply _)]
  simp only [closed]
  rfl

theorem asks_whileActive (op : StreamM α) : AsksOpening (whileActive op) := asks_opening.bind _

theorem asks_openScope : AsksOpening openScope := asks_getOwn fun _ => (asks_whileActive _).bind _

theorem asks_member (key : String) (op : StreamM Unit) : AsksOpening (member key op) :=
  asks_openScope.bind _

theorem asks_prepareChild : AsksOpening prepareChild := asks_openScope.bind _

theorem asks_prepareIntervals : AsksOpening prepareIntervals :=
  asks_getOwn fun _ => asks_opening.bind _

theorem asks_finish : AsksOpening finish := asks_getOwn fun _ => asks_opening.bind _

theorem asks_expectNoValue : AsksOpening expectNoValue := by
  intro s p closed
  simp [expectNoValue, bind_apply, isOpen, closed, refuse]

theorem asks_writeLiteral (v : k.Value) : AsksOpening (writeLiteral k e v) :=
  asks_expectNoValue.bind _

theorem asks_writeSeries (s : TimeSeries k.Value) : AsksOpening (writeSeries k e s) :=
  asks_expectNoValue.bind _

theorem asks_writeReference (source : Reference.Source) : AsksOpening (writeReference source) :=
  asks_expectNoValue.bind _

theorem asks_write (b : Binding k) : AsksOpening (write k e b) := by
  cases b with
  | literal v => exact asks_writeLiteral v
  | samples s => exact asks_writeSeries s
  | reference r => exact asks_writeReference _

end Property

namespace Comparison

open Property

variable {α : Type} {op : PropertyM α}

/-- The comparison of property writers on one stream that resemble each other. -/
def remembering : Comparison (Writing Property) where
  moves _ _ := True
  alike w w' := w'.stream = w.stream ∧ w.own.Resembles w'.own
  parted _ _ := False
  fine _ := True
  moves_refl _ := trivial
  moves_trans _ _ _ _ _ := trivial
  parted_of_moves _ _ _ _ apart _ _ := apart.elim
  fine_misuse _ := trivial

/-- What leaves a settled property matches itself. -/
theorem matches_of_settled {w : Writing Property} (settled : (behind op w).own.IsSettled) :
    remembering.Matches (op w) (op w) := by
  cases run : op w with
  | ok a w' =>
      rw [behind_of_ok run] at settled
      exact .ok a ⟨rfl, settled.resembles⟩
  | error e w' =>
      rw [behind_of_error run] at settled
      exact .error trivial ⟨rfl, settled.resembles⟩

/-- An operation that asks for the opening fails on both if they are closed, and is the same on both if
they are open. -/
theorem follows_of_asks (asks : AsksOpening op)
    (settles : ∀ s p, p.token ≠ none → (behind op ⟨s, p⟩).own.IsSettled) :
    remembering.Follows op where
  moves _ := trivial
  runs w w' alike := by
    obtain ⟨s, p⟩ := w
    obtain ⟨s', p'⟩ := w'
    obtain ⟨rfl, resembles⟩ : s' = s ∧ p.Resembles p' := alike
    by_cases closed : p.token = none
    · rw [asks s' p closed, asks s' p' (resembles.token.trans closed), resembles.name]
      exact .inl (.error trivial ⟨rfl, resembles⟩)
    · rw [resembles.eq_of_open closed]
      exact .inl (matches_of_settled (settles s' p closed))

theorem lasting_open : Lasting (·.token ≠ none) := by
  intro p q _ _ token opened
  rwa [token]

theorem follows_of_stays (asks : AsksOpening op) (stays : Moves (Stays (·.token ≠ none)) op) :
    remembering.Follows op :=
  follows_of_asks asks fun s p opened => isSettled_of_open (stays ⟨s, p⟩ opened)

theorem follows_member (key : String) (op : StreamM Unit) : remembering.Follows (member key op) :=
  follows_of_stays (asks_member key op) (stays_member lasting_open key op)

theorem follows_openScope : remembering.Follows openScope :=
  follows_of_stays asks_openScope (stays_openScope lasting_open)

theorem follows_propertyPrepareChild : remembering.Follows Property.prepareChild :=
  follows_of_stays asks_prepareChild (stays_prepareChild lasting_open)

theorem follows_start : remembering.Follows start where
  moves _ := trivial
  runs w w' alike := by
    obtain ⟨s, p⟩ := w
    obtain ⟨s', p'⟩ := w'
    obtain ⟨rfl, resembles⟩ : s' = s ∧ p.Resembles p' := alike
    cases token : p.token with
    | some t =>
        have opened : p.token ≠ none := by
          rw [token]
          exact Option.some_ne_none t
        obtain ⟨e, -, refused⟩ : Refuses start ⟨s', p⟩ := refuses_start_of_begin (.inl opened)
        rw [resembles.eq_of_open opened, refused]
        exact .inl (.error trivial ⟨rfl, (isSettled_of_open opened).resembles⟩)
    | none =>
        have firstCall : p'.firstCall = p.firstCall := by
          rw [Property.firstCall, Property.firstCall, resembles.role, resembles.name]
        rw [start_apply token, start_apply (resembles.token.trans token), firstCall,
          resembles.started, bind_apply, bind_apply, onStream, onStream]
        cases Stream.begin p.firstCall s' with
        | ok t s =>
            have settled : (p.started t).IsSettled := isSettled_of_open (Option.some_ne_none t)
            exact .inl (.ok () ⟨rfl, settled.resembles⟩)
        | error e s => exact .inl (.error trivial ⟨rfl, resembles⟩)

theorem follows_finish : remembering.Follows finish := by
  apply follows_of_asks asks_finish
  intro s p opened
  obtain ⟨t, token⟩ := Option.ne_none_iff_exists'.mp opened
  rw [behind, finish_apply token, bind_apply, onStream]
  cases Stream.finish (complete p.scope) t s with
  | ok _ s' => exact fun _ => rfl
  | error e s' => exact isSettled_of_open opened

theorem follows_setForceObject (force : Bool) : remembering.Follows (setForceObject force) where
  moves _ := trivial
  runs w w' alike := by
    obtain ⟨s, p⟩ := w
    obtain ⟨s', p'⟩ := w'
    obtain ⟨rfl, resembles⟩ : s' = s ∧ p.Resembles p' := alike
    refine .inl (.ok () ⟨rfl, resembles.settled, resembles.settled', ?_⟩)
    rcases resembles.same with rfl | ⟨closed, closed', renewed⟩
    · exact .inl rfl
    · exact .inr ⟨closed, closed', congrArg ({ · with forceObject := force }) renewed⟩

/-- A value that has to be put together first fails alike where it cannot be. -/
theorem follows_checked {x : Except Error α} {f : α → PropertyM Unit}
    (next : ∀ a, remembering.Follows (f a)) : remembering.Follows (do f (← check x)) := by
  cases x with
  | ok a => exact next a
  | error e => exact follows_throw trivial

theorem follows_rememberedValue {kind : Kind} {c : ValueCommand} {op : PropertyM Unit}
    (found : Session.valueOp? kind c = some op) : remembering.Follows op := by
  have series {k : Kind} (s : TimeSeries k.Value) :
      remembering.Follows (writeSeries k k.standard s) :=
    follows_of_stays (asks_writeSeries s) (stays_writeSeries lasting_open s)
  cases c with
  | write k e b =>
      obtain ⟨-, ⟨⟩⟩ := Option.ite_none_right_eq_some.mp found
      exact follows_of_stays (asks_write b) (stays_write lasting_open b)
  | samples k dates values =>
      obtain ⟨-, ⟨⟩⟩ := Option.ite_none_right_eq_some.mp found
      exact follows_checked series
  | window k dates values start length =>
      obtain ⟨-, ⟨⟩⟩ := Option.ite_none_right_eq_some.mp found
      exact follows_checked series
  | reference source =>
      obtain rfl := Option.some.inj found
      exact follows_of_stays (asks_writeReference source) (stays_writeReference lasting_open source)
  | resolved u resolver =>
      obtain ⟨-, ⟨⟩⟩ := Option.ite_none_right_eq_some.mp found
      exact follows_of_stays (asks_writeLiteral _) (stays_writeLiteral lasting_open _)
  | algorithm a =>
      obtain ⟨-, ⟨⟩⟩ := Option.ite_none_right_eq_some.mp found
      exact follows_member _ _
  | degree n =>
      obtain ⟨-, ⟨⟩⟩ := Option.ite_none_right_eq_some.mp found
      have whole := follows_member "interpolationDegree" (Stream.value (.integer n))
      exact .ite (fun _ => (follows_throw trivial).bind fun _ => whole) fun _ => whole

end Comparison

end SceneStream
