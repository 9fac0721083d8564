import SceneStream.Proofs.Run
import SceneStream.Session.Command

/-!
# What lasts while a property is written

The operations of an open property note what was written, and how. They change neither its name nor
its role nor its opening, whatever comes of them; so a condition on these lasts.
-/

namespace SceneStream

open Writing

namespace Property

variable {α β : Type} {Q : Property → Prop} {k : Kind} {e : k.Encoding}

/-- Nothing that is noted of a property, its name, its role and its opening apart, has a part in the
condition. -/
def Lasting (Q : Property → Prop) : Prop :=
  ∀ p q : Property, q.name = p.name → q.role = p.role → q.token = p.token → Q p → Q q

/-- A writer that meets the condition is left as one. -/
def Stays (Q : Property → Prop) (w w' : Writing Property) : Prop := Q w.own → Q w'.own

instance : IsPreorder (Writing Property) (Stays Q) where
  refl _ := id
  trans _ _ _ first second := second ∘ first

theorem stays_onStream (op : StreamM α) : Moves (Stays Q) (onStream op) := by
  intro w
  unfold behind onStream
  cases op w.stream <;> exact id

theorem stays_check (x : Except Error α) : Moves (Stays Q) (check x) := by
  intro w
  cases x <;> exact id

/-- What follows may take the writer for one that meets the condition. -/
theorem stays_getOwn {f : Property → PropertyM β}
    (next : ∀ p : Property, Q p → Moves (Stays Q) (f p)) : Moves (Stays Q) (getOwn >>= f) :=
  fun w kept => next w.own kept w kept

theorem stays_setOwn {p : Property} (kept : Q p) : Moves (Stays Q) (setOwn p) :=
  moves_modify fun _ _ => kept

theorem stays_opening : Moves (Stays Q) opening := by
  apply stays_getOwn
  intro p _
  split
  · exact moves_pure _
  · exact moves_refuse _

theorem stays_whileActive (op : StreamM α) : Moves (Stays Q) (whileActive op) :=
  stays_opening.bind fun _ => stays_onStream _

section

variable (lasting : Lasting Q)
include lasting

/-- What is noted at the end. -/
theorem stays_note {op : PropertyM Unit} (moves : Moves (Stays Q) op) {f : Property → Property}
    (name : ∀ p, (f p).name = p.name) (role : ∀ p, (f p).role = p.role)
    (token : ∀ p, (f p).token = p.token) : Moves (Stays Q) (do op; setOwn (f (← getOwn))) :=
  moves.bind fun _ => stays_getOwn fun p kept =>
    stays_setOwn (lasting p (f p) (name p) (role p) (token p) kept)

theorem stays_openScope : Moves (Stays Q) openScope := by
  apply stays_getOwn
  intro p kept
  exact (stays_whileActive _).bind fun _ => stays_setOwn (lasting p _ rfl rfl rfl kept)

theorem stays_bare (op : StreamM Unit) : Moves (Stays Q) (bare op) :=
  stays_note lasting (stays_whileActive op) (fun _ => rfl) (fun _ => rfl) fun _ => rfl

theorem stays_member (key : String) (op : StreamM Unit) : Moves (Stays Q) (member key op) :=
  (stays_openScope lasting).bind fun _ => stays_whileActive _

theorem stays_writeInterval (i : Interval) : Moves (Stays Q) (writeInterval i) := by
  apply stays_getOwn
  intro p _
  have whole : Moves (Stays Q) (do
      member "interval" (Stream.value (.text i.text))
      setOwn { ← getOwn with intervalWritten := true }) :=
    stays_note lasting (stays_member lasting _ _) (fun _ => rfl) (fun _ => rfl) fun _ => rfl
  exact .ite ((moves_refuse _).bind fun _ => whole) whole

theorem stays_setForceObject (force : Bool) : Moves (Stays Q) (setForceObject force) :=
  stays_getOwn fun p kept => stays_setOwn (lasting p _ rfl rfl rfl kept)

theorem stays_prepareChild : Moves (Stays Q) prepareChild :=
  (stays_openScope lasting).bind fun _ => stays_opening.bind fun _ => stays_onStream _

theorem stays_noteValue : Moves (Stays Q) noteValue :=
  stays_getOwn fun p kept => stays_setOwn (lasting p _ rfl rfl rfl kept)

end

theorem stays_prepareIntervals : Moves (Stays Q) prepareIntervals := by
  apply stays_getOwn
  intro p _
  refine Moves.bind (T := Stays Q) stays_opening fun t => ?_
  refine Moves.bind (T := Stays Q) (stays_onStream _) fun _ => ?_
  exact .ite ((moves_refuse _).bind fun _ => stays_onStream _) (stays_onStream _)

/-! ## Values -/

theorem stays_expectNoValue : Moves (Stays Q) expectNoValue := by
  apply stays_getOwn
  intro p _
  have second : Moves (Stays Q)
      (if p.valueWritten then refuse (.secondValue p.name) else pure () : PropertyM Unit) :=
    .ite (moves_refuse _) (moves_pure _)
  exact .ite ((moves_refuse _).bind fun _ => second) second

theorem stays_checks (vs : List k.Value) :
    Moves (Stays Q) (vs.forM fun v => check (k.check v)) := by
  induction vs with
  | nil => exact moves_pure _
  | cons v vs ih => exact (stays_check _).bind fun _ => ih

section

variable (lasting : Lasting Q)
include lasting

theorem stays_writeLiteral (v : k.Value) : Moves (Stays Q) (writeLiteral k e v) := by
  refine Moves.bind (T := Stays Q) stays_expectNoValue fun _ => ?_
  refine Moves.bind (T := Stays Q) (stays_check _) fun _ => ?_
  apply stays_getOwn
  intro p _
  exact .ite ((stays_bare lasting _).bind fun _ => stays_noteValue lasting)
    ((stays_member lasting _ _).bind fun _ => stays_noteValue lasting)

theorem stays_writeSeries (s : TimeSeries k.Value) : Moves (Stays Q) (writeSeries k e s) := by
  refine Moves.bind (T := Stays Q) stays_expectNoValue fun _ => ?_
  refine Moves.bind (T := Stays Q) (stays_checks _) fun _ => ?_
  apply Moves.look
  intro w
  have samples (epoch : Option Instant) : Moves (Stays Q) (do
      member (k.key e) (Stream.samples k e epoch s)
      noteValue) :=
    (stays_member lasting _ _).bind fun _ => stays_noteValue lasting
  dsimp only
  split
  · exact (stays_member lasting _ _).bind fun _ => samples _
  · exact samples _

theorem stays_writeReference (source : Reference.Source) :
    Moves (Stays Q) (writeReference source) := by
  refine Moves.bind (T := Stays Q) stays_expectNoValue fun _ => ?_
  refine Moves.bind (T := Stays Q) (stays_check _) fun r => ?_
  exact (stays_member lasting _ _).bind fun _ => stays_noteValue lasting

theorem stays_write (b : Binding k) : Moves (Stays Q) (write k e b) := by
  cases b with
  | literal v => exact stays_writeLiteral lasting v
  | samples s => exact stays_writeSeries lasting s
  | reference r => exact stays_writeReference lasting _

theorem stays_valueOp {kind : Kind} {c : ValueCommand} {op : PropertyM Unit}
    (found : Session.valueOp? kind c = some op) : Moves (Stays Q) op := by
  cases c with
  | write k e b =>
      obtain ⟨-, ⟨⟩⟩ := Option.ite_none_right_eq_some.mp found
      exact stays_write lasting b
  | samples k dates values =>
      obtain ⟨-, ⟨⟩⟩ := Option.ite_none_right_eq_some.mp found
      exact (stays_check _).bind fun _ => stays_writeSeries lasting _
  | window k dates values start length =>
      obtain ⟨-, ⟨⟩⟩ := Option.ite_none_right_eq_some.mp found
      exact (stays_check _).bind fun _ => stays_writeSeries lasting _
  | reference source =>
      obtain rfl := Option.some.inj found
      exact stays_writeReference lasting source
  | resolved u resolver =>
      obtain ⟨-, ⟨⟩⟩ := Option.ite_none_right_eq_some.mp found
      exact stays_writeLiteral lasting _
  | algorithm algorithm =>
      obtain ⟨-, ⟨⟩⟩ := Option.ite_none_right_eq_some.mp found
      exact stays_member lasting _ _
  | degree degree =>
      obtain ⟨-, ⟨⟩⟩ := Option.ite_none_right_eq_some.mp found
      have whole : Moves (Stays Q)
          (member "interpolationDegree" (Stream.value (.integer degree))) :=
        stays_member lasting _ _
      exact .ite ((moves_throw _).bind fun _ => whole) whole

end

end Property

end SceneStream
