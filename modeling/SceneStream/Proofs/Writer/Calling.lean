import SceneStream.Proofs.Structure.Nesting
import SceneStream.Proofs.Writer.Value

/-!
# Writing a value on any stream

Behind its checks, a value write is a sequence of structural calls and a note of the property. So it is
answered exactly where its calls are, whatever the sink, and fails where one of them does; then the
property is still open.
-/

namespace SceneStream.Property

open Writing

variable {s : Stream} {p p' p'' : Property} {op op' : PropertyM Unit} {calls more : List Call}
  {k : Kind} {e : k.Encoding}

/-- On any stream with the same writers as this one, the operation makes the calls. Where all of them
are answered, it leaves the property in the second state; where one fails it fails alike, and the
property keeps its opening. -/
structure Executes (s : Stream) (p : Property) (op : PropertyM Unit) (calls : List Call)
    (p' : Property) : Prop where
  kept : p'.token = p.token
  answers : ∀ s' s'', s.Continues s' → Stream.performs calls s' = .ok () s'' →
    op ⟨s', p⟩ = .ok () ⟨s'', p'⟩
  fails : ∀ s' e s'', s.Continues s' → Stream.performs calls s' = .error e s'' →
    ∃ q : Property, q.token = p.token ∧ op ⟨s', p⟩ = .error e ⟨s'', q⟩

namespace Executes

theorem seq (first : Executes s p op calls p') (second : Executes s p' op' more p'') :
    Executes s p (do op; op') (calls ++ more) p'' where
  kept := second.kept.trans first.kept
  answers s' s'' like run := by
    rw [Stream.performs_append] at run
    obtain ⟨_, middle, before, after⟩ := ok_of_bind run
    have like' : s.Continues middle :=
      trans_of _ like ((Stream.continues_performs calls).of_ok before)
    rw [bind_of_ok (first.answers s' middle like before)]
    exact second.answers middle s'' like' after
  fails s' e s'' like run := by
    rw [Stream.performs_append] at run
    cases before : Stream.performs calls s' with
    | ok _ middle =>
        rw [bind_of_ok before] at run
        have like' : s.Continues middle :=
          trans_of _ like ((Stream.continues_performs calls).of_ok before)
        obtain ⟨q, token, failed⟩ := second.fails middle e s'' like' run
        refine ⟨q, token.trans first.kept, ?_⟩
        rw [bind_of_ok (first.answers s' middle like before), failed]
    | error e' middle =>
        rw [bind_of_error before] at run
        obtain ⟨q, token, failed⟩ := first.fails s' e' middle like before
        exact ⟨q, token, (bind_of_error failed _).trans (by cases run; rfl)⟩

/-- Checks that pass do not count. -/
theorem of_eq (same : ∀ s', s.Continues s' → op ⟨s', p⟩ = op' ⟨s', p⟩)
    (h : Executes s p op' calls p') : Executes s p op calls p' where
  kept := h.kept
  answers s' s'' like run := (same s' like).trans (h.answers s' s'' like run)
  fails s' e s'' like run := by
    rw [same s' like]
    exact h.fails s' e s'' like run

/-- The last step notes what was done. -/
theorem note (h : Executes s p op calls p') {f : Property → Property}
    (keeps : (f p').token = p'.token) :
    Executes s p (do op; setOwn (f (← getOwn))) calls (f p') where
  kept := keeps.trans h.kept
  answers s' s'' like run := by
    rw [bind_of_ok (h.answers s' s'' like run)]
    rfl
  fails s' e s'' like run := by
    obtain ⟨q, token, failed⟩ := h.fails s' e s'' like run
    exact ⟨q, token, bind_of_error failed _⟩

/-- An operation that is refused where it is not legal, and makes calls elsewhere, is answered exactly
where it is legal and all of the calls are answered. -/
theorem ok_iff {legal : Prop} {w : Writing Property} (refuses : ¬ legal → Refuses op ⟨s, p⟩)
    (executes : legal → Executes s p op calls p') :
    op ⟨s, p⟩ = .ok () w ↔ legal ∧ Stream.performs calls s = .ok () w.stream ∧ w.own = p' := by
  constructor
  · intro run
    by_cases ok : legal
    · refine ⟨ok, ?_⟩
      cases made : Stream.performs calls s with
      | ok _ s' =>
          have answered := (executes ok).answers s s' (refl s) made
          obtain rfl := (EStateM.Result.ok.inj (answered.symm.trans run)).2
          exact ⟨rfl, rfl⟩
      | error e s' =>
          obtain ⟨q, -, failed⟩ := (executes ok).fails s e s' (refl s) made
          cases failed.symm.trans run
    · obtain ⟨e, -, refused⟩ := refuses ok
      cases refused.symm.trans run
  · rintro ⟨ok, made, own⟩
    obtain ⟨stream, state⟩ := w
    obtain rfl : state = p' := own
    exact (executes ok).answers s stream (refl s) made

end Executes

theorem HasTurn.continues {s' : Stream} (turn : p.HasTurn s) (like : s.Continues s') :
    p.HasTurn s' := by
  obtain ⟨t, token, active⟩ := turn
  exact ⟨t, token, (congrArg List.head? like.writers).trans active⟩

theorem executes_whileActive (turn : p.HasTurn s) (calls : List Call) :
    Executes s p (whileActive (Stream.performs calls)) calls p where
  kept := rfl
  answers s' s'' like run := by
    obtain ⟨t, token, active⟩ := turn.continues like
    rw [whileActive_apply token active, onStream, run]
  fails s' e s'' like run := by
    obtain ⟨t, token, active⟩ := turn.continues like
    exact ⟨p, rfl, by rw [whileActive_apply token active, onStream, run]⟩

theorem executes_openScope (takes : p.TakesEntries s) :
    Executes s p openScope p.scope.opening { p with scope := .object } := by
  refine ((executes_whileActive takes.1 p.scope.opening).note
    (f := fun q => { q with scope := .object }) rfl).of_eq fun s' like => ?_
  obtain ⟨t, token, active⟩ := takes.1.continues like
  have begun : openScope ⟨s', p⟩ = (do
      whileActive (Stream.performs p.scope.opening)
      setOwn { p with scope := .object }) ⟨s', p⟩ := by
    rw [openScope, bind_of_ok (getOwn_apply _)]
    rcases takes.2 with scope | scope
    · simp only [scope, Scope.opening, Stream.performs_singleton]
      rfl
    · simp only [scope, Scope.opening, Stream.performs_nil]
  rw [begun, bind_apply, bind_apply, whileActive_apply token active, onStream]
  cases Stream.performs p.scope.opening s' <;> rfl

/-- A member of the object, with the object begun for it if need be. -/
theorem executes_member (takes : p.TakesEntries s) (key : String) (t : Tree) :
    Executes s p (member key (Stream.performs t.calls))
      (((Write.members [(key, t)]).entry p.scope).calls p.scope) { p with scope := .object } := by
  have turn : HasTurn { p with scope := .object } s := takes.1
  have named := executes_whileActive turn (.name key :: t.calls)
  have calls : Tree.memberCalls [(key, t)] = .name key :: t.calls := by
    simp [Tree.memberCalls]
  change Executes s p _ (p.scope.opening ++ Tree.memberCalls [(key, t)]) _
  rw [calls]
  exact (executes_openScope takes).seq named

/-- A literal, alone or under its key. -/
theorem executes_literal (takes : p.TakesEntries s) (v : k.Value) :
    Executes s p (do
        if (← getOwn).standsAlone k e then bare (Stream.literal k e v)
        else member (k.key e) (Stream.literal k e v))
      (((Write.ofLiteral p.forceObject k e v).entry p.scope).calls p.scope)
      { p with scope := ((Write.ofLiteral p.forceObject k e v).entry p.scope).scope } := by
  rw [Stream.literal_eq_performs]
  have apart : p.standsAlone k e = true ↔
      (k.isBare && e = k.standard && !p.forceObject) = true ∧ p.scope = .unopened := by
    simp [standsAlone]
  by_cases alone : p.standsAlone k e = true
  · have entry : (Write.ofLiteral p.forceObject k e v).entry p.scope =
        .bare (Tree.ofLiteral k e v) := if_pos (apart.mp alone)
    rw [entry]
    refine ((executes_whileActive takes.1 _).note (f := fun q => { q with scope := .bare })
      rfl).of_eq fun s' _ => ?_
    rw [bind_of_ok (getOwn_apply _), if_pos alone]
    rfl
  · have entry : (Write.ofLiteral p.forceObject k e v).entry p.scope =
        .members [(k.key e, Tree.ofLiteral k e v)] := if_neg (mt apart.mpr alone)
    rw [entry]
    refine (executes_member takes (k.key e) _).of_eq fun s' _ => ?_
    rw [bind_of_ok (getOwn_apply _), if_neg alone]

/-- Members one after the other. -/
theorem Executes.members {ms ms' : List (String × Tree)}
    (first : Executes s p op (((Write.members ms).entry p.scope).calls p.scope)
      { p with scope := .object })
    (second : Executes s { p with scope := .object } op'
      (((Write.members ms').entry .object).calls .object) p') :
    Executes s p (do op; op') (((Write.members (ms ++ ms')).entry p.scope).calls p.scope) p' := by
  have calls : ((Write.members (ms ++ ms')).entry p.scope).calls p.scope =
      ((Write.members ms).entry p.scope).calls p.scope ++
        ((Write.members ms').entry .object).calls .object := by
    simp [Write.entry, Entry.calls, Scope.opening, Tree.memberCalls_append]
  rw [calls]
  exact first.seq second

theorem executes_scalar (takes : p.TakesEntries s) (key : String) (v : Scalar) :
    Executes s p (member key (Stream.value v))
      (((Write.members [(key, .scalar v)]).entry p.scope).calls p.scope)
      { p with scope := .object } := by
  have member := executes_member takes key (.scalar v)
  rwa [Tree.calls, Stream.performs_singleton] at member

/-! ## Values -/

theorem TakesValue.expectNoValue_ok {s' : Stream} (takes : p.TakesValue s) :
    expectNoValue ⟨s', p⟩ = .ok () ⟨s', p⟩ := by
  obtain ⟨⟨⟨t, token, -⟩, -⟩, unwritten⟩ := takes
  exact Property.expectNoValue_ok ⟨by simp [isOpen, token], unwritten⟩

theorem check_of_valid {v : k.Value} (valid : k.defect? v = none) (w : Writing Property) :
    check (k.check v) w = .ok () w := by
  simp [Kind.check, valid]

theorem checks_of_valid {vs : List k.Value} (valid : ∀ v ∈ vs, k.defect? v = none)
    (w : Writing Property) : (vs.forM fun v => check (k.check v)) w = .ok () w := by
  induction vs with
  | nil => rfl
  | cons v vs ih =>
      obtain ⟨first, rest⟩ := List.forall_mem_cons.mp valid
      exact (bind_of_ok (check_of_valid first w) _).trans (ih rest)

theorem executes_writeLiteral (takes : p.TakesValue s) {v : k.Value} (valid : k.defect? v = none) :
    Executes s p (writeLiteral k e v)
      (((Write.ofLiteral p.forceObject k e v).entry p.scope).calls p.scope)
      (p.valued (.ofLiteral p.forceObject k e v)) := by
  refine ((executes_literal takes.1 v).note (f := fun q => { q with valueWritten := true })
    rfl).of_eq fun s' _ => ?_
  rw [writeLiteral_eq, bind_of_ok takes.expectNoValue_ok, bind_of_ok (check_of_valid valid _),
    bind_assoc]

theorem executes_writeSeries (takes : p.TakesValue s) {series : TimeSeries k.Value}
    (valid : ∀ v ∈ series.values, k.defect? v = none) :
    Executes s p (writeSeries k e series)
      (((Write.ofSeries s.settings k e series).entry p.scope).calls p.scope)
      (p.valued (.ofSeries s.settings k e series)) := by
  have samples {q : Property} (ready : q.TakesEntries s) (epoch : Option Instant) :=
    executes_member ready (k.key e) (Tree.ofSamples k e epoch series)
  have object : TakesEntries { p with scope := .object } s := ⟨takes.1.1, .inr rfl⟩
  simp only [Write.ofSeries]
  cases chosen : series.firstDate?.bind s.settings.sampleEpoch with
  | none =>
      refine ((samples takes.1 none).note (f := fun q => { q with valueWritten := true })
        rfl).of_eq fun s' like => ?_
      rw [← like.settings] at chosen
      rw [writeSeries, bind_of_ok takes.expectNoValue_ok, bind_of_ok (checks_of_valid valid _),
        bind_of_ok (get_apply _)]
      simp only [chosen, Stream.samples_eq_performs]
      rfl
  | some t =>
      refine (((executes_scalar takes.1 "epoch" (.text t.text)).members
        (samples object (some t))).note (f := fun q => { q with valueWritten := true })
        rfl).of_eq fun s' like => ?_
      rw [← like.settings] at chosen
      rw [writeSeries, bind_of_ok takes.expectNoValue_ok, bind_of_ok (checks_of_valid valid _),
        bind_of_ok (get_apply _)]
      simp only [chosen, Stream.samples_eq_performs]
      exact congrFun (bind_assoc _ _ _).symm _

theorem executes_writeReference (takes : p.TakesValue s) {source : Reference.Source} {r : Reference}
    (resolved : source.resolve = .ok r) :
    Executes s p (writeReference source) (((Write.ofReference r).entry p.scope).calls p.scope)
      (p.valued (.ofReference r)) := by
  refine ((executes_scalar takes.1 "reference" (.text r.text)).note
    (f := fun q => { q with valueWritten := true }) rfl).of_eq fun s' _ => ?_
  rw [writeReference, bind_of_ok takes.expectNoValue_ok, resolved]
  rfl

/-- A value of any sort. -/
theorem executes_write {b : Binding k} (takes : p.TakesValue s) (valid : b.IsValid) :
    Executes s p (write k e b)
      (((Write.ofBinding s.settings p.forceObject k e b).entry p.scope).calls p.scope)
      (p.valued (.ofBinding s.settings p.forceObject k e b)) := by
  cases b with
  | literal v => exact executes_writeLiteral takes valid
  | samples series => exact executes_writeSeries takes valid
  | reference r => exact executes_writeReference takes rfl

end SceneStream.Property
