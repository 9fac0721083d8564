import SceneStream.Proofs.Writer.Property

/-!
# What a value write adds

A value is checked as a whole before anything of it is written: a literal, every sample in the
window of a series, the text of a reference. So a value is either refused without a trace, or
written as one entry: alone, or under the key of its encoding.
-/

namespace SceneStream

/-! ## Arguments that are no value -/

theorem TimeSeries.isRefusal_of {α : Type} {dates : List Instant} {values : List α} {e : Error}
    (h : TimeSeries.of dates values = .error e) : e.isRefusal = true := by
  unfold TimeSeries.of at h
  split at h
  · split at h
    · cases h
    · obtain rfl := Except.error.inj h
      rfl
  · obtain rfl := Except.error.inj h
    rfl

theorem TimeSeries.isRefusal_slice {α : Type} {series : TimeSeries α} {start length : Nat}
    {e : Error} (h : series.slice start length = .error e) : e.isRefusal = true := by
  unfold TimeSeries.slice at h
  split at h
  · cases h
  · obtain rfl := Except.error.inj h
    rfl

/-- A window of samples that are put together first. -/
theorem TimeSeries.isRefusal_window {α : Type} {dates : List Instant} {values : List α}
    {start length : Nat} {e : Error}
    (h : (do (← TimeSeries.of dates values).slice start length) = .error e) :
    e.isRefusal = true := by
  cases built : TimeSeries.of dates values with
  | error e' =>
      rw [built] at h
      obtain rfl : e' = e := Except.error.inj h
      exact isRefusal_of built
  | ok series =>
      rw [built] at h
      exact isRefusal_slice h

namespace Reference

variable {e : Error}

theorem isRefusal_of {identifier : String} {path : List String}
    (h : Reference.of identifier path = .error e) : e.isRefusal = true := by
  unfold Reference.of at h
  split at h
  · obtain rfl := Except.error.inj h
    rfl
  · split at h
    · obtain rfl := Except.error.inj h
      rfl
    · split at h
      · obtain rfl := Except.error.inj h
        rfl
      · cases h

theorem isRefusal_parse {text : String} (h : parse text = .error e) : e.isRefusal = true := by
  unfold parse at h
  split at h
  · split at h
    · obtain rfl := Except.error.inj h
      rfl
    · split at h
      · obtain rfl := Except.error.inj h
        rfl
      · exact isRefusal_of h
  · obtain rfl := Except.error.inj h
    rfl

theorem isRefusal_resolve {source : Source} (h : source.resolve = .error e) :
    e.isRefusal = true := by
  cases source with
  | made r => cases h
  | text text => exact isRefusal_parse h
  | property identifier name | path identifier path => exact isRefusal_of h

end Reference

namespace Binding

variable {k : Kind}

/-- Whether the binding holds values of its kind only. -/
def IsValid : Binding k → Prop
  | literal v => k.defect? v = none
  | samples series => ∀ v ∈ series.values, k.defect? v = none
  | reference _ => True

end Binding

namespace Write

/-- The samples under the key of their encoding, behind the epoch of their times if there is one. -/
def ofSeries (settings : Settings) (k : Kind) (e : k.Encoding) (series : TimeSeries k.Value) :
    Write :=
  let epoch := series.firstDate?.bind settings.sampleEpoch
  .members (epoch.toList.map (fun t => ("epoch", .scalar (.text t.text))) ++
    [(k.key e, Tree.ofSamples k e epoch series)])

/-- A literal of a simple kind in its usual encoding may stand for the property, unless the property
is set to be an object. -/
def ofLiteral (force : Bool) (k : Kind) (e : k.Encoding) (v : k.Value) : Write :=
  .literal (k.isBare && e = k.standard && !force) (k.key e) (Tree.ofLiteral k e v)

def ofReference (r : Reference) : Write := .members [("reference", .scalar (.text r.text))]

def ofBinding (settings : Settings) (force : Bool) (k : Kind) (e : k.Encoding) : Binding k → Write
  | .literal v => ofLiteral force k e v
  | .samples series => ofSeries settings k e series
  | .reference r => ofReference r

end Write

namespace Property

open Writing

variable {s : Stream} {p p' : Property}

/-- The property after it took a value. -/
def valued (p : Property) (w : Write) : Property :=
  { p with scope := (w.entry p.scope).scope, valueWritten := true }

/-- Whether the property takes a value now. -/
def TakesValue (p : Property) (s : Stream) : Prop := p.TakesEntries s ∧ p.valueWritten = false

theorem expectNoValue_ok (h : p.isOpen = true ∧ p.valueWritten = false) :
    expectNoValue ⟨s, p⟩ = .ok () ⟨s, p⟩ := by
  simp [expectNoValue, bind_apply, h]

theorem refuses_expectNoValue (h : ¬ (p.isOpen = true ∧ p.valueWritten = false)) :
    Refuses expectNoValue ⟨s, p⟩ := by
  by_cases opened : p.isOpen = true
  · have written : p.valueWritten = true := by simpa [opened] using h
    refine ⟨.invalidOperation (.secondValue p.name), rfl, ?_⟩
    simp [expectNoValue, bind_apply, opened, written]
  · refine ⟨.invalidOperation (.propertyNotOpen p.name), rfl, ?_⟩
    simp [expectNoValue, bind_apply, opened]

namespace Adds

variable {op : PropertyM Unit} {legal : Prop} {w : Write}

/-- A write that comes after the check that there is no value yet. -/
theorem afterNoValue (h : Adds s p op legal w p') :
    Adds s p (do expectNoValue; op) (p.valueWritten = false ∧ legal) w p' := by
  by_cases free : p.isOpen = true ∧ p.valueWritten = false
  · refine (h.of_eq ?_).congr (by simp [free.2])
    intro s' _
    exact bind_of_ok (expectNoValue_ok free) _
  · refine of_refuses ((refuses_expectNoValue free).bind _) ?_ h.kept
    rintro ⟨unwritten, ok⟩
    obtain ⟨⟨t, token, -⟩, -⟩ := h.takes ok
    exact free ⟨by simp [isOpen, token], unwritten⟩

/-- A write that comes after a check of an argument. -/
theorem afterCheck {k : Kind} {v : k.Value} (h : Adds s p op legal w p') :
    Adds s p (do check (k.check v); op) (k.defect? v = none ∧ legal) w p' := by
  cases defect : k.defect? v with
  | none =>
      refine (h.of_eq ?_).congr (by simp)
      intro s' _
      apply bind_of_ok (a := ())
      simp [Kind.check, defect]
  | some d =>
      refine of_refuses (Refuses.bind ⟨.invalidArgument d, rfl, ?_⟩ _) (by simp) h.kept
      simp [Kind.check, defect]

/-- A write that comes after a check of several arguments. -/
theorem afterChecks {k : Kind} (vs : List k.Value) (h : Adds s p op legal w p') :
    Adds s p (do vs.forM fun v => check (k.check v); op) ((∀ v ∈ vs, k.defect? v = none) ∧ legal)
      w p' := by
  induction vs with
  | nil => exact h.congr (by simp)
  | cons v vs ih =>
      refine ((ih.afterCheck (v := v)).of_eq ?_).congr (by simp [and_assoc])
      intro s' _
      exact congrFun (bind_assoc _ _ _) _

end Adds

/-- A literal that stands for the whole property. -/
private theorem adds_bare {op : StreamM Unit} {key : String} {t : Tree}
    (h : Stream.Makes op t.calls) (first : p.scope = .unopened) :
    Adds s p (bare op) (p.TakesEntries s) (.literal true key t) { p with scope := .bare } := by
  have entry : (Write.literal true key t).entry p.scope = .bare t := by simp [Write.entry, first]
  refine ⟨?_, id, ?_, by rw [entry]; rfl⟩
  · intro illegal
    apply Refuses.bind
    apply refuses_whileActive
    intro turn
    exact illegal ⟨turn, .inl first⟩
  · intro ok
    rw [entry]
    exact (draws_whileActive ok.1 h).note fun q => { q with scope := .bare }

/-- A literal, alone or under its key. -/
theorem adds_literal (k : Kind) (e : k.Encoding) (v : k.Value) :
    Adds s p (do
        if (← getOwn).standsAlone k e then bare (Stream.literal k e v)
        else member (k.key e) (Stream.literal k e v))
      (p.TakesEntries s) (.ofLiteral p.forceObject k e v)
      { p with scope := ((Write.ofLiteral p.forceObject k e v).entry p.scope).scope } := by
  have made := Stream.makes_literal k e v
  have apart : p.standsAlone k e = true ↔
      (k.isBare && e = k.standard && !p.forceObject) = true ∧ p.scope = .unopened := by
    simp [standsAlone]
  by_cases alone : p.standsAlone k e = true
  · have first := (apart.mp alone).2
    have entry : (Write.ofLiteral p.forceObject k e v).entry p.scope =
        (Write.literal true (k.key e) (Tree.ofLiteral k e v)).entry p.scope := by
      rw [Write.ofLiteral, (apart.mp alone).1]
    have scope : ((Write.ofLiteral p.forceObject k e v).entry p.scope).scope = .bare := by
      rw [entry]
      simp [Write.entry, first, Entry.scope]
    rw [scope]
    exact ((adds_bare made first).of_entry entry.symm).of_eq fun s _ => by simp [bind_apply, alone]
  · have entry : (Write.ofLiteral p.forceObject k e v).entry p.scope =
        (Write.members [(k.key e, Tree.ofLiteral k e v)]).entry p.scope := by
      simp only [Write.ofLiteral, Write.entry, if_neg (mt apart.mpr alone)]
    rw [entry]
    exact ((adds_member (k.key e) made).of_entry entry.symm).of_eq fun s _ => by
      simp [bind_apply, alone]

/-- A literal is written behind its checks, and noted as the value. -/
theorem writeLiteral_eq (k : Kind) (e : k.Encoding) (v : k.Value) : writeLiteral k e v = (do
    expectNoValue
    check (k.check v)
    (if (← getOwn).standsAlone k e then bare (Stream.literal k e v)
      else member (k.key e) (Stream.literal k e v))
    setOwn { (← getOwn) with valueWritten := true }) := by
  unfold writeLiteral noteValue
  apply bind_congr
  intro _
  apply bind_congr
  intro _
  apply bind_congr
  intro q
  split <;> rfl

/-- A literal in its usual encoding or another. -/
theorem adds_writeLiteral (k : Kind) (e : k.Encoding) (v : k.Value) :
    Adds s p (writeLiteral k e v)
      (p.valueWritten = false ∧ k.defect? v = none ∧ p.TakesEntries s)
      (.ofLiteral p.forceObject k e v) (p.valued (.ofLiteral p.forceObject k e v)) := by
  have noted := (adds_literal (s := s) (p := p) k e v).note
    (f := fun q => { q with valueWritten := true }) fun _ => rfl
  have checked := (noted.afterCheck (v := v)).afterNoValue
  simp only [bind_assoc] at checked
  rw [writeLiteral_eq]
  exact checked

/-- The samples in the window of a series, all of them or none. -/
theorem adds_writeSeries (k : Kind) (e : k.Encoding) (series : TimeSeries k.Value) :
    Adds s p (writeSeries k e series)
      (p.valueWritten = false ∧ (∀ v ∈ series.values, k.defect? v = none) ∧ p.TakesEntries s)
      (.ofSeries s.settings k e series) (p.valued (.ofSeries s.settings k e series)) := by
  have samples (q : Property) (epoch : Option Instant) :=
    adds_member (s := s) (p := q) (k.key e) (Stream.makes_samples k e epoch series)
  simp only [Write.ofSeries]
  cases chosen : series.firstDate?.bind s.settings.sampleEpoch with
  | none =>
      have noted := (samples p none).note (f := fun q => { q with valueWritten := true }) fun _ => rfl
      refine ((noted.of_eq ?_).afterChecks series.values).afterNoValue.of_eq fun _ _ => rfl
      intro s' same
      rw [← same] at chosen
      simp only [bind_apply, get_apply, chosen]
      rfl
  | some t =>
      have dated := adds_scalar (s := s) (p := p) "epoch" (.text t.text)
      have noted := (dated.seq (samples _ (some t))).note
        (f := fun q => { q with valueWritten := true }) fun _ => rfl
      refine ((noted.of_eq ?_).afterChecks series.values).afterNoValue.of_eq fun _ _ => rfl
      intro s' same
      rw [← same] at chosen
      rw [bind_of_ok (get_apply _)]
      simp only [chosen]
      exact congrFun (bind_assoc _ _ _).symm _

theorem adds_writeReference {source : Reference.Source} {r : Reference}
    (resolved : source.resolve = .ok r) :
    Adds s p (writeReference source) (p.valueWritten = false ∧ p.TakesEntries s)
      (.ofReference r) (p.valued (.ofReference r)) := by
  have noted := (adds_scalar (s := s) (p := p) "reference" (.text r.text)).note
    (f := fun q => { q with valueWritten := true }) fun _ => rfl
  apply noted.afterNoValue.of_eq
  intro s' _
  rw [writeReference, resolved]
  rfl

/-- A value of any sort. -/
theorem adds_write (k : Kind) (e : k.Encoding) (b : Binding k) :
    Adds s p (write k e b) (p.TakesValue s ∧ b.IsValid) (.ofBinding s.settings p.forceObject k e b)
      (p.valued (.ofBinding s.settings p.forceObject k e b)) := by
  cases b with
  | literal v =>
      apply (adds_writeLiteral k e v).congr
      simp only [TakesValue, Binding.IsValid]
      tauto
  | samples series =>
      apply (adds_writeSeries k e series).congr
      simp only [TakesValue, Binding.IsValid]
      tauto
  | reference r =>
      apply (adds_writeReference rfl).congr
      simp only [TakesValue, Binding.IsValid]
      tauto

/-! ## Values that are built first -/

theorem refuses_check {α : Type} {x : Except Error α} {e : Error} (error : x = .error e)
    (refusal : e.isRefusal = true) (f : α → PropertyM Unit) :
    Refuses (do f (← check x)) ⟨s, p⟩ := by
  rw [error]
  exact Refuses.bind ⟨e, refusal, rfl⟩ f

theorem refuses_writeReference {source : Reference.Source} {e : Error}
    (unresolved : source.resolve = .error e) : Refuses (writeReference source) ⟨s, p⟩ := by
  have refusal := Reference.isRefusal_resolve unresolved
  by_cases free : p.isOpen = true ∧ p.valueWritten = false
  · exact Refuses.after (expectNoValue_ok free) (refuses_check unresolved refusal _)
  · exact (refuses_expectNoValue free).bind _

/-- Samples from parallel lists. -/
theorem writeSamples_of_ok {k : Kind} {dates : List Instant} {values : List k.Value}
    {series : TimeSeries k.Value} (built : TimeSeries.of dates values = .ok series) :
    writeSamples k dates values = writeSeries k k.standard series := by
  rw [writeSamples, built]
  rfl

theorem refuses_writeSamples {k : Kind} {dates : List Instant} {values : List k.Value} {e : Error}
    (error : TimeSeries.of dates values = .error e) :
    Refuses (writeSamples k dates values) ⟨s, p⟩ :=
  refuses_check error (TimeSeries.isRefusal_of error) _

section

variable {k : Kind} {dates : List Instant} {values : List k.Value} {start length : Nat}

theorem writeWindow_of_ok {series : TimeSeries k.Value}
    (built : (do (← TimeSeries.of dates values).slice start length) = .ok series) :
    writeWindow k dates values start length = writeSeries k k.standard series := by
  rw [writeWindow, built]
  rfl

theorem refuses_writeWindow {e : Error}
    (error : (do (← TimeSeries.of dates values).slice start length) = .error e) :
    Refuses (writeWindow k dates values start length) ⟨s, p⟩ :=
  refuses_check error (TimeSeries.isRefusal_window error) _

end

theorem adds_writeDelete (delete : Bool) :
    Adds s p (writeDelete delete) (p.TakesEntries s) (.members [("delete", .scalar (.bool delete))])
      { p with scope := .object } := adds_scalar "delete" (.bool delete)

theorem adds_writeAlgorithm (a : InterpolationAlgorithm) :
    Adds s p (writeAlgorithm a) (p.TakesEntries s)
      (.members [("interpolationAlgorithm", .scalar (.text (Vocabulary.token a)))])
      { p with scope := .object } := adds_scalar _ _

theorem adds_writeDegree (degree : Nat) :
    Adds s p (writeDegree degree) (p.TakesEntries s ∧ degree ≠ 0)
      (.members [("interpolationDegree", .scalar (.integer degree))])
      { p with scope := .object } := by
  by_cases zero : degree = 0
  · subst zero
    exact Adds.of_refuses ⟨.invalidArgument .degreeZero, rfl, rfl⟩ (by simp) rfl
  · have written := adds_scalar (s := s) (p := p) "interpolationDegree" (.integer degree)
    refine (written.of_eq ?_).congr (by simp [zero])
    intro s' _
    simp [writeDegree, zero]

end Property

end SceneStream
