import SceneStream.Proofs.Series.Times
import SceneStream.Proofs.Writer.Calling

/-!
# The array of a series

A series becomes one flat array under the key of its encoding: for each sample in the window its time,
and behind it what a literal of its value is made of. Where times are seconds, the epoch that they are
counted from is a member of its own in front of the array. Main statement: `writeSeries_iff`.
-/

namespace SceneStream

/-- The items of an array; anything else is one item. -/
def Tree.items : Tree → List Tree
  | array items => items
  | t => [t]

theorem Tree.items_ofLiteral (k : Kind) (e : k.Encoding) (v : k.Value) :
    (Tree.ofLiteral k e v).items = (k.components e v).map .scalar := by
  unfold Tree.ofLiteral
  split
  next c one => rw [one]; rfl
  next => rfl

/-! ## Samples -/

namespace TimeSeries

variable {α : Type} (s : TimeSeries α)

/-- The samples in the window are those behind its start. -/
theorem getElem?_samples {i : Nat} (inside : i < s.length) :
    ∃ date v, s.allDates[s.start + i]? = some date ∧ s.allValues[s.start + i]? = some v ∧
      s.samples[i]? = some (date, v) := by
  have bound : s.start + i < s.allDates.length := by
    have := s.window
    omega
  have bound' : s.start + i < s.allValues.length := s.values_length ▸ bound
  have date : s.dates[i]? = some s.allDates[s.start + i] := by
    simp [dates, inside, bound]
  have v : s.values[i]? = some s.allValues[s.start + i] := by
    simp [values, inside, bound']
  exact ⟨_, _, List.getElem?_eq_getElem bound, List.getElem?_eq_getElem bound',
    List.getElem?_zip_eq_some.mpr ⟨date, v⟩⟩

theorem length_samples : s.samples.length = s.length := by
  rw [samples, List.length_zip, s.length_dates, s.length_values, Nat.min_self]

/-- The first date is the one at the start of the window, unless the window is empty. -/
theorem firstDate?_cases : s.length = 0 ∧ s.firstDate? = none ∨
    ∃ date, s.length ≠ 0 ∧ s.allDates[s.start]? = some date ∧ s.firstDate? = some date := by
  rw [firstDate?, dates, List.head?_take]
  by_cases empty : s.length = 0
  · exact .inl ⟨empty, if_pos empty⟩
  · obtain ⟨date, -, first, -⟩ := s.getElem?_samples (Nat.pos_of_ne_zero empty)
    exact .inr ⟨date, empty, first, by rw [if_neg empty, List.head?_drop]; exact first⟩

end TimeSeries

/-! ## The array -/

/-- The array that a series is written as, and the epoch in front of it if there is one. -/
structure SampleArray (settings : Settings) (k : Kind) (e : k.Encoding) (s : TimeSeries k.Value)
    (epoch : Option Instant) (items : List Tree) : Prop where
  /-- There is an epoch where times are seconds and the window is not empty. -/
  isSome_epoch : epoch.isSome ↔ settings.timeEncoding = .epochSeconds ∧ s.length ≠ 0
  /-- It is that of the settings, or else the first date in the window. -/
  epoch_eq : ∀ t ∈ epoch,
    settings.epoch = some t ∨ settings.epoch = none ∧ s.allDates[s.start]? = some t
  scalars : ∀ t ∈ items, ∃ c, t = .scalar c
  length : items.length = s.length * (1 + k.arity)
  /-- Each sample is its time, as a text or as seconds after that epoch, and then what a literal of its
  value is made of. -/
  sample : ∀ i < s.length, ∃ date v literal,
    s.allDates[s.start + i]? = some date ∧ s.allValues[s.start + i]? = some v ∧
      Stream.literal k e v = Stream.performs (Tree.calls literal) ∧
      (items.drop (i * (1 + k.arity))).take (1 + k.arity) =
        .scalar (epoch.elim (.text date.text) fun t => .double (t.secondsSince date)) ::
          literal.items

theorem sampleArray_ofSamples (settings : Settings) (k : Kind) (e : k.Encoding)
    (s : TimeSeries k.Value) :
    ∃ items, Tree.ofSamples k e (s.firstDate?.bind settings.sampleEpoch) s = .array items ∧
      SampleArray settings k e s (s.firstDate?.bind settings.sampleEpoch) items := by
  generalize chosen : s.firstDate?.bind settings.sampleEpoch = epoch
  let block (x : Instant × k.Value) : List Tree :=
    .scalar (Stream.timeScalar epoch x.1) :: (k.components e x.2).map .scalar
  have sized (x) : (block x).length = 1 + k.arity := by
    rw [List.length_cons, List.length_map, k.length_components, Nat.add_comm]
  refine ⟨s.samples.flatMap block, rfl, ?_, ?_, ?_, ?_, ?_⟩
  · subst chosen
    rcases s.firstDate?_cases with ⟨empty, first⟩ | ⟨date, filled, -, first⟩
    · simp [first, empty]
    · cases encoding : settings.timeEncoding <;>
        simp [first, filled, Settings.sampleEpoch, encoding]
  · rintro t rfl
    obtain ⟨date, first, counted⟩ := Option.bind_eq_some_iff.mp chosen
    rcases s.firstDate?_cases with ⟨-, none⟩ | ⟨date', -, at_start, first'⟩
    · cases none.symm.trans first
    · obtain rfl : date' = date := Option.some.inj (first'.symm.trans first)
      unfold Settings.sampleEpoch at counted
      split at counted
      · cases counted
      · obtain rfl := Option.some.inj counted
        cases set : settings.epoch with
        | none => exact .inr ⟨rfl, at_start⟩
        | some t => exact .inl rfl
  · intro t mem
    obtain ⟨x, -, inside⟩ := List.mem_flatMap.mp mem
    rcases List.mem_cons.mp inside with rfl | inside
    · exact ⟨_, rfl⟩
    · obtain ⟨c, -, rfl⟩ := List.mem_map.mp inside
      exact ⟨c, rfl⟩
  · rw [length_flatMap_blocks sized, s.length_samples]
  · intro i inside
    obtain ⟨date, v, at_date, at_value, at_i⟩ := s.getElem?_samples inside
    refine ⟨date, v, Tree.ofLiteral k e v, at_date, at_value, Stream.literal_eq_performs k e v, ?_⟩
    rw [block_flatMap sized at_i, Tree.items_ofLiteral]
    cases epoch <;> rfl

namespace Property

/-- A series is written where the property may take a value and every value in the window is valid,
and then adds the epoch, if there is one, and its array to the object of the property: exactly the
calls of these members are made, whatever the sink, and wherever the text can be read they are what it
says. -/
theorem writeSeries_iff (stream : Stream) (p : Property) (k : Kind) (e : k.Encoding)
    (s : TimeSeries k.Value) :
    ∃ epoch items members, SampleArray stream.settings k e s epoch items ∧
      members = epoch.toList.map (fun t => ("epoch", .scalar (.text t.text))) ++
        [(k.key e, .array items)] ∧
      (∀ w, writeSeries k e s ⟨stream, p⟩ = .ok () w ↔
        p.TakesValue stream ∧ (∀ v ∈ s.values, k.defect? v = none) ∧
          Stream.performs (p.scope.opening ++ Tree.memberCalls members) stream = .ok () w.stream ∧
          w.own = { p with scope := .object, valueWritten := true }) ∧
      Adds stream p (writeSeries k e s)
        (p.TakesValue stream ∧ ∀ v ∈ s.values, k.defect? v = none) (.members members)
        { p with scope := .object, valueWritten := true } := by
  obtain ⟨items, array, shaped⟩ := sampleArray_ofSamples stream.settings k e s
  have adds : Adds stream p (writeSeries k e s)
      (p.TakesValue stream ∧ ∀ v ∈ s.values, k.defect? v = none) _ _ :=
    (adds_writeSeries (s := stream) (p := p) k e s).congr (by
      simp only [TakesValue]
      tauto)
  simp only [Write.ofSeries, array] at adds
  refine ⟨_, items, _, shaped, rfl, fun w => ?_, adds⟩
  rw [← and_assoc]
  refine Executes.ok_iff adds.refuses fun legal => ?_
  have executes := executes_writeSeries (e := e) legal.1 legal.2
  simp only [Write.ofSeries, array] at executes
  exact executes

end Property

end SceneStream
